import MigrationTransport.ProxyPerf.Receiver

/-!
The receive loops of the TCP receiver, `handle_client` and `handle_client_unix`. Both have
the same cascade of handlers inside the loop, to which the second adds one that catches
whatever is left; an exception that none of them takes ends the loop as well, in the handler
around it.
-/
namespace TcpReceiver
open ByteStream ProxyPerf

def bufferSize : Nat := 8192

/-- What a call raises, told apart as far as the handlers do: `SSLWantReadError`, any other
    `SSLError`, `ConnectionResetError` and every other exception. -/
inductive Raised where
  | sslWantRead
  | ssl
  | connectionReset
  | other
  deriving DecidableEq

inductive SocketRaised where
  | connectionReset
  | other
  deriving DecidableEq

def SocketRaised.raised : SocketRaised → Raised
  | .connectionReset => .connectionReset
  | .other => .other

inductive Handler where
  | continues
  | breaks
  | propagates
  deriving DecidableEq

def clientHandler : Raised → Handler
  | .sslWantRead => .continues
  | .ssl | .connectionReset => .breaks
  | .other => .propagates

def clientUnixHandler : Raised → Handler
  | .sslWantRead => .continues
  | .ssl | .connectionReset => .breaks
  | .other => .breaks

/-- What `ssl_sock.recv` does; at the end of the stream it returns the empty chunk. -/
inductive Recv where
  | received (data : Bytes)
  | empty
  | raises (e : Raised)
  deriving DecidableEq

structure Turn where
  recv : Recv
  currentTime : ℚ
  deriving DecidableEq

/-- One pass through the loop of `handle_client_unix`, with what `unix_sock.sendall` raises if
    there is something to forward. -/
structure UnixTurn extends Turn where
  sendall : Option SocketRaised
  deriving DecidableEq

/-- `attempts` has every chunk received, with whether `sendall` returned. -/
structure Forwarder extends Receiver where
  attempts : List (Bytes × Bool)
  deriving DecidableEq

def initUnix (startTime : ℚ) : Forwarder where
  toReceiver := .init startTime
  attempts := []

def handle (s : Receiver) : Handler → Receiver
  | .continues => s
  | .breaks | .propagates => s.stop

/-- The report, whose division may raise `ZeroDivisionError`. -/
def account (s : Receiver) (startTime : ℚ) (handler : Raised → Handler) (data : Bytes)
    (currentTime : ℚ) : Receiver :=
  (s.account data).report startTime currentTime fun s => handle s (handler .other)

def handleClient (startTime : ℚ) (s : Receiver) (turn : Turn) : Option Receiver :=
  if s.running then
    match turn.recv with
    | .received data =>
      if 0 < data.length ∧ data.length ≤ bufferSize then
        some (account s startTime clientHandler data turn.currentTime)
      else none
    | .empty => some s.stop
    | .raises e => some (handle s (clientHandler e))
  else none

def handleClientUnix (startTime : ℚ) (s : Forwarder) (turn : UnixTurn) : Option Forwarder :=
  if s.running then
    match turn.recv with
    | .received data =>
      if 0 < data.length ∧ data.length ≤ bufferSize then
        match turn.sendall with
        | none => some {
            toReceiver := account s.toReceiver startTime clientUnixHandler data turn.currentTime
            attempts := s.attempts ++ [(data, true)] }
        | some e => some {
            toReceiver := handle s.toReceiver (clientUnixHandler e.raised)
            attempts := s.attempts ++ [(data, false)] }
      else none
    | .empty => some { s with toReceiver := s.toReceiver.stop }
    | .raises e => some { s with toReceiver := handle s.toReceiver (clientUnixHandler e) }
  else none

def pass (turn : Turn) : Pass :=
  match turn.recv with
  | .received data => ⟨some data.length, some turn.currentTime⟩
  | .empty | .raises _ => ⟨none, none⟩

/-- A chunk is counted only after it was forwarded. -/
def passUnix (turn : UnixTurn) : Pass :=
  if turn.sendall = none then pass turn.toTurn else ⟨none, none⟩

variable {startTime currentTime : ℚ} {s t : Receiver} {u v : Forwarder} {turn : Turn}
  {unixTurn : UnixTurn} {handler : Raised → Handler} {data : Bytes}

@[simp] theorem meter_handle (s : Receiver) (h : Handler) : (handle s h).meter = s.meter := by
  cases h <;> rfl

theorem handleClient_follows (started : startTime ≤ s.progress.lastReportTime)
    (stepped : handleClient startTime s turn = some t) :
    t.meter = s.meter.pass startTime (pass turn) := by
  rw [handleClient, Option.ite_none_right_eq_some] at stepped
  obtain ⟨-, stepped⟩ := stepped
  unfold pass
  split at stepped
  · rw [Option.ite_none_right_eq_some, Option.some.injEq] at stepped
    rw [← stepped.2, account, Receiver.account_report started]
  · rw [Option.some.injEq] at stepped
    rw [← stepped]
    rfl
  · rw [Option.some.injEq] at stepped
    rw [← stepped, meter_handle]
    rfl

/-- What one turn of the forwarding loop does, while its report is safe. -/
inductive Effect (startTime : ℚ) (s : Forwarder) (turn : UnixTurn) (t : Forwarder) : Prop where
  | forwarded (data : Bytes) (recv : turn.recv = .received data) (sent : turn.sendall = none)
      (running : t.running = true)
      (meter : t.meter = s.meter.pass startTime
        ⟨some data.length, some turn.currentTime⟩)
      (attempts : t.attempts = s.attempts ++ [(data, true)])
  | failed (data : Bytes) (e : SocketRaised) (recv : turn.recv = .received data)
      (raised : turn.sendall = some e) (running : t.running = false)
      (meter : t.meter = s.meter)
      (attempts : t.attempts = s.attempts ++ [(data, false)])
  | waits (recv : turn.recv = .raises .sslWantRead) (running : t.running = true)
      (meter : t.meter = s.meter) (attempts : t.attempts = s.attempts)
  | ends (recv : turn.recv = .empty ∨ ∃ e, turn.recv = .raises e ∧ e ≠ .sslWantRead)
      (running : t.running = false) (meter : t.meter = s.meter)
      (attempts : t.attempts = s.attempts)

theorem handleClientUnix_effect (started : startTime ≤ u.progress.lastReportTime)
    (stepped : handleClientUnix startTime u unixTurn = some v) :
    Effect startTime u unixTurn v := by
  rw [handleClientUnix, Option.ite_none_right_eq_some] at stepped
  obtain ⟨running, stepped⟩ := stepped
  split at stepped
  · rename_i data recv
    rw [Option.ite_none_right_eq_some] at stepped
    obtain ⟨-, stepped⟩ := stepped
    split at stepped
    · rename_i sent
      rw [Option.some.injEq] at stepped
      subst stepped
      exact .forwarded data recv sent ((Receiver.account_running started).trans running)
        (Receiver.account_report started) rfl
    · rename_i e raised
      rw [Option.some.injEq] at stepped
      subst stepped
      refine .failed data e recv raised ?_ (meter_handle _ _) rfl
      cases e <;> rfl
  · rename_i recv
    rw [Option.some.injEq] at stepped
    subst stepped
    exact .ends (.inl recv) rfl rfl rfl
  · rename_i e recv
    rw [Option.some.injEq] at stepped
    subst stepped
    cases e with
    | sslWantRead => exact .waits recv running rfl rfl
    | _ => exact .ends (.inr ⟨_, recv, by simp⟩) rfl rfl rfl

theorem handleClientUnix_follows (started : startTime ≤ u.progress.lastReportTime)
    (stepped : handleClientUnix startTime u unixTurn = some v) :
    v.meter = u.meter.pass startTime (passUnix unixTurn) := by
  unfold passUnix pass
  cases handleClientUnix_effect started stepped with
  | forwarded data recv sent running meter => rw [meter, if_pos sent, recv]
  | failed data e recv raised running meter =>
    rw [meter, if_neg (by simp [raised])]
    rfl
  | waits recv running meter =>
    rw [meter, recv]
    split <;> rfl
  | ends recv running meter =>
    rw [meter]
    rcases recv with recv | ⟨e, recv, -⟩ <;> (rw [recv]; split <;> rfl)

theorem handleClient_telescopes (good : Telescopes startTime s.meter)
    (stepped : handleClient startTime s turn = some t) : Telescopes startTime t.meter := by
  rw [handleClient_follows good.started stepped]
  exact pass_telescopes good (pass turn)

theorem handleClientUnix_telescopes (good : Telescopes startTime u.meter)
    (stepped : handleClientUnix startTime u unixTurn = some v) : Telescopes startTime v.meter := by
  rw [handleClientUnix_follows good.started stepped]
  exact pass_telescopes good (passUnix unixTurn)

def clientLoop (startTime : ℚ) : BenchLoop startTime where
  State := Receiver
  Turn := Turn
  step := handleClient startTime
  start := .init startTime
  meter := Receiver.meter
  pass := pass
  started := Receiver.init_meter startTime
  follows := handleClient_follows

def clientUnixLoop (startTime : ℚ) : BenchLoop startTime where
  State := Forwarder
  Turn := UnixTurn
  step := handleClientUnix startTime
  start := initUnix startTime
  meter := fun s => s.meter
  pass := passUnix
  started := rfl
  follows := handleClientUnix_follows

end TcpReceiver
