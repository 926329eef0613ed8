import MigrationTransport.ProxyPerf.TcpReceiverGap

/-!
The `finally` blocks of the two receive loops. They compute the final statistics before they
close the sockets, with a test for received bytes and none for the elapsed time, so a
receiver that ends at the clock reading at which it started does not close.
-/
namespace FinalStatistics
open ByteStream ProxyPerf TcpReceiver TcpReceiverGap

structure Statistics where
  totalTime : ℚ
  totalMb : ℚ
  chunksReceived : Nat
  avgMbps : ℚ
  throughput : ℚ
  deriving DecidableEq

/-- `none` is `ZeroDivisionError`. -/
def statistics (startTime finalTime : ℚ) (s : Receiver) : Option Statistics :=
  let totalTime := finalTime - startTime
  let totalMb := s.bytesReceived / mebibyte
  if totalTime = 0 then none
  else some {
    totalTime := totalTime
    totalMb := totalMb
    chunksReceived := s.chunksReceived
    avgMbps := s.bytesReceived / (totalTime * mebibyte)
    throughput := totalMb / totalTime }

/-- How a call leaves its sockets, with what it printed last. -/
structure Ended where
  printed : Option Statistics
  zeroDivision : Bool
  unixClosed : Bool
  sslClosed : Bool
  deriving DecidableEq

def closed (printed : Option Statistics) : Ended where
  printed := printed
  zeroDivision := false
  unixClosed := true
  sslClosed := true

def divided : Ended where
  printed := none
  zeroDivision := true
  unixClosed := false
  sslClosed := false

/-- The `finally` block; that of `handle_client` has no unix socket to close. -/
def finalBlock (startTime finalTime : ℚ) (s : Receiver) : Ended :=
  if 0 < s.bytesReceived then
    match statistics startTime finalTime s with
    | some statistics => closed (some statistics)
    | none => divided
  else closed none

def clientCall (startTime finalTime : ℚ) (turns : List Turn) : Option Ended :=
  (Runs.run (handleClient startTime) (.init startTime) turns).bind fun s =>
    if s.running then none else some (finalBlock startTime finalTime s)

/-- A call of `handle_client_unix`. Where the unix socket cannot be connected, it is closed by
    `create_unix_socket_client`, and the call returns at once. -/
def clientUnixCall (startTime finalTime : ℚ) (connected : Bool) (turns : List UnixTurn) :
    Option Ended :=
  if connected then
    (Runs.run (handleClientUnix startTime) (initUnix startTime) turns).bind fun s =>
      if s.running then none else some (finalBlock startTime finalTime s.toReceiver)
  else if turns = [] then some (closed none)
  else none

/-- The block does its work: no division by zero, and every socket is closed. -/
structure Clean (ended : Ended) : Prop where
  divides : ended.zeroDivision = false
  unix : ended.unixClosed = true
  ssl : ended.sslClosed = true

def Receives (turn : Turn) : Prop := ∃ data, turn.recv = .received data

variable {startTime finalTime : ℚ} {s t : Receiver} {u v : Forwarder} {turn : Turn}
  {unixTurn : UnixTurn} {turns : List Turn} {unixTurns : List UnixTurn} {ended : Ended}

theorem closed_clean (printed : Option Statistics) : Clean (closed printed) := ⟨rfl, rfl, rfl⟩

theorem divided_not_clean : ¬ Clean divided := by
  intro clean
  exact absurd clean.divides Bool.noConfusion

theorem finalBlock_clean_iff : Clean (finalBlock startTime finalTime s) ↔
    s.bytesReceived = 0 ∨ finalTime ≠ startTime := by
  unfold finalBlock
  by_cases received : 0 < s.bytesReceived
  · rw [if_pos received]
    by_cases same : finalTime = startTime
    · have none : statistics startTime finalTime s = none := by
        simp [statistics, same]
      rw [none]
      have some : s.bytesReceived ≠ 0 := received.ne'
      simp [divided_not_clean, same, some]
    · have apart : finalTime - startTime ≠ 0 := sub_ne_zero.mpr same
      simp [statistics, apart, closed_clean, same]
  · rw [if_neg received]
    have nothing : s.bytesReceived = 0 := Nat.eq_zero_of_not_pos received
    simp [closed_clean, nothing]

theorem step_nothing (started : startTime ≤ s.progress.lastReportTime)
    (stepped : handleClient startTime s turn = some t) :
    t.bytesReceived = 0 ↔ s.bytesReceived = 0 ∧ ¬ Receives turn := by
  have bytes := congrArg Meter.bytes (handleClient_follows started stepped)
  rw [pass_bytes] at bytes
  have counted : t.bytesReceived = s.bytesReceived + (TcpReceiver.pass turn).counted.getD 0 := bytes
  rw [handleClient, Option.ite_none_right_eq_some] at stepped
  unfold Receives
  unfold TcpReceiver.pass at counted
  cases recv : turn.recv with
  | received data =>
    simp only [recv, Option.ite_none_right_eq_some] at stepped
    have some := stepped.2.1.1
    simp only [recv, Option.getD_some] at counted
    rw [counted]
    constructor
    · intro none
      omega
    · rintro ⟨_, nothing⟩
      exact absurd ⟨data, rfl⟩ nothing
  | empty | raises e =>
    simp only [recv, Option.getD_none] at counted
    simp [counted]

theorem step_nothing_unix (started : startTime ≤ u.progress.lastReportTime)
    (stepped : handleClientUnix startTime u unixTurn = some v) :
    v.bytesReceived = 0 ↔ u.bytesReceived = 0 ∧ ¬ Forwards unixTurn := by
  have bytes := congrArg Meter.bytes (handleClientUnix_follows started stepped)
  rw [pass_bytes] at bytes
  have counted : v.bytesReceived = u.bytesReceived + (passUnix unixTurn).counted.getD 0 := bytes
  rw [handleClientUnix, Option.ite_none_right_eq_some] at stepped
  unfold Forwards
  unfold passUnix TcpReceiver.pass at counted
  cases recv : unixTurn.recv with
  | received data =>
    simp only [recv, Option.ite_none_right_eq_some] at stepped
    have some := stepped.2.1.1
    by_cases sent : unixTurn.sendall = none
    · simp only [recv, if_pos sent, Option.getD_some] at counted
      rw [counted]
      constructor
      · intro none
        omega
      · rintro ⟨_, nothing⟩
        exact absurd ⟨data, rfl, sent⟩ nothing
    · simp only [if_neg sent, Option.getD_none] at counted
      simp [counted, sent]
  | empty | raises e =>
    simp only [recv, ite_self, Option.getD_none] at counted
    simp [counted]

theorem run_nothing (reached : Runs.run (handleClient startTime) (.init startTime) turns = some s) :
    s.bytesReceived = 0 ↔ ∀ turn ∈ turns, ¬ Receives turn := by
  have exact_ := Runs.exact_actions (fun s => Telescopes startTime s.meter)
    (fun s => s.bytesReceived = 0) (fun turn => ¬ Receives turn)
    (fun _ _ _ => handleClient_telescopes)
    (fun _ _ _ good => step_nothing good.started) init_telescopes reached
  rw [exact_]
  exact and_iff_right rfl

theorem run_nothing_unix
    (reached : Runs.run (handleClientUnix startTime) (initUnix startTime) unixTurns = some u) :
    u.bytesReceived = 0 ↔ ∀ turn ∈ unixTurns, ¬ Forwards turn := by
  have exact_ := Runs.exact_actions (fun u => Telescopes startTime u.meter)
    (fun u => u.bytesReceived = 0) (fun turn => ¬ Forwards turn)
    (fun _ _ _ => handleClientUnix_telescopes)
    (fun _ _ _ good => step_nothing_unix good.started) init_telescopes reached
  rw [exact_]
  exact and_iff_right rfl

/-- A call ends without a division by zero and with its sockets closed if and only if no chunk
    was counted in it, or the clock has moved from the start to the end. -/
theorem call_clean_iff (startTime finalTime : ℚ) :
    (∀ turns ended, clientCall startTime finalTime turns = some ended →
      (Clean ended ↔ (∀ turn ∈ turns, ¬ Receives turn) ∨ finalTime ≠ startTime)) ∧
    ∀ connected turns ended, clientUnixCall startTime finalTime connected turns = some ended →
      (Clean ended ↔ (∀ turn ∈ turns, ¬ Forwards turn) ∨ finalTime ≠ startTime) := by
  constructor
  · intro turns ended called
    obtain ⟨s, reached, called⟩ := Option.bind_eq_some_iff.mp called
    rw [Option.ite_none_left_eq_some, Option.some.injEq] at called
    rw [← called.2, finalBlock_clean_iff, run_nothing reached]
  · intro connected turns ended called
    cases connected with
    | true =>
      rw [clientUnixCall, if_pos rfl] at called
      obtain ⟨s, reached, called⟩ := Option.bind_eq_some_iff.mp called
      rw [Option.ite_none_left_eq_some, Option.some.injEq] at called
      rw [← called.2, finalBlock_clean_iff, run_nothing_unix reached]
    | false =>
      rw [clientUnixCall, if_neg Bool.false_ne_true, Option.ite_none_right_eq_some,
        Option.some.injEq] at called
      obtain ⟨none, called⟩ := called
      rw [← called, none]
      simp [closed_clean]

/-- One chunk, and the end of the stream one second after the start. -/
theorem call_clean_after_one_second : ∃ ended,
    clientCall 0 1 [⟨.received [1], 0⟩, ⟨.empty, 0⟩] = some ended ∧ Clean ended := by
  obtain ⟨ended, called⟩ :=
    Option.isSome_iff_exists.mp (by decide +kernel :
      (clientCall 0 1 [⟨.received [1], 0⟩, ⟨.empty, 0⟩]).isSome = true)
  exact ⟨ended, called, ((call_clean_iff 0 1).1 _ ended called).mpr (.inr one_ne_zero)⟩

/-- One chunk, and the end of the stream at the same reading of the clock. -/
theorem same_reading_leaves_socket_open : ¬ ∀ (startTime finalTime : ℚ) (turns : List Turn)
    (ended : Ended), startTime ≤ finalTime →
      clientCall startTime finalTime turns = some ended → Clean ended := by
  intro always
  have called : clientCall 0 0 [⟨.received [1], 0⟩, ⟨.empty, 0⟩] = some divided := by
    decide +kernel
  exact divided_not_clean (always 0 0 _ divided le_rfl called)

end FinalStatistics
