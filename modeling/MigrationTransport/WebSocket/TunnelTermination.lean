import MigrationTransport.Lib.Ranking
import MigrationTransport.WebSocket.Tunnel

/-!
The WebSocket tunnel comes to its end, if the two QEMUs send finite streams, each with an end
of stream after it: whatever its two handlers and four loops do first, it takes a bounded number
of steps. Where it can take none of its own it is over, or a read waits for a QEMU that sends
nothing. The loop that reads the source never waits for the other side, so the client closes
the websocket, and the close frame ends what the server still has.
-/
namespace TunnelTermination
open ByteStream WebSocketPipe WebSocketTunnel Ranking

def sendRank : SendPc → Nat
  | .absent | .finished => 0
  | .created | .sent _ => 3
  | .reading => 2
  | .sending _ => 6

def receiveRank : ReceivePc → Nat
  | .absent | .finished => 0
  | .created | .draining _ => 2
  | .receiving => 1

/-- A byte pays for the `read` that takes it, and a message for being received. -/
def pipeRank (p : Pipe) : Nat :=
  sendRank p.unixToWs + receiveRank p.wsToUnix + 2 * p.inFlight.length + 5 * p.unread.length

theorem step_pipe_rank {p q : Pipe} {a : WebSocketPipe.Act}
    (stepped : WebSocketPipe.step p a = some q) : pipeRank q < pipeRank p := by
  cases WebSocketPipe.step_effect stepped with
  | read n reading kept positive small available =>
    simp only [pipeRank, reading, sendRank, List.length_drop]
    omega
  | accept data sending =>
    simp only [pipeRank, sending, sendRank, List.length_append, List.length_singleton]
    omega
  | receive data rest receiving kept next =>
    simp only [pipeRank, receiving, next, receiveRank, List.length_cons]
    omega
  | skip content rest receiving kept next =>
    simp only [pipeRank, next, List.length_cons]
    omega
  | startSend here | dropSend here | eof here | readRaises here | sendReturns _ here
  | startReceive here | dropReceive here | drained _ here | drainRaises _ here
  | iterationEnds here =>
    simp only [pipeRank, here, sendRank, receiveRank]
    omega
  | sendRaises data inSend =>
    rcases inSend with here | here <;> simp only [pipeRank, here, sendRank] <;> omega
  | cancelSend wanted awaits =>
    rcases awaits with here | ⟨data, here | here⟩ <;> simp only [pipeRank, here, sendRank] <;> omega
  | cancelReceive wanted awaits =>
    rcases awaits with here | ⟨data, here⟩ <;> simp only [pipeRank, here, receiveRank] <;> omega

@[simp] theorem askSend_rank (p : Pipe) : pipeRank (askSend p) = pipeRank p := by
  unfold askSend
  split <;> rfl

@[simp] theorem askReceive_rank (p : Pipe) : pipeRank (askReceive p) = pipeRank p := by
  unfold askReceive
  split <;> rfl

theorem createSend_rank (p : Pipe) : pipeRank (createSend p) ≤ pipeRank p + 3 := by
  unfold createSend
  split
  · rename_i fresh
    simp only [pipeRank, fresh, sendRank]
    omega
  · exact Nat.le_add_right _ _

theorem createReceive_rank (p : Pipe) : pipeRank (createReceive p) ≤ pipeRank p + 2 := by
  unfold createReceive
  split
  · rename_i fresh
    simp only [pipeRank, fresh, receiveRank]
    omega
  · exact Nat.le_add_right _ _

def clientRank : ClientPc → Nat
  | .waiting => 4
  | .joining _ => 3
  | .closingWebSocket => 2
  | .closingUnix => 1
  | .finished => 0

def serverRank : ServerPc → Nat
  | .connecting => 9
  | .waiting => 3
  | .joining _ => 2
  | .closingUnix => 1
  | .finished => 0

def tunnelRank (s : Tunnel) : Nat :=
  clientRank s.client + serverRank s.server + (pipeRank s.up + pipeRank s.down) +
    ((if s.closeSeen then 0 else 1) + if s.serverCloseSeen then 0 else 1)

theorem step_tunnel_rank {s t : Tunnel} {a : WebSocketTunnel.Act}
    (stepped : WebSocketTunnel.step s a = some t) : tunnelRank t < tunnelRank s := by
  cases WebSocketTunnel.step_effect stepped with
  | up possible moved =>
    have lower := step_pipe_rank moved
    simp only [tunnelRank]
    omega
  | down possible moved =>
    have lower := step_pipe_rank moved
    simp only [tunnelRank]
    omega
  | unixConnected connecting =>
    have receive := createReceive_rank s.up
    have send := createSend_rank s.down
    simp only [tunnelRank, connecting, serverRank]
    omega
  | closeArrives sent unseen | serverCloseArrives sent unseen =>
    simp only [tunnelRank, unseen, if_true, Bool.false_eq_true, if_false]
    omega
  | clientBothDone here | clientSendDone here | clientReceiveDone here | clientJoinedSend here
  | clientJoinedReceive here | webSocketClosed here | clientUnixClosed here
  | serverBothDone here | serverReceiveDone here | serverSendDone here | serverJoinedReceive here
  | serverJoinedSend here | serverUnixClosed here =>
    simp only [tunnelRank, here, clientRank, serverRank, askSend_rank, askReceive_rank]
    omega

/-- The loops that exist, and the one that the client has cancelled. -/
structure Live (s : Tunnel) : Prop where
  upSend : s.up.unixToWs ≠ .absent
  downReceive : s.down.wsToUnix ≠ .absent
  server : s.server ≠ .connecting → s.up.wsToUnix ≠ .absent ∧ s.down.unixToWs ≠ .absent
  joining : s.client = .joining .wsToUnix →
    s.down.wsToUnixCancelled = true ∨ s.down.wsToUnix = .finished

theorem step_present {p q : Pipe} {a : WebSocketPipe.Act}
    (stepped : WebSocketPipe.step p a = some q) :
    (p.unixToWs ≠ .absent → q.unixToWs ≠ .absent) ∧
      (p.wsToUnix ≠ .absent → q.wsToUnix ≠ .absent) ∧
      (p.wsToUnixCancelled = true ∨ p.wsToUnix = .finished →
        q.wsToUnixCancelled = true ∨ q.wsToUnix = .finished) := by
  cases WebSocketPipe.step_effect stepped <;> simp_all

theorem askReceive_asked {p : Pipe} (present : p.wsToUnix ≠ .absent) :
    (askReceive p).wsToUnixCancelled = true ∨ (askReceive p).wsToUnix = .finished := by
  unfold askReceive
  split
  · rename_i still
    exact .inr (still.resolve_left present)
  · exact .inl rfl

theorem init_live (source destination : Bytes) :
    Live (WebSocketTunnel.init source destination) := by
  refine ⟨?_, ?_, ?_, ?_⟩ <;>
    simp [WebSocketTunnel.init]

theorem step_live {s t : Tunnel} {a : WebSocketTunnel.Act} (live : Live s)
    (stepped : WebSocketTunnel.step s a = some t) : Live t := by
  obtain ⟨upSend, downReceive, server, joining⟩ := live
  cases WebSocketTunnel.step_effect stepped with
  | up possible moved =>
    obtain ⟨send, receive, -⟩ := step_present moved
    exact ⟨send upSend, downReceive, fun later => ⟨receive (server later).1, (server later).2⟩,
      joining⟩
  | down possible moved =>
    obtain ⟨send, receive, asked⟩ := step_present moved
    exact ⟨upSend, receive downReceive, fun later => ⟨(server later).1, send (server later).2⟩,
      fun same => asked (joining same)⟩
  | unixConnected =>
    refine ⟨by simpa using upSend, by simpa using downReceive, fun _ => by simp, fun same => ?_⟩
    have before := joining same
    unfold createSend
    split <;> exact before
  | clientSendDone =>
    exact ⟨upSend, by simpa using downReceive, fun later => by simpa using server later,
      fun _ => askReceive_asked downReceive⟩
  | clientReceiveDone =>
    exact ⟨by simpa using upSend, downReceive, fun later => by simpa using server later, by simp⟩
  | serverReceiveDone waiting =>
    refine ⟨upSend, by simpa using downReceive, fun _ => ?_, fun same => ?_⟩
    · simpa using server (by simp [waiting])
    · have before := joining same
      unfold askSend
      split <;> exact before
  | serverSendDone waiting =>
    refine ⟨by simpa using upSend, downReceive, fun _ => ?_, joining⟩
    simpa using server (by simp [waiting])
  | clientBothDone | clientJoinedSend | clientJoinedReceive | webSocketClosed | clientUnixClosed =>
    exact ⟨upSend, downReceive, server, by simp⟩
  | serverBothDone here | serverJoinedReceive here | serverJoinedSend here
  | serverUnixClosed here =>
    exact ⟨upSend, downReceive, fun _ => server (by simp [here]), joining⟩
  | closeArrives | serverCloseArrives => exact ⟨upSend, downReceive, server, joining⟩

theorem tunnel_ranked : Ranked WebSocketTunnel.step (fun _ => true) Live tunnelRank where
  preserved _ _ _ live stepped := step_live live stepped
  never _ _ _ _ stepped := (step_tunnel_rank stepped).le
  lowers _ _ _ _ _ stepped := step_tunnel_rank stepped

/-- No socket fails: what is left of the failures is a `send` after the other side's close. -/
def faultless : WebSocketTunnel.Act → Bool
  | .up .readRaises | .up .drainRaises | .down .readRaises | .down .drainRaises => false
  | _ => true

def Halted (s : Tunnel) : Prop := Stuck WebSocketTunnel.step faultless s

/-- What a loop does without the other side and without a failure. -/
def ownLoop : WebSocketPipe.Act → Bool
  | .accept | .sendRaises | .readRaises | .drainRaises | .iterationEnds => false
  | _ => true

/-- `forward_unix_to_ws` always has a step: it reads, or meets its end of stream, and a
    `send` is accepted or fails. -/
theorem send_finished {p : Pipe} (present : p.unixToWs ≠ .absent)
    (own : ∀ a, ownLoop a = true → WebSocketPipe.step p a = none)
    (sends : WebSocketPipe.step p .accept = none ∨ WebSocketPipe.step p .sendRaises = none) :
    p.unixToWs = .finished := by
  cases task : p.unixToWs with
  | absent => exact absurd task present
  | finished => rfl
  | created =>
    by_cases wanted : p.unixToWsCancelled = true
    · have refused := own .dropSend rfl
      simp [WebSocketPipe.step, task, wanted] at refused
    · have refused := own .startSend rfl
      simp [WebSocketPipe.step, task, wanted] at refused
  | reading =>
    by_cases wanted : p.unixToWsCancelled = true
    · have refused := own .cancelSend rfl
      simp [WebSocketPipe.step, task, wanted] at refused
    · by_cases more : p.unread = []
      · have refused := own .eof rfl
        simp [WebSocketPipe.step, task, wanted, more] at refused
      · have positive : 1 ≤ p.unread.length := List.length_pos_iff.mpr more
        have refused := own (.read 1) rfl
        simp [WebSocketPipe.step, task, wanted, readSize, positive] at refused
  | sending data =>
    rcases sends with refused | refused <;> simp [WebSocketPipe.step, task] at refused
  | sent data =>
    by_cases wanted : p.unixToWsCancelled = true
    · have refused := own .cancelSend rfl
      simp [WebSocketPipe.step, task, wanted] at refused
    · have refused := own .sendReturns rfl
      simp [WebSocketPipe.step, task, wanted] at refused

/-- `forward_ws_to_unix` may wait for a message, unless it was cancelled or the iteration
    can end. -/
theorem receive_finished {p : Pipe} (present : p.wsToUnix ≠ .absent)
    (own : ∀ a, ownLoop a = true → WebSocketPipe.step p a = none)
    (ends : p.wsToUnixCancelled = true ∨ p.wsToUnix = .finished ∨
      (p.inFlight = [] → WebSocketPipe.step p .iterationEnds = none)) : p.wsToUnix = .finished := by
  cases task : p.wsToUnix with
  | absent => exact absurd task present
  | finished => rfl
  | created =>
    by_cases wanted : p.wsToUnixCancelled = true
    · have refused := own .dropReceive rfl
      simp [WebSocketPipe.step, task, wanted] at refused
    · have refused := own .startReceive rfl
      simp [WebSocketPipe.step, task, wanted] at refused
  | receiving =>
    by_cases wanted : p.wsToUnixCancelled = true
    · have refused := own .cancelReceive rfl
      simp [WebSocketPipe.step, task, wanted] at refused
    · have refused := own .receive rfl
      cases flying : p.inFlight with
      | nil =>
        have ended : WebSocketPipe.step p .iterationEnds = none := by
          rcases ends with asked | done | ends
          · exact absurd asked wanted
          · simp [task] at done
          · exact ends flying
        simp [WebSocketPipe.step, task] at ended
      | cons message rest =>
        cases message <;> simp [WebSocketPipe.step, task, wanted, flying] at refused
  | draining data =>
    by_cases wanted : p.wsToUnixCancelled = true
    · have refused := own .cancelReceive rfl
      simp [WebSocketPipe.step, task, wanted] at refused
    · have refused := own .drained rfl
      simp [WebSocketPipe.step, task, wanted] at refused

theorem up_halted {s : Tunnel} (halted : Halted s) {a : WebSocketPipe.Act}
    (possible : upPossible s a = true) : WebSocketPipe.step s.up a = none := by
  have fine : faultless (.up a) = true := by
    cases a <;> simp_all [faultless, upPossible]
  have refused := halted (.up a) fine
  simpa [WebSocketTunnel.step, possible] using refused

theorem down_halted {s : Tunnel} (halted : Halted s) {a : WebSocketPipe.Act}
    (possible : downPossible s a = true) (drains : a ≠ .drainRaises) :
    WebSocketPipe.step s.down a = none := by
  have fine : faultless (.down a) = true := by
    cases a <;> simp_all [faultless, downPossible]
  have refused := halted (.down a) fine
  simpa [WebSocketTunnel.step, possible] using refused

theorem up_own {s : Tunnel} (halted : Halted s) {a : WebSocketPipe.Act} (own : ownLoop a = true) :
    WebSocketPipe.step s.up a = none := by
  apply up_halted halted
  cases a <;> simp_all [ownLoop, upPossible]

theorem down_own {s : Tunnel} (halted : Halted s) {a : WebSocketPipe.Act}
    (own : ownLoop a = true) : WebSocketPipe.step s.down a = none := by
  apply down_halted halted
  · cases a <;> simp_all [ownLoop, downPossible]
  · rintro rfl
    cases own

theorem halted_source {s : Tunnel} (live : Live s) (halted : Halted s) :
    s.up.unixToWs = .finished := by
  apply send_finished live.upSend (fun a own => up_own halted own)
  by_cases seen : s.serverCloseSeen = true
  · exact .inr (up_halted halted seen)
  · exact .inl (up_halted halted (by simpa [upPossible] using seen))

/-- The client: its sending loop has ended, and what it cancels ends too. -/
theorem halted_client {s : Tunnel} (live : Live s) (halted : Halted s) : s.client = .finished := by
  have sentAll := halted_source live halted
  cases client : s.client with
  | finished => rfl
  | waiting =>
    have refused := halted .clientWaitReturns rfl
    by_cases both : s.down.wsToUnix = .finished <;>
      simp [WebSocketTunnel.step, client, sentAll, both] at refused
  | joining t =>
    cases t with
    | unixToWs =>
      have refused := halted .clientJoined rfl
      simp [WebSocketTunnel.step, client, sentAll] at refused
    | wsToUnix =>
      have receivedAll : s.down.wsToUnix = .finished := by
        apply receive_finished live.downReceive (fun a own => down_own halted own)
        rcases live.joining client with asked | done
        · exact .inl asked
        · exact .inr (.inl done)
      have refused := halted .clientJoined rfl
      simp [WebSocketTunnel.step, client, receivedAll] at refused
  | closingWebSocket =>
    have refused := halted .webSocketClosed rfl
    simp [WebSocketTunnel.step, client] at refused
  | closingUnix =>
    have refused := halted .clientUnixClosed rfl
    simp [WebSocketTunnel.step, client] at refused

structure TunnelOver (s : Tunnel) : Prop where
  client : s.client = .finished
  server : s.server = .finished
  upSend : s.up.unixToWs = .finished
  upReceive : s.up.wsToUnix = .finished
  downSend : s.down.unixToWs = .finished
  downReceive : s.down.wsToUnix = .finished

theorem halted_server {s : Tunnel} (live : Live s) (halted : Halted s)
    (seen : s.closeSeen = true) : s.server = .finished ∧ s.up.wsToUnix = .finished ∧
      s.down.unixToWs = .finished := by
  have connected : s.server ≠ .connecting := by
    intro connecting
    have refused := halted .unixConnected rfl
    simp [WebSocketTunnel.step, connecting] at refused
  obtain ⟨receivePresent, sendPresent⟩ := live.server connected
  have receivedAll : s.up.wsToUnix = .finished := by
    apply receive_finished receivePresent (fun a own => up_own halted own)
    exact .inr (.inr fun landed => up_halted halted (by simp [upPossible, seen, landed]))
  have sentAll : s.down.unixToWs = .finished := by
    apply send_finished sendPresent (fun a own => down_own halted own)
    exact .inr (down_halted halted seen (by simp))
  refine ⟨?_, receivedAll, sentAll⟩
  cases server : s.server with
  | connecting => exact absurd server connected
  | finished => rfl
  | waiting =>
    have refused := halted .serverWaitReturns rfl
    simp [WebSocketTunnel.step, server, receivedAll, sentAll] at refused
  | joining t =>
    have refused := halted .serverJoined rfl
    cases t <;> simp [WebSocketTunnel.step, server, receivedAll, sentAll] at refused
  | closingUnix =>
    have refused := halted .serverUnixClosed rfl
    simp [WebSocketTunnel.step, server] at refused

theorem halted_over {s : Tunnel} (live : Live s) (halted : Halted s) : TunnelOver s := by
  have client := halted_client live halted
  have seen : s.closeSeen = true := by
    by_contra unseen
    have refused := halted .closeArrives rfl
    simp [WebSocketTunnel.step, closeSent, client, unseen] at refused
  obtain ⟨server, upReceive, downSend⟩ := halted_server live halted seen
  have serverSeen : s.serverCloseSeen = true := by
    by_contra unseen
    have refused := halted .serverCloseArrives rfl
    simp [WebSocketTunnel.step, server, unseen] at refused
  refine ⟨client, server, halted_source live halted, upReceive, downSend, ?_⟩
  apply receive_finished live.downReceive (fun a own => down_own halted own)
  refine .inr (.inr fun landed => down_halted halted ?_ (by simp))
  simp [downPossible, serverSeen, landed]

/-- A loop reads from its QEMU, which sends nothing. -/
def Waiting (p : Pipe) : Prop :=
  p.unixToWs = .reading ∧ p.unixToWsCancelled = false ∧ p.unread = []

/-- The steps of the tunnel itself: an end of stream from a QEMU is not one. -/
def ownAct : WebSocketTunnel.Act → Bool
  | .up .eof | .down .eof => false
  | a => faultless a

theorem eof_waiting {p q : Pipe} (stepped : WebSocketPipe.step p .eof = some q) : Waiting p := by
  cases WebSocketPipe.step_effect stepped with
  | eof reading kept ended => exact ⟨reading, kept, ended⟩

theorem halted_waits {s : Tunnel} (live : Live s) (stuck : Stuck WebSocketTunnel.step ownAct s) :
    TunnelOver s ∨ Waiting s.up ∨ Waiting s.down := by
  have halted : Halted s ∨ Waiting s.up ∨ Waiting s.down := by
    apply stuck_or_awaits stuck
    intro a t fine foreign stepped
    unfold ownAct at foreign
    split at foreign
    · cases WebSocketTunnel.step_effect stepped with
      | up possible moved => exact .inl (eof_waiting moved)
    · cases WebSocketTunnel.step_effect stepped with
      | down possible moved => exact .inr (eof_waiting moved)
    · rw [fine] at foreign
      cases foreign
  exact halted.imp_left (halted_over live)

theorem init_tunnel_rank (source destination : Bytes) :
    tunnelRank (WebSocketTunnel.init source destination) =
      20 + 5 * (source.length + destination.length) := by
  simp only [tunnelRank, WebSocketTunnel.init, createSend, createReceive, WebSocketPipe.init,
    pipeRank, clientRank, serverRank, sendRank, receiveRank, if_true, Bool.false_eq_true,
    if_false, List.length_nil]
  omega

end TunnelTermination
