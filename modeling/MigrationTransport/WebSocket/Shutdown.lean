import MigrationTransport.WebSocket.Tunnel

/-!
When the tail of the migration stream survives the shutdown of a tunnel: as long as
neither handler cancels its loop from source to destination before the bytes upstream
of that loop have passed it. The server's handler does, when its other loop fails on the
closing websocket.
-/
namespace Shutdown
open ByteStream WebSocketTunnel TunnelSafety
open WebSocketPipe hiding Act step init

def inHand : SendPc → Bytes
  | .sending data => data
  | _ => []

def SourceDrained (p : Pipe) : Prop :=
  p.unread = [] ∧ inHand p.unixToWs = []

def Drained (p : Pipe) : Prop :=
  SourceDrained p ∧ payloads p.inFlight = []

instance (p : Pipe) : Decidable (SourceDrained p) := by
  unfold SourceDrained; infer_instance

instance (p : Pipe) : Decidable (Drained p) := by
  unfold Drained; infer_instance

/-- A loop that has ended let everything through, and one that is asked to end has nothing
    more to take in. -/
structure Flow (source : Bytes) (p : Pipe) : Prop where
  history : p.bytesRead ++ p.unread = source
  intact : p.written ++ payloads p.inFlight ++ inHand p.unixToWs = p.bytesRead
  sendEnd : p.unixToWs = .finished → p.unread = []
  sendAsked : p.unixToWsCancelled = true → p.unread = []
  receiveEnd : p.wsToUnix = .finished → Drained p
  receiveAsked : p.wsToUnixCancelled = true → Drained p

/-- What may end a loop from source to destination. -/
def Harmless (p : Pipe) : WebSocketPipe.Act → Prop
  | .readRaises | .drainRaises => False
  | .sendRaises => SourceDrained p
  | .cancelSend => inHand p.unixToWs = []
  | .iterationEnds => Drained p
  | _ => True

/-- Nothing that was written, is in flight, in the hand of `forward_unix_to_ws` or unread has
    changed. -/
theorem Flow.kept {source : Bytes} {p q : Pipe} (flow : Flow source p)
    (unread : q.unread = p.unread) (bytesRead : q.bytesRead = p.bytesRead)
    (written : q.written = p.written) (flying : payloads q.inFlight = payloads p.inFlight)
    (hand : inHand q.unixToWs = inHand p.unixToWs)
    (sendEnd : q.unixToWs = .finished → p.unread = [])
    (sendAsked : q.unixToWsCancelled = true → p.unread = [])
    (receiveEnd : q.wsToUnix = .finished → Drained p)
    (receiveAsked : q.wsToUnixCancelled = true → Drained p) : Flow source q := by
  have same : Drained q ↔ Drained p := by
    rw [Drained, Drained, SourceDrained, SourceDrained, unread, hand, flying]
  refine ⟨?_, ?_, ?_, ?_, fun ended => same.mpr (receiveEnd ended),
    fun asked => same.mpr (receiveAsked asked)⟩
  · rw [bytesRead, unread]
    exact flow.history
  · rw [written, flying, hand, bytesRead]
    exact flow.intact
  · rw [unread]
    exact sendEnd
  · rw [unread]
    exact sendAsked

theorem read_flow {source : Bytes} {p : Pipe} (flow : Flow source p) {n : Nat}
    (reading : p.unixToWs = .reading) (kept : p.unixToWsCancelled = false) (positive : 0 < n)
    (available : n ≤ p.unread.length) : Flow source { p with
      unixToWs := .sending (p.unread.take n)
      unread := p.unread.drop n
      bytesRead := p.bytesRead ++ p.unread.take n } := by
  have more : ¬ Drained p := by
    intro drained
    rw [drained.1.1, List.length_nil] at available
    omega
  have empty : inHand p.unixToWs = [] := by rw [reading]; rfl
  have intact := flow.intact
  rw [empty, List.append_nil] at intact
  refine ⟨?_, ?_, by simp, by simp [kept], fun ended => (more (flow.receiveEnd ended)).elim,
    fun asked => (more (flow.receiveAsked asked)).elim⟩
  · rw [List.append_assoc, List.take_append_drop]
    exact flow.history
  · rw [intact, inHand]

/-- A chunk moves from the hand of `forward_unix_to_ws` into the websocket. -/
theorem accept_flow {source : Bytes} {p : Pipe} (flow : Flow source p) {data : Bytes}
    (sending : p.unixToWs = .sending data) : Flow source { p with
      unixToWs := .sent data, inFlight := p.inFlight ++ [.binary data] } := by
  have held : inHand p.unixToWs = data := by rw [sending]; rfl
  have flying : payloads (p.inFlight ++ [.binary data]) = payloads p.inFlight ++ data := by
    simp [payloads, payload]
  have drains : Drained p → Drained { p with
      unixToWs := .sent data, inFlight := p.inFlight ++ [.binary data] } := by
    rintro ⟨⟨unread, empty⟩, landed⟩
    refine ⟨⟨unread, rfl⟩, ?_⟩
    rw [flying, landed, ← held, empty]
    rfl
  have intact := flow.intact
  rw [held] at intact
  refine ⟨flow.history, ?_, by simp, flow.sendAsked, fun ended => drains (flow.receiveEnd ended),
    fun asked => drains (flow.receiveAsked asked)⟩
  rw [flying, ← List.append_assoc, ← intact]
  exact List.append_nil _

theorem receive_flow {source : Bytes} {p : Pipe} (flow : Flow source p) {data : Bytes}
    {rest : List Message} (kept : p.wsToUnixCancelled = false)
    (next : p.inFlight = .binary data :: rest) : Flow source { p with
      wsToUnix := .draining data, inFlight := rest, written := p.written ++ data } := by
  have flying : payloads p.inFlight = data ++ payloads rest := by
    simp [next, payloads, payload]
  refine ⟨flow.history, ?_, flow.sendEnd, flow.sendAsked, by simp, by simp [kept]⟩
  rw [List.append_assoc p.written, ← flying]
  exact flow.intact

theorem step_flow {source : Bytes} {p q : Pipe} {a : WebSocketPipe.Act} (flow : Flow source p)
    (harmless : Harmless p a) (stepped : WebSocketPipe.step p a = some q) : Flow source q := by
  cases WebSocketPipe.step_effect stepped with
  | readRaises => exact harmless.elim
  | drainRaises => exact harmless.elim
  | read n reading kept positive small available =>
    exact read_flow flow reading kept positive available
  | accept data sending => exact accept_flow flow sending
  | receive data rest receiving kept next => exact receive_flow flow kept next
  | startSend created =>
    refine flow.kept rfl rfl rfl rfl ?_ (by simp) flow.sendAsked flow.receiveEnd flow.receiveAsked
    simp [created, inHand]
  | dropSend created wanted =>
    refine flow.kept rfl rfl rfl rfl ?_ (fun _ => flow.sendAsked wanted) flow.sendAsked
      flow.receiveEnd flow.receiveAsked
    simp [created, inHand]
  | eof reading kept ended =>
    refine flow.kept rfl rfl rfl rfl ?_ (fun _ => ended) flow.sendAsked flow.receiveEnd
      flow.receiveAsked
    simp [reading, inHand]
  | sendReturns data sent =>
    refine flow.kept rfl rfl rfl rfl ?_ (by simp) flow.sendAsked flow.receiveEnd flow.receiveAsked
    simp [sent, inHand]
  | sendRaises data inSend =>
    exact flow.kept rfl rfl rfl rfl harmless.2.symm (fun _ => harmless.1) flow.sendAsked
      flow.receiveEnd flow.receiveAsked
  | cancelSend wanted awaits =>
    exact flow.kept rfl rfl rfl rfl harmless.symm (fun _ => flow.sendAsked wanted) flow.sendAsked
      flow.receiveEnd flow.receiveAsked
  | startReceive created =>
    exact flow.kept rfl rfl rfl rfl rfl flow.sendEnd flow.sendAsked (by simp) flow.receiveAsked
  | dropReceive created wanted =>
    exact flow.kept rfl rfl rfl rfl rfl flow.sendEnd flow.sendAsked
      (fun _ => flow.receiveAsked wanted) flow.receiveAsked
  | skip content rest receiving kept next =>
    refine flow.kept rfl rfl rfl ?_ rfl flow.sendEnd flow.sendAsked flow.receiveEnd
      flow.receiveAsked
    simp [next, payloads, payload]
  | drained data draining =>
    exact flow.kept rfl rfl rfl rfl rfl flow.sendEnd flow.sendAsked (by simp) flow.receiveAsked
  | iterationEnds =>
    exact flow.kept rfl rfl rfl rfl rfl flow.sendEnd flow.sendAsked (fun _ => harmless)
      flow.receiveAsked
  | cancelReceive wanted =>
    exact flow.kept rfl rfl rfl rfl rfl flow.sendEnd flow.sendAsked
      (fun _ => flow.receiveAsked wanted) flow.receiveAsked

theorem createSend_flow {source : Bytes} {p : Pipe} (flow : Flow source p) :
    Flow source (createSend p) := by
  unfold createSend
  split
  · rename_i absent
    refine flow.kept rfl rfl rfl rfl ?_ (by simp) flow.sendAsked flow.receiveEnd flow.receiveAsked
    simp [absent, inHand]
  · exact flow

theorem createReceive_flow {source : Bytes} {p : Pipe} (flow : Flow source p) :
    Flow source (createReceive p) := by
  unfold createReceive
  split
  · exact flow.kept rfl rfl rfl rfl rfl flow.sendEnd flow.sendAsked (by simp) flow.receiveAsked
  · exact flow

theorem askSend_flow {source : Bytes} {p : Pipe} (flow : Flow source p)
    (drained : p.unread = []) : Flow source (askSend p) := by
  unfold askSend
  split
  · exact flow
  · exact flow.kept rfl rfl rfl rfl rfl flow.sendEnd (fun _ => drained) flow.receiveEnd
      flow.receiveAsked

theorem askReceive_flow {source : Bytes} {p : Pipe} (flow : Flow source p)
    (drained : Drained p) : Flow source (askReceive p) := by
  unfold askReceive
  split
  · exact flow
  · exact flow.kept rfl rfl rfl rfl rfl flow.sendEnd flow.sendAsked flow.receiveEnd
      (fun _ => drained)

theorem tasks_stay {p q : Pipe} {a : WebSocketPipe.Act}
    (stepped : WebSocketPipe.step p a = some q) :
    (p.unixToWs ≠ .absent → q.unixToWs ≠ .absent) ∧
      (p.wsToUnix ≠ .absent → q.wsToUnix ≠ .absent) := by
  cases WebSocketPipe.step_effect stepped <;> simp_all

/-- How far the handlers are, and what that says about the loops from source to
    destination. -/
structure Stages (s : Tunnel) : Prop where
  created : s.up.unixToWs ≠ .absent
  serverCreated : s.server ≠ .connecting → s.up.wsToUnix ≠ .absent
  joining : s.client = .joining .wsToUnix → s.up.unixToWs = .finished
  closing : closeSent s = true → s.up.unixToWs = .finished
  closeSeen : s.closeSeen = true → closeSent s = true
  serverJoining : s.server = .joining .unixToWs → s.up.wsToUnix = .finished
  serverEnd : s.server = .closingUnix ∨ s.server = .finished → s.up.wsToUnix = .finished
  serverClose : s.serverCloseSeen = true → s.server = .finished

/-- Nothing that a cancelled loop from source to destination leaves undone is missed: the
    client's has read everything and drops no message inside `send`, and the server's has
    nothing more to come. -/
def Spares (s : Tunnel) : Act → Prop
  | .clientWaitReturns => s.up.unixToWs = .finished ∨ s.up.unread = []
  | .up .cancelSend => inHand s.up.unixToWs = []
  | .serverWaitReturns => s.up.wsToUnix = .finished ∨ Drained s.up
  | _ => True

instance (s : Tunnel) (a : Act) : Decidable (Spares s a) := by
  unfold Spares; split <;> infer_instance

theorem possible_harmless {source : Bytes} {s : Tunnel} {a : WebSocketPipe.Act}
    (flow : Flow source s.up) (stages : Stages s) (spares : Spares s (.up a))
    (possible : upPossible s a = true) : Harmless s.up a := by
  cases a with
  | readRaises | drainRaises => simp [upPossible] at possible
  | sendRaises =>
    have serverDone := stages.serverClose possible
    exact (flow.receiveEnd (stages.serverEnd (.inr serverDone))).1
  | iterationEnds =>
    simp only [upPossible, Bool.and_eq_true, List.isEmpty_iff] at possible
    have sentAll := stages.closing (stages.closeSeen possible.1)
    refine ⟨⟨flow.sendEnd sentAll, ?_⟩, ?_⟩
    · simp [sentAll, inHand]
    · simp [possible.2]
  | cancelSend => exact spares
  | _ => trivial

theorem up_stages {s : Tunnel} {p : Pipe} {a : WebSocketPipe.Act} (stages : Stages s)
    (stepped : WebSocketPipe.step s.up a = some p) : Stages { s with up := p } := by
  have sendEnd := send_stays_finished stepped
  have receiveEnd := receive_stays_finished stepped
  obtain ⟨sendExists, receiveExists⟩ := tasks_stay stepped
  exact {
    created := sendExists stages.created
    serverCreated := fun here => receiveExists (stages.serverCreated here)
    joining := fun here => sendEnd (stages.joining here)
    closing := fun here => sendEnd (stages.closing here)
    closeSeen := stages.closeSeen
    serverJoining := fun here => receiveEnd (stages.serverJoining here)
    serverEnd := fun here => receiveEnd (stages.serverEnd here)
    serverClose := stages.serverClose }

theorem client_unseen {s : Tunnel} (stages : Stages s)
    (notSent : closeSent s = false) : ¬ s.closeSeen = true := by
  intro seen
  exact Bool.false_ne_true (notSent.symm.trans (stages.closeSeen seen))

theorem server_unseen {s : Tunnel} (stages : Stages s) (running : s.server ≠ .finished) :
    ¬ s.serverCloseSeen = true := by
  intro seen
  exact running (stages.serverClose seen)

/-- The handlers go on through their stages. -/
theorem step_stages {s t : Tunnel} {a : Act} (stages : Stages s) (stepped : step s a = some t) :
    Stages t := by
  have unseen := client_unseen stages
  have serverUnseen := server_unseen stages
  cases step_effect stepped with
  | up possible moved => exact up_stages stages moved
  | down possible moved =>
    exact ⟨stages.created, stages.serverCreated, stages.joining, stages.closing, stages.closeSeen,
      stages.serverJoining, stages.serverEnd, stages.serverClose⟩
  | clientBothDone waiting sentAll receivedAll =>
    exact ⟨stages.created, stages.serverCreated, by simp, fun _ => sentAll, fun _ => rfl,
      stages.serverJoining, stages.serverEnd, stages.serverClose⟩
  | clientSendDone waiting sentAll =>
    exact ⟨stages.created, stages.serverCreated, fun _ => sentAll, by simp [closeSent],
      fun seen => absurd seen (unseen (by simp [closeSent, waiting])), stages.serverJoining,
      stages.serverEnd, stages.serverClose⟩
  | clientReceiveDone waiting pending receivedAll =>
    exact ⟨by simpa using stages.created, by simpa using stages.serverCreated, by simp,
      by simp [closeSent], fun seen => absurd seen (unseen (by simp [closeSent, waiting])),
      by simpa using stages.serverJoining, by simpa using stages.serverEnd, stages.serverClose⟩
  | clientJoinedSend joining sentAll =>
    exact ⟨stages.created, stages.serverCreated, by simp, fun _ => sentAll, fun _ => rfl,
      stages.serverJoining, stages.serverEnd, stages.serverClose⟩
  | clientJoinedReceive joining receivedAll =>
    exact ⟨stages.created, stages.serverCreated, by simp, fun _ => stages.joining joining,
      fun _ => rfl, stages.serverJoining, stages.serverEnd, stages.serverClose⟩
  | webSocketClosed closing =>
    have sent : closeSent s = true := by simp [closeSent, closing]
    exact ⟨stages.created, stages.serverCreated, by simp, fun _ => stages.closing sent,
      fun _ => rfl, stages.serverJoining, stages.serverEnd, stages.serverClose⟩
  | clientUnixClosed closing =>
    have sent : closeSent s = true := by simp [closeSent, closing]
    exact ⟨stages.created, stages.serverCreated, by simp, fun _ => stages.closing sent,
      fun _ => rfl, stages.serverJoining, stages.serverEnd, stages.serverClose⟩
  | unixConnected connecting =>
    exact ⟨by simpa using stages.created, fun _ => createReceive_exists _,
      by simpa using stages.joining, by simpa [closeSent] using stages.closing, stages.closeSeen,
      by simp, by simp, fun seen => absurd seen (serverUnseen (by simp [connecting]))⟩
  | serverBothDone waiting receivedAll sentAll =>
    exact ⟨stages.created, fun _ => stages.serverCreated (by simp [waiting]), stages.joining,
      stages.closing, stages.closeSeen, by simp, fun _ => receivedAll,
      fun seen => absurd seen (serverUnseen (by simp [waiting]))⟩
  | serverReceiveDone waiting receivedAll =>
    exact ⟨stages.created, fun _ => stages.serverCreated (by simp [waiting]), stages.joining,
      stages.closing, stages.closeSeen, fun _ => receivedAll, by simp,
      fun seen => absurd seen (serverUnseen (by simp [waiting]))⟩
  | serverSendDone waiting pending sentAll =>
    have created' := stages.serverCreated (by simp [waiting])
    exact ⟨by simpa using stages.created, fun _ => by simpa using created',
      by simpa using stages.joining, by simpa [closeSent] using stages.closing, stages.closeSeen,
      by simp, by simp, fun seen => absurd seen (serverUnseen (by simp [waiting]))⟩
  | serverJoinedReceive joining receivedAll =>
    exact ⟨stages.created, fun _ => stages.serverCreated (by simp [joining]), stages.joining,
      stages.closing, stages.closeSeen, by simp, fun _ => receivedAll,
      fun seen => absurd seen (serverUnseen (by simp [joining]))⟩
  | serverJoinedSend joining sentAll =>
    exact ⟨stages.created, fun _ => stages.serverCreated (by simp [joining]), stages.joining,
      stages.closing, stages.closeSeen, by simp, fun _ => stages.serverJoining joining,
      fun seen => absurd seen (serverUnseen (by simp [joining]))⟩
  | serverUnixClosed closing =>
    exact ⟨stages.created, fun _ => stages.serverCreated (by simp [closing]), stages.joining,
      stages.closing, stages.closeSeen, by simp, fun _ => stages.serverEnd (.inl closing),
      fun _ => rfl⟩
  | closeArrives sent unseen =>
    exact ⟨stages.created, stages.serverCreated, stages.joining, stages.closing, fun _ => sent,
      stages.serverJoining, stages.serverEnd, stages.serverClose⟩
  | serverCloseArrives ended unseen =>
    exact ⟨stages.created, stages.serverCreated, stages.joining, stages.closing, stages.closeSeen,
      stages.serverJoining, stages.serverEnd, fun _ => ended⟩

theorem step_flowing {source : Bytes} {s t : Tunnel} {a : Act}
    (whole : Flow source s.up ∧ Stages s) (spares : Spares s a) (stepped : step s a = some t) :
    Flow source t.up ∧ Stages t := by
  obtain ⟨flow, stages⟩ := whole
  refine ⟨?_, step_stages stages stepped⟩
  cases step_effect stepped with
  | up possible moved =>
    exact step_flow flow (possible_harmless flow stages spares possible) moved
  | clientReceiveDone waiting pending => exact askSend_flow flow (spares.resolve_left pending)
  | unixConnected => exact createReceive_flow flow
  | serverSendDone waiting pending => exact askReceive_flow flow (spares.resolve_left pending)
  | _ => exact flow

theorem init_flowing (source destination : Bytes) :
    Flow source (init source destination).up ∧ Stages (init source destination) := by
  have start : Flow source (WebSocketPipe.init source) := by
    constructor <;> simp [WebSocketPipe.init, inHand]
  exact ⟨createSend_flow start, by constructor <;> simp [init, closeSent]⟩

theorem flow_delivered {source : Bytes} {p : Pipe} (flow : Flow source p)
    (ended : p.wsToUnix = .finished) : p.written = source := by
  obtain ⟨⟨unread, held⟩, flying⟩ := flow.receiveEnd ended
  have history := flow.history
  have intact := flow.intact
  rw [unread, List.append_nil] at history
  rw [flying, held, List.append_nil, List.append_nil] at intact
  exact intact.trans history

theorem run_flowing {source destination : Bytes} {acts : List Act} {s : Tunnel}
    (spares : Runs.Along step Spares (init source destination) acts)
    (reached : Runs.run step (init source destination) acts = some s) :
    Flow source s.up ∧ Stages s :=
  Runs.invariant_along (fun s => Flow source s.up ∧ Stages s)
    (fun _ _ _ whole spares stepped => step_flowing whole spares stepped)
    (init_flowing source destination) spares reached

/-- The most that `forward_ws_to_unix` can still have written in the end. -/
def reachable (p : Pipe) : Nat :=
  p.written.length +
    if p.wsToUnix = .finished ∨ p.wsToUnixCancelled = true then 0
    else (payloads p.inFlight).length + (inHand p.unixToWs).length +
      if p.unixToWs = .finished ∨ p.unixToWsCancelled = true then 0 else p.unread.length

theorem pipe_reachable {p q : Pipe} {a : WebSocketPipe.Act}
    (stepped : WebSocketPipe.step p a = some q) : reachable q ≤ reachable p := by
  cases WebSocketPipe.step_effect stepped with
  | receive data rest receiving kept next | skip content rest receiving kept next =>
    simp only [reachable, receiving, kept, next, payloads_cons, payload, List.length_append]
    grind
  | accept data sending =>
    simp only [reachable, sending, inHand, payloads_append, payloads_cons, payloads_nil, payload,
      List.length_append]
    grind
  | _ => grind [reachable, inHand]

theorem step_reachable {s t : Tunnel} {a : Act} (stepped : step s a = some t) :
    reachable t.up ≤ reachable s.up := by
  cases step_effect stepped with
  | up possible moved => exact pipe_reachable moved
  | unixConnected => grind [reachable, createReceive]
  | clientReceiveDone => grind [reachable, askSend]
  | serverSendDone => grind [reachable, askReceive]
  | _ => exact le_rfl

theorem flow_length {source : Bytes} {p : Pipe} (flow : Flow source p) :
    source.length = p.written.length + (payloads p.inFlight).length +
      (inHand p.unixToWs).length + p.unread.length := by
  rw [← flow.history, ← flow.intact]
  simp only [List.length_append]

theorem undrained_length {p : Pipe} (left : ¬ Drained p) :
    0 < (payloads p.inFlight).length + (inHand p.unixToWs).length + p.unread.length := by
  by_contra none
  refine left ⟨⟨?_, ?_⟩, ?_⟩
  all_goals
    rw [← List.length_eq_zero_iff]
    omega

/-- Once a step has not spared what is upstream, the tail of the stream is lost for good. -/
theorem breach_loses {source : Bytes} {s t : Tunnel} {a : Act}
    (whole : Flow source s.up ∧ Stages s) (breach : ¬ Spares s a) (stepped : step s a = some t) :
    reachable t.up < source.length := by
  obtain ⟨flow, stages⟩ := whole
  have total := flow_length flow
  cases step_effect stepped with
  | clientBothDone waiting sentAll => exact absurd (.inl sentAll) breach
  | clientSendDone waiting sentAll => exact absurd (.inl sentAll) breach
  | serverBothDone waiting receivedAll => exact absurd (.inl receivedAll) breach
  | serverReceiveDone waiting receivedAll => exact absurd (.inl receivedAll) breach
  | clientReceiveDone waiting pending =>
    simp only [Spares, not_or] at breach
    have unreadPositive := List.length_pos_iff.mpr breach.2
    simp only [reachable, askSend, pending, stages.created, or_self, if_false, or_true, if_true]
    split <;> omega
  | serverSendDone waiting pending =>
    simp only [Spares, not_or] at breach
    have receiveExists := stages.serverCreated (by simp [waiting])
    have left := undrained_length breach.2
    simp only [reachable, askReceive, pending, receiveExists, or_self, if_false, or_true, if_true]
    omega
  | up possible moved =>
    cases WebSocketPipe.step_effect moved with
    | cancelSend wanted =>
      have handPositive := List.length_pos_iff.mpr breach
      simp only [reachable, inHand, List.length_nil, true_or, if_true]
      split <;> omega
    | _ => exact absurd trivial breach
  | _ => exact absurd trivial breach

theorem tunnel_complete {source destination : Bytes} {acts : List Act} {s : Tunnel}
    (reached : Runs.run step (init source destination) acts = some s)
    (returned : s.server = .finished) :
    s.up.written = source ↔ Runs.Along step Spares (init source destination) acts := by
  constructor
  · intro complete
    by_contra broken
    have lost : reachable s.up < source.length := by
      refine Runs.breach_leads (fun s => Flow source s.up ∧ Stages s)
        (fun s => reachable s.up < source.length) (fun _ _ => True) ?_ ?_ ?_
        (init_flowing source destination) (Runs.along_of_actions _ fun _ _ => trivial)
        reached broken
      · exact fun _ _ _ whole _ spares stepped => step_flowing whole spares stepped
      · exact fun _ _ _ whole _ breach stepped => breach_loses whole breach stepped
      · exact fun _ _ _ less _ stepped => lt_of_le_of_lt (step_reachable stepped) less
    rw [← complete] at lost
    simp only [reachable] at lost
    omega
  · intro spares
    obtain ⟨flow, stages⟩ := run_flowing spares reached
    exact flow_delivered flow (stages.serverEnd (.inr returned))

/-- One byte up, nothing down; the client closes and the server iterates to the end. -/
def oneByteSession : List Act :=
  [.unixConnected, .up .startSend, .up .startReceive, .down .startSend, .down .startReceive,
    .up (.read 1), .up .accept, .up .receive, .up .sendReturns, .up .drained, .up .eof,
    .clientWaitReturns, .down .cancelReceive, .clientJoined, .closeArrives, .up .iterationEnds,
    .serverWaitReturns, .down .cancelSend, .serverJoined, .serverUnixClosed]

theorem tunnel_complete_one_byte : ∃ s, Runs.run step (init [7] []) oneByteSession = some s ∧
    s.server = .finished ∧ s.up.written = [7] := by
  obtain ⟨s, reached, returned⟩ : ∃ s, Runs.run step (init [7] []) oneByteSession = some s ∧
      s.server = .finished := Runs.reaches (by decide)
  exact ⟨s, reached, returned, (tunnel_complete reached returned).mpr (by decide)⟩

/-- Two messages up. The first is still in `drain` when the client's close arrives; the
    byte that comes back can no longer be sent. -/
def tailDropped : List Act :=
  [.unixConnected, .up .startSend, .up .startReceive, .down .startSend, .down .startReceive,
    .up (.read 1), .up .accept, .up .sendReturns, .up (.read 1), .up .accept, .up .sendReturns,
    .up .receive, .up .eof, .clientWaitReturns, .down .cancelReceive, .clientJoined,
    .closeArrives, .down (.read 1), .down .sendRaises, .serverWaitReturns, .up .cancelReceive,
    .serverJoined, .serverUnixClosed]

theorem send_failure_drops_tail : ¬ ∀ (source destination : Bytes) (acts : List Act) (s : Tunnel),
    Runs.run step (init source destination) acts = some s → s.server = .finished →
      s.up.written = source := by
  intro complete
  obtain ⟨s, reached, returned, written⟩ : ∃ s,
      Runs.run step (init [1, 2] [9]) tailDropped = some s ∧
        s.server = .finished ∧ s.up.written = [1] := Runs.reaches (by decide)
  have whole := complete _ _ _ s reached returned
  rw [written] at whole
  exact absurd whole (by decide)

end Shutdown
