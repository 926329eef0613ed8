import MigrationTransport.WebSocket.TunnelSafety

/-!
One tunnel with both of its handlers: `handle_qemu_connection` of the client from the
moment it waits for its two loops, and `handle_client` of the server from
`create_unix_connection` on. Either handler cancels what is left when the first of its
two loops ends. The client then closes the websocket; from the moment its close frame
has arrived the server can send nothing, but still iterate over what it received. The
network and the destination's unix socket do not fail; the source's socket may refuse
what comes back.
-/
namespace WebSocketTunnel
open ByteStream WebSocketPipe

/-- The loop that a handler has cancelled and awaits. -/
inductive Task where
  | unixToWs
  | wsToUnix
  deriving DecidableEq

inductive ClientPc where
  | waiting
  | joining (t : Task)
  | closingWebSocket
  | closingUnix
  | finished
  deriving DecidableEq

inductive ServerPc where
  | connecting
  | waiting
  | joining (t : Task)
  | closingUnix
  | finished
  deriving DecidableEq

/-- `closeSeen`: the client's close frame has arrived at the server, behind everything it
    sent before. `serverCloseSeen`: the client knows that the server has closed. -/
structure Tunnel where
  up : Pipe
  down : Pipe
  client : ClientPc
  server : ServerPc
  closeSeen : Bool
  serverCloseSeen : Bool
  deriving DecidableEq

inductive Act where
  | up (a : WebSocketPipe.Act)
  | down (a : WebSocketPipe.Act)
  | clientWaitReturns
  | clientJoined
  | webSocketClosed
  | clientUnixClosed
  | unixConnected
  | serverWaitReturns
  | serverJoined
  | serverUnixClosed
  | closeArrives
  | serverCloseArrives
  deriving DecidableEq

def init (source destination : Bytes) : Tunnel where
  up := createSend (WebSocketPipe.init source)
  down := createReceive (WebSocketPipe.init destination)
  client := .waiting
  server := .connecting
  closeSeen := false
  serverCloseSeen := false

/-- `websocket.close()` has been called by `cleanup_connection`. -/
def closeSent (s : Tunnel) : Bool :=
  match s.client with
  | .waiting | .joining _ => false
  | .closingWebSocket | .closingUnix | .finished => true

/-- What can happen to the loops from source to destination. -/
def upPossible (s : Tunnel) : WebSocketPipe.Act → Bool
  | .readRaises | .drainRaises => false
  | .accept => !s.serverCloseSeen
  | .sendRaises => s.serverCloseSeen
  | .iterationEnds => s.closeSeen && s.up.inFlight.isEmpty
  | _ => true

def downPossible (s : Tunnel) : WebSocketPipe.Act → Bool
  | .readRaises => false
  | .accept => !s.closeSeen
  | .sendRaises => s.closeSeen
  | .iterationEnds => s.serverCloseSeen && s.down.inFlight.isEmpty
  | _ => true

def step (s : Tunnel) : Act → Option Tunnel
  | .up a =>
    if upPossible s a then (WebSocketPipe.step s.up a).map fun p => { s with up := p } else none
  | .down a =>
    if downPossible s a then (WebSocketPipe.step s.down a).map fun p => { s with down := p }
    else none
  | .clientWaitReturns =>
    if s.client = .waiting then
      if s.up.unixToWs = .finished then
        if s.down.wsToUnix = .finished then some { s with client := .closingWebSocket }
        else some { s with client := .joining .wsToUnix, down := askReceive s.down }
      else if s.down.wsToUnix = .finished then
        some { s with client := .joining .unixToWs, up := askSend s.up }
      else none
    else none
  | .clientJoined =>
    match s.client with
    | .joining .unixToWs =>
      if s.up.unixToWs = .finished then some { s with client := .closingWebSocket } else none
    | .joining .wsToUnix =>
      if s.down.wsToUnix = .finished then some { s with client := .closingWebSocket } else none
    | _ => none
  | .webSocketClosed =>
    if s.client = .closingWebSocket then some { s with client := .closingUnix } else none
  | .clientUnixClosed =>
    if s.client = .closingUnix then some { s with client := .finished } else none
  | .unixConnected =>
    if s.server = .connecting then
      some { s with server := .waiting, up := createReceive s.up, down := createSend s.down }
    else none
  | .serverWaitReturns =>
    if s.server = .waiting then
      if s.up.wsToUnix = .finished then
        if s.down.unixToWs = .finished then some { s with server := .closingUnix }
        else some { s with server := .joining .unixToWs, down := askSend s.down }
      else if s.down.unixToWs = .finished then
        some { s with server := .joining .wsToUnix, up := askReceive s.up }
      else none
    else none
  | .serverJoined =>
    match s.server with
    | .joining .wsToUnix =>
      if s.up.wsToUnix = .finished then some { s with server := .closingUnix } else none
    | .joining .unixToWs =>
      if s.down.unixToWs = .finished then some { s with server := .closingUnix } else none
    | _ => none
  | .serverUnixClosed =>
    if s.server = .closingUnix then some { s with server := .finished } else none
  | .closeArrives =>
    if closeSent s = true ∧ s.closeSeen = false then some { s with closeSeen := true } else none
  | .serverCloseArrives =>
    if s.server = .finished ∧ s.serverCloseSeen = false then
      some { s with serverCloseSeen := true }
    else none

inductive Effect (s : Tunnel) : Act → Tunnel → Prop where
  | up {a : WebSocketPipe.Act} {p : Pipe} (possible : upPossible s a = true)
      (moved : WebSocketPipe.step s.up a = some p) : Effect s (.up a) { s with up := p }
  | down {a : WebSocketPipe.Act} {p : Pipe} (possible : downPossible s a = true)
      (moved : WebSocketPipe.step s.down a = some p) : Effect s (.down a) { s with down := p }
  | clientBothDone (waiting : s.client = .waiting) (sentAll : s.up.unixToWs = .finished)
      (receivedAll : s.down.wsToUnix = .finished) :
      Effect s .clientWaitReturns { s with client := .closingWebSocket }
  | clientSendDone (waiting : s.client = .waiting) (sentAll : s.up.unixToWs = .finished) :
      Effect s .clientWaitReturns
        { s with client := .joining .wsToUnix, down := askReceive s.down }
  | clientReceiveDone (waiting : s.client = .waiting) (pending : s.up.unixToWs ≠ .finished)
      (receivedAll : s.down.wsToUnix = .finished) :
      Effect s .clientWaitReturns { s with client := .joining .unixToWs, up := askSend s.up }
  | clientJoinedSend (joining : s.client = .joining .unixToWs)
      (sentAll : s.up.unixToWs = .finished) :
      Effect s .clientJoined { s with client := .closingWebSocket }
  | clientJoinedReceive (joining : s.client = .joining .wsToUnix)
      (receivedAll : s.down.wsToUnix = .finished) :
      Effect s .clientJoined { s with client := .closingWebSocket }
  | webSocketClosed (closing : s.client = .closingWebSocket) :
      Effect s .webSocketClosed { s with client := .closingUnix }
  | clientUnixClosed (closing : s.client = .closingUnix) :
      Effect s .clientUnixClosed { s with client := .finished }
  | unixConnected (connecting : s.server = .connecting) :
      Effect s .unixConnected
        { s with server := .waiting, up := createReceive s.up, down := createSend s.down }
  | serverBothDone (waiting : s.server = .waiting) (receivedAll : s.up.wsToUnix = .finished)
      (sentAll : s.down.unixToWs = .finished) :
      Effect s .serverWaitReturns { s with server := .closingUnix }
  | serverReceiveDone (waiting : s.server = .waiting)
      (receivedAll : s.up.wsToUnix = .finished) :
      Effect s .serverWaitReturns { s with server := .joining .unixToWs, down := askSend s.down }
  | serverSendDone (waiting : s.server = .waiting) (pending : s.up.wsToUnix ≠ .finished)
      (sentAll : s.down.unixToWs = .finished) :
      Effect s .serverWaitReturns { s with server := .joining .wsToUnix, up := askReceive s.up }
  | serverJoinedReceive (joining : s.server = .joining .wsToUnix)
      (receivedAll : s.up.wsToUnix = .finished) :
      Effect s .serverJoined { s with server := .closingUnix }
  | serverJoinedSend (joining : s.server = .joining .unixToWs)
      (sentAll : s.down.unixToWs = .finished) :
      Effect s .serverJoined { s with server := .closingUnix }
  | serverUnixClosed (closing : s.server = .closingUnix) :
      Effect s .serverUnixClosed { s with server := .finished }
  | closeArrives (sent : closeSent s = true) (unseen : s.closeSeen = false) :
      Effect s .closeArrives { s with closeSeen := true }
  | serverCloseArrives (ended : s.server = .finished) (unseen : s.serverCloseSeen = false) :
      Effect s .serverCloseArrives { s with serverCloseSeen := true }

theorem step_effect {s t : Tunnel} {a : Act} (stepped : step s a = some t) : Effect s a t := by
  cases a with
  | up a | down a =>
    simp only [step, Option.ite_none_right_eq_some, Option.map_eq_some_iff] at stepped
    obtain ⟨possible, p, moved, rfl⟩ := stepped
    constructor <;> assumption
  | clientWaitReturns =>
    simp only [step, Option.ite_none_right_eq_some] at stepped
    obtain ⟨waiting, stepped⟩ := stepped
    split at stepped
    · rename_i sentAll
      split at stepped <;> (rw [Option.some.injEq] at stepped; subst stepped)
      · exact .clientBothDone waiting sentAll ‹_›
      · exact .clientSendDone waiting sentAll
    · rename_i pending
      rw [Option.ite_none_right_eq_some, Option.some.injEq] at stepped
      obtain ⟨receivedAll, rfl⟩ := stepped
      exact .clientReceiveDone waiting pending receivedAll
  | serverWaitReturns =>
    simp only [step, Option.ite_none_right_eq_some] at stepped
    obtain ⟨waiting, stepped⟩ := stepped
    split at stepped
    · rename_i receivedAll
      split at stepped <;> (rw [Option.some.injEq] at stepped; subst stepped)
      · exact .serverBothDone waiting receivedAll ‹_›
      · exact .serverReceiveDone waiting receivedAll
    · rename_i pending
      rw [Option.ite_none_right_eq_some, Option.some.injEq] at stepped
      obtain ⟨sentAll, rfl⟩ := stepped
      exact .serverSendDone waiting pending sentAll
  | clientJoined =>
    simp only [step] at stepped
    split at stepped
    all_goals simp only [Option.ite_none_right_eq_some, Option.some.injEq, reduceCtorEq] at stepped
    all_goals obtain ⟨done, rfl⟩ := stepped
    · exact .clientJoinedSend ‹_› done
    · exact .clientJoinedReceive ‹_› done
  | serverJoined =>
    simp only [step] at stepped
    split at stepped
    all_goals simp only [Option.ite_none_right_eq_some, Option.some.injEq, reduceCtorEq] at stepped
    all_goals obtain ⟨done, rfl⟩ := stepped
    · exact .serverJoinedReceive ‹_› done
    · exact .serverJoinedSend ‹_› done
  | closeArrives | serverCloseArrives =>
    simp only [step, Option.ite_none_right_eq_some, Option.some.injEq] at stepped
    obtain ⟨⟨first, unseen⟩, rfl⟩ := stepped
    constructor <;> assumption
  | _ =>
    simp only [step, Option.ite_none_right_eq_some, Option.some.injEq] at stepped
    obtain ⟨here, rfl⟩ := stepped
    constructor
    exact here

def pipes (s : Tunnel) : Pipes := ⟨s.up, s.down⟩

/-- What the handlers do to the loops is to create and to cancel them. -/
theorem step_pipes {s t : Tunnel} {a : Act} (stepped : step s a = some t) :
    ∃ moves, Runs.run Pipes.step (pipes s) moves = some (pipes t) := by
  cases step_effect stepped with
  | @up act p possible moved => exact ⟨[.up act], by simp [pipes, Pipes.step, moved]⟩
  | @down act p possible moved => exact ⟨[.down act], by simp [pipes, Pipes.step, moved]⟩
  | unixConnected => exact ⟨[.createServerTasks], rfl⟩
  | clientSendDone => exact ⟨[.askDownReceive], rfl⟩
  | clientReceiveDone => exact ⟨[.askUpSend], rfl⟩
  | serverReceiveDone => exact ⟨[.askDownSend], rfl⟩
  | serverSendDone => exact ⟨[.askUpReceive], rfl⟩
  | _ => exact ⟨[], rfl⟩

theorem run_pipes {source destination : Bytes} {acts : List Act} {s : Tunnel}
    (reached : Runs.run step (init source destination) acts = some s) :
    ∃ moves, Runs.run Pipes.step (.init source destination) moves = some (pipes s) := by
  obtain ⟨moves, seen⟩ := Runs.refines pipes (fun _ _ _ => step_pipes) reached
  exact ⟨.createClientTasks :: moves, Runs.run_cons.mpr ⟨_, rfl, seen⟩⟩

/-- However its handlers end, a tunnel loses nothing but the last chunk it has read. -/
theorem shutdown_safe {source destination : Bytes} {acts : List Act} {s : Tunnel}
    (reached : Runs.run step (init source destination) acts = some s) :
    TunnelSafety.NothingReordered source s.up ∧
      TunnelSafety.NothingReordered destination s.down := by
  obtain ⟨moves, seen⟩ := run_pipes reached
  have framed := TunnelSafety.run_framed seen
  exact ⟨TunnelSafety.framed_ordered framed.1, TunnelSafety.framed_ordered framed.2⟩

/-- The client's handler is done while its second message is under way. -/
def endsBetween : List Act :=
  [.unixConnected, .up .startSend, .up .startReceive, .down .startSend, .down .startReceive,
    .up (.read 1), .up .accept, .up .sendReturns, .up (.read 1), .up .accept, .up .sendReturns,
    .up .receive, .up .eof, .clientWaitReturns, .down .cancelReceive, .clientJoined]

theorem shutdown_safe_between : ∃ s, Runs.run step (init [1, 2] [9]) endsBetween = some s ∧
    s.client = .closingWebSocket ∧ s.up.written = [1] ∧
    TunnelSafety.NothingReordered [1, 2] s.up ∧ TunnelSafety.NothingReordered [9] s.down := by
  obtain ⟨s, reached, closing, written⟩ : ∃ s,
      Runs.run step (init [1, 2] [9]) endsBetween = some s ∧
        s.client = .closingWebSocket ∧ s.up.written = [1] := Runs.reaches (by decide)
  exact ⟨s, reached, closing, written, shutdown_safe reached⟩

end WebSocketTunnel
