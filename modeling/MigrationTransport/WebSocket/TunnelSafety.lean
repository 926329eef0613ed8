import MigrationTransport.WebSocket.Pipe

/-!
What the tunnel can lose and what it cannot: whatever is cancelled or fails, and
wherever, the bytes written and in flight are a prefix of the bytes read, and only one
chunk that was read can be missing behind it.
-/
namespace TunnelSafety
open ByteStream WebSocketPipe

/-- One result of `unix_reader.read(8192)`, as a message. -/
def IsChunk (m : Message) : Prop :=
  ∃ data, m = .binary data ∧ 0 < data.length ∧ data.length ≤ readSize

/-- The bytes that were read and have not been accepted by `websocket.send`. -/
def Behind (pc : SendPc) (rest : Bytes) : Prop :=
  match pc with
  | .sending data => rest = data ∧ 0 < data.length ∧ data.length ≤ readSize
  | .finished => rest.length ≤ readSize
  | _ => rest = []

structure Framed (stream : Bytes) (p : Pipe) : Prop where
  history : p.bytesRead ++ p.unread = stream
  split : ∃ rest, p.bytesRead = p.written ++ payloads p.inFlight ++ rest ∧ Behind p.unixToWs rest
  chunks : ∀ m ∈ p.inFlight, IsChunk m

@[simp] theorem payloads_nil : payloads [] = [] := rfl

@[simp] theorem payloads_cons (m : Message) (rest : List Message) :
    payloads (m :: rest) = payload m ++ payloads rest := by
  simp [payloads]

@[simp] theorem payloads_append (first rest : List Message) :
    payloads (first ++ rest) = payloads first ++ payloads rest := by
  simp [payloads]

theorem behind_length {pc : SendPc} {rest : Bytes} (behind : Behind pc rest) :
    rest.length ≤ readSize := by
  cases pc with
  | sending data =>
    obtain ⟨rfl, -, short⟩ := behind
    exact short
  | finished => exact behind
  | absent | created | reading | sent data =>
    rw [show rest = [] from behind]
    exact Nat.zero_le _

theorem ended_framed {stream : Bytes} {p : Pipe} (framed : Framed stream p) :
    Framed stream { p with unixToWs := .finished } := by
  obtain ⟨history, ⟨rest, split, behind⟩, chunks⟩ := framed
  exact ⟨history, ⟨rest, split, behind_length behind⟩, chunks⟩

/-- Steps that leave the bytes and the place of `forward_unix_to_ws` as they are. -/
theorem framed_of_same {stream : Bytes} {p q : Pipe} (framed : Framed stream p)
    (read : q.bytesRead = p.bytesRead) (unread : q.unread = p.unread)
    (written : q.written = p.written) (inFlight : q.inFlight = p.inFlight)
    (place : ∀ rest, Behind p.unixToWs rest → Behind q.unixToWs rest) : Framed stream q := by
  obtain ⟨history, ⟨rest, split, behind⟩, chunks⟩ := framed
  refine ⟨?_, ⟨rest, ?_, place rest behind⟩, ?_⟩
  · rw [read, unread]
    exact history
  · rw [read, written, inFlight]
    exact split
  · rw [inFlight]
    exact chunks

theorem read_framed {stream : Bytes} {p : Pipe} {n : Nat} (framed : Framed stream p)
    (reading : p.unixToWs = .reading) (positive : 0 < n) (small : n ≤ readSize)
    (available : n ≤ p.unread.length) :
    Framed stream { p with
      unixToWs := .sending (p.unread.take n)
      unread := p.unread.drop n
      bytesRead := p.bytesRead ++ p.unread.take n } := by
  obtain ⟨history, ⟨rest, split, behind⟩, chunks⟩ := framed
  rw [reading] at behind
  have length : (p.unread.take n).length = n := by
    rw [List.length_take]
    omega
  refine ⟨?_, ⟨p.unread.take n, ?_, rfl, by omega, by omega⟩, chunks⟩
  · rw [List.append_assoc, List.take_append_drop]
    exact history
  · rw [split, show rest = [] from behind, List.append_nil]

theorem accept_framed {stream data : Bytes} {p : Pipe} (framed : Framed stream p)
    (sending : p.unixToWs = .sending data) :
    Framed stream { p with
      unixToWs := .sent data, inFlight := p.inFlight ++ [.binary data] } := by
  obtain ⟨history, ⟨rest, split, behind⟩, chunks⟩ := framed
  rw [sending] at behind
  obtain ⟨rfl, filled, small⟩ := behind
  refine ⟨history, ⟨[], ?_, rfl⟩, ?_⟩
  · simpa [payload] using split
  · intro m member
    rcases List.mem_append.mp member with old | new
    · exact chunks m old
    · exact ⟨rest, by simpa using new, filled, small⟩

theorem receive_framed {stream data : Bytes} {p : Pipe} {later : List Message}
    (framed : Framed stream p) (next : p.inFlight = .binary data :: later) :
    Framed stream { p with
      wsToUnix := .draining data, inFlight := later, written := p.written ++ data } := by
  obtain ⟨history, ⟨rest, split, behind⟩, chunks⟩ := framed
  refine ⟨history, ⟨rest, ?_, behind⟩, ?_⟩
  · simpa [next, payload] using split
  · intro m member
    exact chunks m (by simp [next, member])

theorem step_framed {stream : Bytes} {p q : Pipe} {a : Act} (framed : Framed stream p)
    (stepped : step p a = some q) : Framed stream q := by
  cases step_effect stepped with
  | read n reading kept positive small available =>
    exact read_framed framed reading positive small available
  | accept data sending => exact accept_framed framed sending
  | startSend created =>
    exact framed_of_same framed rfl rfl rfl rfl (by simp [created, Behind])
  | sendReturns data sent =>
    exact framed_of_same framed rfl rfl rfl rfl (by simp [sent, Behind])
  | dropSend => exact ended_framed framed
  | eof => exact ended_framed framed
  | readRaises => exact ended_framed framed
  | sendRaises => exact ended_framed framed
  | cancelSend => exact ended_framed framed
  | receive data rest receiving kept next => exact receive_framed framed next
  | skip content rest receiving kept next =>
    obtain ⟨data, binary, -⟩ := framed.chunks (.text content) (by simp [next])
    simp at binary
  | _ => exact framed_of_same framed rfl rfl rfl rfl (fun _ behind => behind)

theorem createSend_framed {stream : Bytes} {p : Pipe} (framed : Framed stream p) :
    Framed stream (createSend p) := by
  unfold createSend
  split
  · rename_i absent
    exact framed_of_same framed rfl rfl rfl rfl (by simp [absent, Behind])
  · exact framed

theorem createReceive_framed {stream : Bytes} {p : Pipe} (framed : Framed stream p) :
    Framed stream (createReceive p) := by
  unfold createReceive
  split
  · exact framed_of_same framed rfl rfl rfl rfl (fun _ behind => behind)
  · exact framed

theorem askSend_framed {stream : Bytes} {p : Pipe} (framed : Framed stream p) :
    Framed stream (askSend p) := by
  unfold askSend
  split
  · exact framed
  · exact framed_of_same framed rfl rfl rfl rfl (fun _ behind => behind)

theorem askReceive_framed {stream : Bytes} {p : Pipe} (framed : Framed stream p) :
    Framed stream (askReceive p) := by
  unfold askReceive
  split
  · exact framed
  · exact framed_of_same framed rfl rfl rfl rfl (fun _ behind => behind)

theorem init_framed (stream : Bytes) : Framed stream (init stream) := by
  refine ⟨rfl, ⟨[], rfl, rfl⟩, ?_⟩
  intro m member
  simp [init] at member

def BothFramed (source destination : Bytes) (s : Pipes) : Prop :=
  Framed source s.up ∧ Framed destination s.down

theorem pipes_step_framed {source destination : Bytes} {s t : Pipes} {a : PipesAct}
    (framed : BothFramed source destination s) (stepped : Pipes.step s a = some t) :
    BothFramed source destination t := by
  obtain ⟨up, down⟩ := framed
  cases a with
  | up a =>
    simp only [Pipes.step, Option.map_eq_some_iff] at stepped
    obtain ⟨p, moved, rfl⟩ := stepped
    exact ⟨step_framed up moved, down⟩
  | down a =>
    simp only [Pipes.step, Option.map_eq_some_iff] at stepped
    obtain ⟨p, moved, rfl⟩ := stepped
    exact ⟨up, step_framed down moved⟩
  | createClientTasks =>
    cases stepped
    exact ⟨createSend_framed up, createReceive_framed down⟩
  | createServerTasks =>
    cases stepped
    exact ⟨createReceive_framed up, createSend_framed down⟩
  | askUpSend =>
    cases stepped
    exact ⟨askSend_framed up, down⟩
  | askUpReceive =>
    cases stepped
    exact ⟨askReceive_framed up, down⟩
  | askDownSend =>
    cases stepped
    exact ⟨up, askSend_framed down⟩
  | askDownReceive =>
    cases stepped
    exact ⟨up, askReceive_framed down⟩

def NothingReordered (stream : Bytes) (p : Pipe) : Prop :=
  p.bytesRead <+: stream ∧
    (∃ missing, p.bytesRead = p.written ++ payloads p.inFlight ++ missing ∧
      missing.length ≤ readSize) ∧
    ∀ m ∈ p.inFlight, IsChunk m

theorem framed_ordered {stream : Bytes} {p : Pipe} (framed : Framed stream p) :
    NothingReordered stream p := by
  obtain ⟨history, ⟨rest, split, behind⟩, chunks⟩ := framed
  exact ⟨⟨p.unread, history⟩, ⟨rest, split, behind_length behind⟩, chunks⟩

theorem run_framed {source destination : Bytes} {acts : List PipesAct} {s : Pipes}
    (reached : Runs.run Pipes.step (.init source destination) acts = some s) :
    BothFramed source destination s :=
  Runs.invariant_run (BothFramed source destination)
    (fun _ _ _ framed stepped => pipes_step_framed framed stepped)
    ⟨init_framed source, init_framed destination⟩ reached

theorem tunnel_safe {source destination : Bytes} {acts : List PipesAct} {s : Pipes}
    (reached : Runs.run Pipes.step (.init source destination) acts = some s) :
    NothingReordered source s.up ∧ NothingReordered destination s.down := by
  have framed := run_framed reached
  exact ⟨framed_ordered framed.1, framed_ordered framed.2⟩

/-- The second of two messages is cancelled inside `send` while the first is in `drain`. -/
def cancelledBetween : List PipesAct :=
  [.createClientTasks, .createServerTasks, .up .startSend, .up (.read 1), .up .accept,
    .up .sendReturns, .up .startReceive, .up .receive, .up (.read 1), .askUpSend, .up .cancelSend]

theorem tunnel_safe_cancelled : ∃ s,
    Runs.run Pipes.step (.init [1, 2, 3] []) cancelledBetween = some s ∧
      s.up.written = [1] ∧ s.up.bytesRead = [1, 2] ∧
      NothingReordered [1, 2, 3] s.up ∧ NothingReordered [] s.down := by
  obtain ⟨s, reached, written, read⟩ : ∃ s,
      Runs.run Pipes.step (.init [1, 2, 3] []) cancelledBetween = some s ∧
        s.up.written = [1] ∧ s.up.bytesRead = [1, 2] :=
    Runs.reaches (by decide)
  exact ⟨s, reached, written, read, tunnel_safe reached⟩

end TunnelSafety
