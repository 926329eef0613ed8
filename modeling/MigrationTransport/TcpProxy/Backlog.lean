import MigrationTransport.TcpProxy.Destination

/-!
How much the proxy holds of what it has read. The queue is capped at 1000 chunks, but
`write_task` empties it into the transport as fast as it can, and nothing waits for the
transport: the backlog is bounded exactly as far as the destination keeps up.
-/
namespace Backlog
open ByteStream ForwardData Lossless Chunks Destination

/-- Read from the source and still held: queue content and unsent transport buffer. -/
def inTransit (s : Sink) : Nat := (queued s.forward.queue).length + s.sendBuffer.length

/-- The transport holds at most `b` bytes whenever something is written to it. -/
def KeptUp (b : Nat) (s : Sink) (act : Destination.Act) : Prop :=
  act = .forward .write → s.sendBuffer.length ≤ b

instance (b : Nat) (s : Sink) (act : Destination.Act) : Decidable (KeptUp b s act) := by
  unfold KeptUp
  infer_instance

theorem flatten_bound {chunks : List Bytes} (sized : ∀ data ∈ chunks, Sized data) :
    chunks.flatten.length ≤ chunks.length * readSize := by
  induction chunks with
  | nil => simp
  | cons data chunks ih =>
    have here := (sized data (by simp)).2
    have later := ih fun other member => sized other (by simp [member])
    rw [List.flatten_cons, List.length_append, List.length_cons, Nat.succ_mul]
    omega

theorem queue_bound {f : Forward} (chunked : Chunked f) :
    (queued f.queue).length ≤ queueSize * readSize := by
  have bounded : f.queue.items.length ≤ queueSize := f.queue.queue.bounded
  exact (flatten_bound chunked.queued).trans (Nat.mul_le_mul_right readSize bounded)

theorem writing_bound {f g : Forward} (chunked : Chunked f)
    (stepped : ForwardData.step f .write = some g) :
    (writeInHand f.writeTask).length ≤ readSize := by
  cases ForwardData.step_effect stepped with
  | write data writing =>
    rw [writing]
    exact (chunked.writing data writing).2

theorem step_buffer {b : Nat} {s t : Sink} {act : Destination.Act} (chunked : Chunked s.forward)
    (most : s.sendBuffer.length ≤ b + readSize) (kept : KeptUp b s act)
    (stepped : Destination.step s act = some t) : t.sendBuffer.length ≤ b + readSize := by
  cases Destination.step_effect stepped with
  | sent g moved up =>
    have before := kept rfl
    have added := writing_bound chunked moved
    rw [List.length_append]
    omega
  | take n up held =>
    rw [List.length_drop]
    omega
  | lose up => exact Nat.zero_le _
  | _ => exact most

theorem kept_up_bound {b : Nat} {stream : Bytes} {acts : List Destination.Act} {s : Sink}
    (kept : Runs.Along Destination.step (KeptUp b) (Destination.init stream) acts)
    (reached : Runs.run Destination.step (Destination.init stream) acts = some s) :
    inTransit s ≤ queueSize * readSize + (b + readSize) := by
  have both : Chunked s.forward ∧ s.sendBuffer.length ≤ b + readSize := by
    apply Runs.invariant_along
      (fun s => Chunked s.forward ∧ s.sendBuffer.length ≤ b + readSize) _ _ kept reached
    · rintro s act t ⟨chunked, most⟩ kept stepped
      exact ⟨step_sized chunked stepped, step_buffer chunked most kept stepped⟩
    · exact ⟨init_chunked stream, Nat.zero_le _⟩
  exact Nat.add_le_add (queue_bound both.1) both.2

/-- For any kind of runs the backlog has one bound in all their states exactly if the
    unsent buffer has one bound at all their writes. -/
theorem transit_bounded_iff (allowed : Bytes → List Destination.Act → Prop) :
    (∃ k, ∀ stream acts, allowed stream acts → ∀ earlier later s, acts = earlier ++ later →
      Runs.run Destination.step (Destination.init stream) earlier = some s → inTransit s ≤ k) ↔
    ∃ b, ∀ stream acts, allowed stream acts →
      Runs.Along Destination.step (KeptUp b) (Destination.init stream) acts := by
  constructor
  · rintro ⟨k, bounded⟩
    refine ⟨k, fun stream acts fits => Runs.along_iff.mpr ?_⟩
    intro earlier act later s parts reached _
    have most := bounded stream acts fits earlier (act :: later) s parts reached
    exact (Nat.le_add_left _ _).trans most
  · rintro ⟨b, kept⟩
    refine ⟨queueSize * readSize + (b + readSize), ?_⟩
    intro stream acts fits earlier later s parts reached
    apply kept_up_bound _ reached
    apply Runs.along_iff.mpr
    intro first act rest t before reachedFirst
    apply Runs.along_iff.mp (kept stream acts fits) first act (rest ++ later) t _ reachedFirst
    rw [parts, before, List.append_assoc, List.cons_append]

structure Ready (f : Forward) (unread : Bytes) : Prop where
  reader : f.readTask = .reading
  writer : f.writeTask = .getting
  going : f.readCancelled = false ∧ f.writeCancelled = false
  emptied : f.queue.items = []
  opened : f.queue.closed = false
  unread : f.unread = unread

/-- One byte goes through the queue into the buffer. -/
def pass : List Destination.Act :=
  [.forward (.read 1), .forward .put, .forward .get, .forward .write]

theorem put_then_get {q : CircularQueue Bytes queueSize} (emptied : q.items = [])
    (opened : q.closed = false) (data : Bytes) :
    ∃ rest, (q.put data).get = .item data rest ∧ rest.items = [] ∧ rest.closed = false := by
  have room : q.items.length < queueSize := by
    rw [emptied]
    decide
  have content : (q.put data).items = [data] := by
    rw [CircularQueue.put_with_room opened room, emptied]
    rfl
  cases got : (q.put data).get with
  | wait => exact absurd (CircularQueue.get_wait.mp got).1 (by simp [content])
  | none => exact absurd (CircularQueue.get_none.mp got).1 (by simp [content])
  | item first rest =>
    obtain ⟨parts, flag⟩ := CircularQueue.get_item got
    rw [content, List.cons.injEq] at parts
    obtain ⟨rfl, emptied⟩ := parts
    exact ⟨rest, rfl, emptied.symm, by simpa [opened] using flag⟩

theorem one_passes {s : Sink} {b : UInt8} {later : Bytes} (up : s.lostAt = none)
    (ready : Ready s.forward (b :: later)) :
    ∃ t, Runs.run Destination.step s pass = some t ∧ t.lostAt = none ∧
      Ready t.forward later ∧ t.sendBuffer = s.sendBuffer ++ [b] := by
  obtain ⟨reader, writer, ⟨readGoing, writeGoing⟩, emptied, opened, unread⟩ := ready
  obtain ⟨rest, got, restEmpty, restOpen⟩ := put_then_get emptied opened [b]
  let passed : Forward :=
    { s.forward with
      unread := later
      bytesRead := s.forward.bytesRead ++ [b]
      queue := rest
      written := s.forward.written ++ [b]
      totalBytes := s.forward.totalBytes + 1
      progress := logProgress s.forward.progress (s.forward.totalBytes + 1) }
  refine ⟨{ s with forward := passed, sendBuffer := s.sendBuffer ++ [b] }, ?_, up, ?_, rfl⟩
  · simp [pass, Destination.step, ForwardData.step, transmit, writeInHand, notify, readSize,
      passed, up, reader, writer, readGoing, writeGoing, unread, got]
  · exact ⟨reader, writer, ⟨readGoing, writeGoing⟩, restEmpty, restOpen, rfl⟩

/-- A destination that takes nothing leaves the whole stream in the buffer. -/
theorem all_pass {s : Sink} {bytes : Bytes} (up : s.lostAt = none)
    (ready : Ready s.forward bytes) :
    ∃ t, Runs.run Destination.step s (bytes.flatMap fun _ => pass) = some t ∧
      t.sendBuffer = s.sendBuffer ++ bytes := by
  induction bytes generalizing s with
  | nil => exact ⟨s, rfl, by simp⟩
  | cons b later ih =>
    obtain ⟨t, first, stillUp, next, grown⟩ := one_passes up ready
    obtain ⟨u, rest, whole⟩ := ih stillUp next
    refine ⟨u, ?_, by simp [whole, grown]⟩
    rw [List.flatMap_cons]
    exact Runs.run_append.mpr ⟨t, first, rest⟩

def beginning : List Destination.Act :=
  [.forward .start, .forward .startRead, .forward .startWrite]

theorem transit_unbounded : ¬ ∃ k, ∀ (stream : Bytes) (acts : List Destination.Act) (s : Sink),
    Runs.run Destination.step (Destination.init stream) acts = some s → inTransit s ≤ k := by
  rintro ⟨k, bounded⟩
  let stream : Bytes := List.replicate (k + 1) 0
  obtain ⟨s, begun, up, emptyBuffer, ready⟩ : ∃ s,
      Runs.run Destination.step (Destination.init stream) beginning = some s ∧
        s.lostAt = none ∧ s.sendBuffer = [] ∧ Ready s.forward stream := by
    refine ⟨_, rfl, rfl, rfl, ?_⟩
    constructor <;> simp [Destination.init, ForwardData.init, create, absent, transmit]
  obtain ⟨t, passed, content⟩ := all_pass up ready
  have most := bounded stream _ t (Runs.run_append.mpr ⟨s, begun, passed⟩)
  have held : k + 1 ≤ inTransit t := by
    rw [inTransit, content, emptyBuffer, List.nil_append, List.length_replicate]
    exact Nat.le_add_left _ _
  omega

end Backlog
