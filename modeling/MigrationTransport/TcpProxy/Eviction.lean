import MigrationTransport.TcpProxy.Lossless

/-!
What the bounded queue of `forward_data` costs. A `put` that finds 1000 chunks drops
the oldest one, so a run without cancellation and without exceptions forwards the whole
stream exactly when every `put` had room.
-/
namespace Eviction
open ByteStream ForwardData Lossless

def held (f : Forward) : Nat :=
  f.written.length + (writeInHand f.writeTask).length + (upstream f).length

/-- What stays true of an uncancelled call even where the queue evicts. Chunks are
    non-empty, so an eviction always costs bytes. -/
structure Uncut (stream : Bytes) (f : Forward) : Prop where
  life : Lifecycle f
  calm : ¬ Asked f
  history : f.bytesRead ++ f.unread = stream
  closed : f.queue.closed = true → f.readTask = .finished
  readEnd : f.readTask = .closing ∨ f.readTask = .finished → f.unread = []
  inHand : ∀ data, f.readTask = .putting data → data ≠ []
  chunks : ∀ chunk ∈ f.queue.items, chunk ≠ []

theorem init_uncut (stream : Bytes) : Uncut stream (init stream) := by
  refine ⟨init_lifecycle stream, ?_, ?_, ?_, ?_, ?_, ?_⟩ <;>
    simp [init, create, absent, Asked]

theorem init_held (stream : Bytes) : held (init stream) = stream.length := by
  simp [init, create, absent, held, upstream, readInHand, writeInHand]

theorem queue_full {f : Forward} (crowded : ¬ f.queue.items.length < queueSize) :
    ∃ oldest rest, f.queue.items = oldest :: rest ∧ f.queue.items.length = queueSize := by
  have bounded : f.queue.items.length ≤ queueSize := f.queue.queue.bounded
  cases content : f.queue.items with
  | nil =>
    rw [content] at crowded
    exact absurd (by decide) crowded
  | cons oldest rest =>
    rw [content] at crowded bounded
    exact ⟨oldest, rest, rfl, by omega⟩

/-- With room nothing is lost; without it exactly the oldest chunk is. -/
theorem put_held {f : Forward} {data : Bytes} {stream : Bytes} (uncut : Uncut stream f)
    (inHand : f.readTask = .putting data) :
    (queued (f.queue.put data)).length ≤ (queued f.queue).length + data.length ∧
      (¬ f.queue.items.length < queueSize →
        (queued (f.queue.put data)).length < (queued f.queue).length + data.length) := by
  have opened : f.queue.closed = false := by
    by_contra shut
    simp [uncut.closed (by simpa using shut)] at inHand
  by_cases room : f.queue.items.length < queueSize
  · simp [queued_put opened room, room]
  · obtain ⟨oldest, rest, content, full⟩ := queue_full room
    have evicted := CircularQueue.put_when_full opened content full data
    have nonempty : 0 < oldest.length :=
      List.length_pos_iff.mpr (uncut.chunks oldest (by simp [content]))
    have shorter : (queued (f.queue.put data)).length < (queued f.queue).length + data.length := by
      simp only [queued, evicted, content, List.flatten_cons, List.flatten_append,
        List.flatten_nil, List.append_nil, List.length_append]
      omega
    exact ⟨Nat.le_of_lt shorter, fun _ => shorter⟩

theorem put_chunks {f : Forward} {data : Bytes} {stream : Bytes} (uncut : Uncut stream f)
    (inHand : f.readTask = .putting data) : ∀ chunk ∈ (f.queue.put data).items, chunk ≠ [] := by
  have opened : f.queue.closed = false := by
    by_contra shut
    simp [uncut.closed (by simpa using shut)] at inHand
  have nonempty := uncut.inHand data inHand
  intro chunk member
  by_cases room : f.queue.items.length < queueSize
  · rw [CircularQueue.put_with_room opened room, List.mem_append, List.mem_singleton] at member
    rcases member with old | same
    · exact uncut.chunks chunk old
    · exact same ▸ nonempty
  · obtain ⟨oldest, rest, content, full⟩ := queue_full room
    rw [CircularQueue.put_when_full opened content full, List.mem_append,
      List.mem_singleton] at member
    rcases member with old | same
    · exact uncut.chunks chunk (by simp [content, old])
    · exact same ▸ nonempty

theorem step_uncut {stream : Bytes} {f g : Forward} {a : Act} (uncut : Uncut stream f)
    (fine : faultless a = true) (stepped : step f a = some g) : Uncut stream g := by
  have lifeAfter := step_lifecycle uncut.life stepped
  have openUntil : f.readTask ≠ .finished → f.queue.closed = true → False :=
    fun running shut => running (uncut.closed shut)
  obtain ⟨life, calm, history, closed, readEnd, inHand, chunks⟩ := uncut
  cases step_effect stepped with
  | readRaises => simp [faultless] at fine
  | writeRaises => simp [faultless] at fine
  | dropped created wanted => exact absurd (.inl wanted) calm
  | cancelReading wanted => exact absurd (.inr (.inl wanted)) calm
  | cancelRead wanted => exact absurd (.inr (.inl wanted)) calm
  | cancelWrite wanted => exact absurd (.inr (.inr wanted)) calm
  | start created =>
    have absent := (life.idle (.inr created)).1
    exact ⟨lifeAfter, calm, history, fun shut => (openUntil (by simp [absent]) shut).elim,
      by simp, by simp, chunks⟩
  | startRead created =>
    exact ⟨lifeAfter, calm, history, fun shut => (openUntil (by simp [created]) shut).elim,
      by simp, by simp, chunks⟩
  | read n reading kept positive small available =>
    refine ⟨lifeAfter, calm, ?_, fun shut => (openUntil (by simp [reading]) shut).elim,
      by simp, ?_, chunks⟩
    · rw [List.append_assoc, List.take_append_drop]
      exact history
    · intro data same
      rw [ReadPc.putting.injEq] at same
      rw [← same, ← List.length_pos_iff, List.length_take]
      omega
  | eof reading kept ended =>
    exact ⟨lifeAfter, calm, history, fun shut => (openUntil (by simp [reading]) shut).elim,
      fun _ => ended, by simp, chunks⟩
  | put data putting =>
    refine ⟨lifeAfter, calm, history, ?_, by simp, by simp, ?_⟩
    · rw [CircularQueue.put_closed]
      exact fun shut => (openUntil (by simp [putting]) shut).elim
    · exact put_chunks ⟨life, calm, history, closed, readEnd, inHand, chunks⟩ putting
  | close closing =>
    exact ⟨lifeAfter, calm, history, fun _ => rfl, fun _ => readEnd (.inl closing), by simp,
      chunks⟩
  | getItem data rest getting kept got =>
    obtain ⟨content, sameFlag⟩ := CircularQueue.get_item got
    refine ⟨lifeAfter, calm, history, by simpa [sameFlag] using closed, readEnd, inHand, ?_⟩
    intro chunk member
    exact chunks chunk (by simp [content, member])
  | _ => exact ⟨lifeAfter, calm, history, closed, readEnd, inHand, chunks⟩

/-- No step makes `held` grow, and a `put` on a full queue makes it shrink. -/
theorem step_held {stream : Bytes} {f g : Forward} {a : Act} (uncut : Uncut stream f)
    (fine : faultless a = true) (stepped : step f a = some g) :
    held g ≤ held f ∧ (¬ PutHasRoom f a → held g < held f) := by
  have roomUnless : a ≠ .put → PutHasRoom f a := fun other put => absurd put other
  have calm := uncut.calm
  cases step_effect stepped with
  | put data putting =>
    obtain ⟨never, shrinks⟩ := put_held uncut putting
    simp only [held, upstream, readInHand, putting, writeInHand_notify, List.length_append,
      List.length_nil]
    refine ⟨by omega, fun crowded => ?_⟩
    have loss := shrinks fun room => crowded fun _ => room
    omega
  | readRaises => simp [faultless] at fine
  | writeRaises => simp [faultless] at fine
  | dropped created wanted => exact absurd (.inl wanted) calm
  | cancelReading wanted => exact absurd (.inr (.inl wanted)) calm
  | cancelRead wanted => exact absurd (.inr (.inl wanted)) calm
  | cancelWrite wanted => exact absurd (.inr (.inr wanted)) calm
  | start created =>
    obtain ⟨noRead, noWrite⟩ := uncut.life.idle (.inr created)
    refine ⟨?_, fun crowded => absurd (roomUnless (by simp)) crowded⟩
    simp [held, upstream, readInHand, writeInHand, noRead, noWrite]
  | startRead here | eof here | close here =>
    refine ⟨?_, fun crowded => absurd (roomUnless (by simp)) crowded⟩
    simp [held, upstream, readInHand, here]
  | startWrite here | getWaits here | getNone here | write _ here =>
    refine ⟨?_, fun crowded => absurd (roomUnless (by simp)) crowded⟩
    simp [held, upstream, writeInHand, here]
  | read n reading =>
    refine ⟨?_, fun crowded => absurd (roomUnless (by simp)) crowded⟩
    simp only [held, upstream, readInHand, reading, List.length_append, List.length_take,
      List.length_drop, List.length_nil]
    omega
  | getItem data rest getting kept got =>
    refine ⟨?_, fun crowded => absurd (roomUnless (by simp)) crowded⟩
    simp only [held, upstream, writeInHand, getting, queued_get got, List.length_append,
      List.length_nil]
    omega
  | gathered => exact ⟨Nat.le_refl _, fun crowded => absurd (roomUnless (by simp)) crowded⟩

theorem evicted_run_loses {stream : Bytes} {f : Forward} {acts : List Act}
    (fine : ∀ a ∈ acts, faultless a = true) (reached : Runs.run step (init stream) acts = some f)
    (crowded : ¬ Runs.Along step PutHasRoom (init stream) acts) :
    Uncut stream f ∧ f.written.length < stream.length := by
  obtain ⟨uncut, loss⟩ : Uncut stream f ∧ held f < stream.length := by
    refine Runs.breach_leads (fun f => Uncut stream f ∧ held f ≤ stream.length)
      (fun f => Uncut stream f ∧ held f < stream.length) (fun _ a => faultless a = true)
      ?_ ?_ ?_ ⟨init_uncut stream, Nat.le_of_eq (init_held stream)⟩
      (Runs.along_of_actions _ fine) reached crowded
    · rintro f a g ⟨uncut, most⟩ fine _ stepped
      exact ⟨step_uncut uncut fine stepped, (step_held uncut fine stepped).1.trans most⟩
    · rintro f a g ⟨uncut, most⟩ fine breach stepped
      exact ⟨step_uncut uncut fine stepped,
        ((step_held uncut fine stepped).2 breach).trans_le most⟩
    · rintro f a g ⟨uncut, less⟩ fine stepped
      exact ⟨step_uncut uncut fine stepped, (step_held uncut fine stepped).1.trans_lt less⟩
  refine ⟨uncut, ?_⟩
  have partOfHeld : f.written.length ≤ held f := by
    simp only [held]
    omega
  exact partOfHeld.trans_lt loss

/-- Without cancellation and without exceptions nothing is lost, repeated or reordered
    exactly as long as no `put` finds the queue full. -/
theorem forward_data_lossless {stream : Bytes} {f : Forward} {acts : List Act}
    (fine : ∀ a ∈ acts, faultless a = true)
    (reached : Runs.run step (init stream) acts = some f) :
    (Runs.Along step PutHasRoom (init stream) acts → f.written <+: f.bytesRead) ∧
      (f.readTask = .finished → f.writeTask = .finished → f.bytesRead = stream ∧
        ((f.written = f.bytesRead ∧ f.totalBytes = f.bytesRead.length) ↔
          Runs.Along step PutHasRoom (init stream) acts)) := by
  refine ⟨fun room => intact_prefix (roomy_run_intact fine reached room), ?_⟩
  intro readDone writeDone
  by_cases room : Runs.Along step PutHasRoom (init stream) acts
  · have intact := roomy_run_intact fine reached room
    obtain ⟨allRead, allWritten⟩ := intact_finished intact readDone writeDone
    refine ⟨allRead, fun _ => room, fun _ => ⟨allWritten.trans allRead.symm, ?_⟩⟩
    rw [intact.count, allWritten, allRead]
  · obtain ⟨uncut, loss⟩ := evicted_run_loses fine reached room
    have history := uncut.history
    rw [uncut.readEnd (.inr readDone), List.append_nil] at history
    refine ⟨history, fun both => ?_, fun along => absurd along room⟩
    rw [both.1, history] at loss
    exact absurd loss (Nat.lt_irrefl _)

def oneByteActs : List Act :=
  [.start, .startRead, .startWrite, .get, .read 1, .put, .get, .write, .get, .eof, .close, .get]

theorem forward_data_lossless_one_byte : ∃ f, Runs.run step (init [7]) oneByteActs = some f ∧
    f.bytesRead = [7] ∧ f.written = f.bytesRead ∧ f.totalBytes = f.bytesRead.length := by
  refine ⟨_, rfl, ?_⟩
  have fine : ∀ a ∈ oneByteActs, faultless a = true := by decide
  have reached : Runs.run step (init [7]) oneByteActs = some _ := rfl
  have complete := (forward_data_lossless fine reached).2 rfl rfl
  exact ⟨complete.1, complete.2.mpr (by decide)⟩

/- A reader that runs ahead one byte at a time while `write_task` has not started. -/
structure ReaderAhead (f : Forward) (read kept later : Bytes) : Prop where
  task : f.readTask = .reading
  going : f.readCancelled = false
  history : f.bytesRead = read
  queue : f.queue.items = kept.map fun b => [b]
  opened : f.queue.closed = false
  unread : f.unread = later
  writer : f.writeTask = .created ∧ f.writeCancelled = false
  nothing : f.written = []

theorem ahead_by_one {f : Forward} {read kept later : Bytes} {b : UInt8}
    (ahead : ReaderAhead f read kept (b :: later)) :
    ∃ g, Runs.run step f [.read 1, .put] = some g ∧
      ReaderAhead g (read ++ [b]) ((kept ++ [b]).drop (kept.length + 1 - queueSize)) later := by
  obtain ⟨task, going, history, queue, opened, unread, writer, nothing⟩ := ahead
  refine ⟨{ f with
    queue := f.queue.put [b], bytesRead := f.bytesRead ++ [b], unread := later }, ?_, ?_⟩
  · simp [step, task, going, unread, writer, notify, readSize]
  · constructor <;> simp_all [CircularQueue.put, CircularQueue.items, BoundedDeque.append]

/-- A reader that gets ahead keeps only the last 1000 chunks for the writer. -/
theorem ahead_by_all {f : Forward} {read kept bytes : Bytes} (small : kept.length ≤ queueSize)
    (ahead : ReaderAhead f read kept bytes) :
    ∃ g, Runs.run step f (bytes.flatMap fun _ => [.read 1, .put]) = some g ∧
      ReaderAhead g (read ++ bytes)
        ((kept ++ bytes).drop (kept.length + bytes.length - queueSize)) [] := by
  induction bytes generalizing f read kept with
  | nil =>
    have keepAll : kept.length - queueSize = 0 := by omega
    exact ⟨f, rfl, by simpa [keepAll] using ahead⟩
  | cons b later ih =>
    obtain ⟨t, first, next⟩ := ahead_by_one ahead
    have lengthNext : ((kept ++ [b]).drop (kept.length + 1 - queueSize)).length =
        kept.length + 1 - (kept.length + 1 - queueSize) := by simp
    obtain ⟨g, rest, final⟩ := ih (by omega) next
    refine ⟨g, Runs.run_append.mpr ⟨t, first, rest⟩, ?_⟩
    have keptSame : ((kept ++ [b]).drop (kept.length + 1 - queueSize) ++ later).drop
        (((kept ++ [b]).drop (kept.length + 1 - queueSize)).length + later.length - queueSize) =
        (kept ++ b :: later).drop (kept.length + (b :: later).length - queueSize) := by
      have inside : kept.length + 1 - queueSize ≤ (kept ++ [b]).length := by simp
      have sameList : kept ++ [b] ++ later = kept ++ b :: later := by simp
      have sameCount : kept.length + 1 - queueSize +
          (kept.length + 1 - (kept.length + 1 - queueSize) + later.length - queueSize) =
          kept.length + (b :: later).length - queueSize := by
        simp only [List.length_cons]
        omega
      rw [← List.drop_append_of_le_length inside, List.drop_drop, lengthNext, sameList, sameCount]
    rw [keptSame] at final
    simpa using final

/-- A writer left alone with a closed queue writes all of it and finishes. -/
theorem writer_drains {f : Forward} {chunks : List Bytes} (queue : f.queue.items = chunks)
    (shut : f.queue.closed = true) (task : f.writeTask = .getting)
    (going : f.writeCancelled = false) :
    ∃ g, Runs.run step f ((chunks.flatMap fun _ => [.get, .write]) ++ [.get]) = some g ∧
      g.writeTask = .finished ∧ g.readTask = f.readTask ∧ g.bytesRead = f.bytesRead ∧
      g.written = f.written ++ chunks.flatten := by
  induction chunks generalizing f with
  | nil =>
    have ended : f.queue.get = .none := CircularQueue.get_none.mpr ⟨queue, shut⟩
    exact ⟨{ f with writeTask := .finished }, by simp [step, task, going, ended]⟩
  | cons chunk chunks ih =>
    cases got : f.queue.get with
    | wait => exact absurd (CircularQueue.get_wait.mp got).1 (by simp [queue])
    | none => exact absurd (CircularQueue.get_none.mp got).1 (by simp [queue])
    | item data rest =>
      obtain ⟨content, sameFlag⟩ := CircularQueue.get_item got
      rw [queue, List.cons.injEq] at content
      obtain ⟨rfl, content⟩ := content
      let wrote : Forward :=
        { f with
          queue := rest
          written := f.written ++ chunk
          totalBytes := f.totalBytes + chunk.length
          progress := logProgress f.progress (f.totalBytes + chunk.length) }
      have first : Runs.run step f [.get, .write] = some wrote := by
        simp [step, task, going, got, wrote]
      have shutStill : wrote.queue.closed = true := sameFlag.trans shut
      obtain ⟨g, later, done, reader, history, output⟩ := ih content.symm shutStill task going
      refine ⟨g, ?_, done, reader, history, by simpa [wrote] using output⟩
      rw [List.flatMap_cons, List.append_assoc]
      exact Runs.run_append.mpr ⟨wrote, first, later⟩

def overrunActs (stream : Bytes) : List Act :=
  [.start, .startRead] ++ (stream.flatMap fun _ => [Act.read 1, Act.put]) ++
    [.eof, .close, .startWrite] ++
    ((stream.drop (stream.length - queueSize)).flatMap fun _ => [Act.get, Act.write]) ++ [.get]

theorem overrun_plain (stream : Bytes) : ∀ a ∈ overrunActs stream,
    faultless a = true ∧ a ≠ .cancelRead ∧ a ≠ .cancelWrite := by
  intro a member
  simp only [overrunActs, List.mem_append, List.mem_flatMap, List.mem_cons, List.not_mem_nil,
    or_false] at member
  rcases member with
    ((((rfl | rfl) | ⟨_, _, rfl | rfl⟩) | rfl | rfl | rfl) | ⟨_, _, rfl | rfl⟩) | rfl <;>
      simp [faultless]

/-- A reader that is done before the writer starts leaves only the last 1000 bytes of a
    stream that arrives byte by byte. -/
theorem overrun_keeps_last (stream : Bytes) :
    ∃ f, Runs.run step (init stream) (overrunActs stream) = some f ∧
      f.readTask = .finished ∧ f.writeTask = .finished ∧ f.bytesRead = stream ∧
      f.written = stream.drop (stream.length - queueSize) := by
  let started : Forward :=
    { init stream with task := .gathering, readTask := .reading, writeTask := .created }
  have begin : Runs.run step (init stream) [.start, .startRead] = some started := by
    simp [step, init, create, absent, started]
  have aheadStart : ReaderAhead started [] [] stream := by
    constructor <;> simp [started, init, create, absent]
  obtain ⟨f, filling, ahead⟩ := ahead_by_all (by simp) aheadStart
  obtain ⟨task, going, history, queue, opened, unread, writer, nothing⟩ := ahead
  simp only [List.nil_append, List.length_nil, Nat.zero_add] at history queue
  let ended : Forward :=
    { f with readTask := .finished, queue := f.queue.close, writeTask := .getting }
  have closing : Runs.run step f [.eof, .close, .startWrite] = some ended := by
    simp [step, task, going, unread, writer, notify, ended]
  obtain ⟨g, draining, done, reader, read, output⟩ :=
    writer_drains (f := ended) queue rfl rfl writer.2
  have chunks : ∀ bytes : Bytes, (bytes.map fun b => [b]).flatten = bytes := by
    intro bytes
    induction bytes with
    | nil => rfl
    | cons b bytes ih => simp [ih]
  refine ⟨g, ?_, reader, done, by simp [read, ended, history], ?_⟩
  · simp only [overrunActs, List.append_assoc]
    refine Runs.run_append.mpr ⟨started, begin, Runs.run_append.mpr ⟨f, filling, ?_⟩⟩
    refine Runs.run_append.mpr ⟨ended, closing, ?_⟩
    rw [List.flatMap_map] at draining
    exact draining
  · rw [chunks] at output
    simpa [ended, nothing] using output

/-- One byte more than the queue has slots: the first byte is read and never written. -/
def overrunStream : Bytes := 0 :: List.replicate queueSize 1

theorem overrun_loses_first_byte :
    ∃ f, Runs.run step (init overrunStream) (overrunActs overrunStream) = some f ∧
      (∀ a ∈ overrunActs overrunStream, faultless a = true) ∧
      f.readTask = .finished ∧ f.writeTask = .finished ∧
      ¬ f.written <+: f.bytesRead ∧ f.written ≠ f.bytesRead := by
  obtain ⟨f, reached, readDone, writeDone, history, output⟩ := overrun_keeps_last overrunStream
  have kept : f.written = List.replicate queueSize 1 := by
    simpa [overrunStream] using output
  refine ⟨f, reached, fun a member => (overrun_plain _ a member).1, readDone, writeDone, ?_, ?_⟩
  · rw [history, kept]
    exact fun isPrefix => absurd isPrefix (by decide)
  · intro same
    have lengths := congrArg List.length (kept.symm.trans (same.trans history))
    simp [overrunStream] at lengths

end Eviction
