import MigrationTransport.TcpProxy.Lossless
import MigrationTransport.TcpProxy.TurnTaking

/-!
The event loop runs `forward_data` as one of its interleavings, and as one in which every
`put` has room: nothing is lost as long as the reader's buffer holds no more chunks than
the queue.
-/
namespace Scheduling
open ByteStream EventLoop TurnTaking Lossless
open ForwardData (Forward queueSize)

def readView : ReadPc → ForwardData.ReadPc
  | .created => .created
  | .atRead | .awaitingData | .releasingPut => .reading
  | .acquiringPut data | .blockedPut data | .appending data => .putting data
  | .acquiringClose | .blockedClose | .markingClosed => .closing
  | .releasingClose | .finished => .finished

def writeView (condWaiter : Bool) : WritePc → ForwardData.WritePc
  | .created => .created
  | .acquiringGet | .blockedGet | .testing => .getting
  | .waiting => if condWaiter then .parked else .getting
  | .releasingGet (some data) | .writing data => .writing data
  | .releasingGet none | .finished => .finished

/-- The `forward_data` call that the loop is running, if `future` is still to arrive. -/
def view (s : Loop) (future : Bytes) : Forward where
  task := .gathering
  readTask := readView s.readTask
  writeTask := writeView s.condWaiter s.writeTask
  cancelled := false
  readCancelled := false
  writeCancelled := false
  unread := s.buffer ++ future
  bytesRead := s.bytesRead
  queue := s.queue
  written := s.written
  totalBytes := s.totalBytes
  progress := s.progress

def Roomy (f : Forward) (a : ForwardData.Act) : Prop :=
  faultless a = true ∧ PutHasRoom f a

/-- `t` is what the call has become after one of its actions, or after none. -/
def Follows (f g : Forward) : Prop :=
  g = f ∨ ∃ a, Roomy f a ∧ ForwardData.step f a = some g

def Fed (s : Loop) : Prop :=
  s.readTask = .awaitingData → s.readerWaiter = false → s.buffer ≠ [] ∨ s.eof = true

theorem view_release {s : Loop} (free : s.lockWaiters = []) (future : Bytes) :
    view (release s) future = view s future := by
  rw [release_unwaited free]
  rfl

theorem view_notify {s : Loop} (waits : s.condWaiter = true → s.writeTask = .waiting)
    (future : Bytes) : view (notify s) future =
      { view s future with writeTask := ForwardData.notify (view s future).writeTask } := by
  unfold notify
  split
  · rename_i parked
    simp [view, waits parked, parked, writeView, ForwardData.notify]
  · rename_i unparked
    cases pc : s.writeTask with
    | releasingGet got => cases got <;> simp [view, pc, writeView, ForwardData.notify]
    | _ => simp [view, pc, unparked, writeView, ForwardData.notify]

theorem roomy_of_ne {f : Forward} {a : ForwardData.Act} (fine : faultless a = true)
    (other : a ≠ .put) : Roomy f a :=
  ⟨fine, fun put => absurd put other⟩

theorem takeChunk_follows {s : Loop} {future : Bytes} (reading : readView s.readTask = .reading)
    (fed : s.buffer ≠ [] ∨ s.eof = true) (ended : s.eof = true → future = []) :
    Follows (view s future) (view (takeChunk s) future) := by
  unfold takeChunk
  split
  · rename_i nothing
    have empty : s.buffer = [] := by simpa [readSize] using nothing
    have last : future = [] := ended (fed.resolve_left (by simp [empty]))
    refine .inr ⟨.eof, roomy_of_ne rfl (by simp), ?_⟩
    rw [ForwardData.step, if_pos ⟨reading, rfl, by simp [view, empty, last]⟩]
    rfl
  · rename_i something
    have cut : s.buffer ++ future =
        s.buffer.take readSize ++ (s.buffer.drop readSize ++ future) := by
      rw [← List.append_assoc, List.take_append_drop]
    have available : (s.buffer.take readSize).length ≤ (s.buffer ++ future).length := by
      rw [cut, List.length_append]
      omega
    refine .inr ⟨.read (s.buffer.take readSize).length, roomy_of_ne rfl (by simp), ?_⟩
    rw [ForwardData.step, if_pos ⟨reading, rfl, List.length_pos_iff.mpr something,
      List.length_take_le _ _, available⟩]
    simp only [view, cut, List.take_left, List.drop_left, readView]

theorem readStep_follows {limit : Nat} {s : Loop} {future : Bytes} (inv : Inv limit s) (fed : Fed s)
    (busy : s.running = some .read) (small : chunks limit ≤ queueSize)
    (ended : s.eof = true → future = []) :
    Follows (view s future) (view (readStep s) future) := by
  have waits : s.condWaiter = true → s.writeTask = .waiting := fun parked => (inv.parked parked).1
  have busyPc := inv.readBusy busy
  cases pc : s.readTask with
  | created =>
    refine .inr ⟨.startRead, roomy_of_ne rfl (by simp), ?_⟩
    simp [readStep, ForwardData.step, view, pc, readView]
  | atRead =>
    simp only [readStep, pc]
    split
    · exact .inl (by simp [view, pc, readView])
    · rename_i ready
      refine takeChunk_follows (by rw [pc]; rfl) ?_ ended
      by_contra neither
      exact ready (by simpa using neither)
  | awaitingData =>
    have woken : s.readerWaiter = false := by
      by_contra waiting
      exact (inv.readerWaiter (by simpa using waiting)).2 busy
    simp only [readStep, pc]
    exact takeChunk_follows (by rw [pc]; rfl) (fed pc woken) ended
  | acquiringPut data =>
    simp only [readStep, pc]
    split <;> exact .inl (by simp [view, pc, readView])
  | blockedPut data => exact absurd pc (busyPc.2.2 data)
  | appending data =>
    have opened : s.queue.closed = false := by
      by_contra shut
      rcases inv.closed (by simpa using shut) with finished | finished <;> simp [pc] at finished
    have room : s.queue.items.length < queueSize := by
      have bound := inv.bound
      simp only [busy, if_true, toCome, pc] at bound
      omega
    refine .inr ⟨.put, ⟨rfl, fun _ => room⟩, ?_⟩
    simp only [readStep, pc, opened, Bool.false_eq_true, if_false]
    rw [view_notify (by exact waits)]
    simp [ForwardData.step, view, pc, readView]
  | releasingPut =>
    simp only [readStep, pc]
    rw [view_release (by exact inv.lockWaiters)]
    exact .inl (by simp [view, pc, readView])
  | acquiringClose =>
    simp only [readStep, pc]
    split <;> exact .inl (by simp [view, pc, readView])
  | blockedClose => exact absurd pc busyPc.2.1
  | markingClosed =>
    refine .inr ⟨.close, roomy_of_ne rfl (by simp), ?_⟩
    simp only [readStep, pc]
    rw [view_notify (by exact waits)]
    simp [ForwardData.step, view, pc, readView]
  | releasingClose =>
    simp only [readStep, pc]
    rw [view_release (by exact inv.lockWaiters)]
    exact .inl (by simp [view, pc, readView])
  | finished => exact absurd pc busyPc.1

theorem writeStep_follows {limit : Nat} {s : Loop} (inv : Inv limit s)
    (busy : s.running = some .write) (future : Bytes) :
    Follows (view s future) (view (writeStep s) future) := by
  have busyPc := inv.writeBusy busy
  have unparked : s.condWaiter = false := by
    by_contra waits
    exact (inv.parked (by simpa using waits)).2.1 busy
  cases pc : s.writeTask with
  | created =>
    refine .inr ⟨.startWrite, roomy_of_ne rfl (by simp), ?_⟩
    simp [writeStep, ForwardData.step, view, pc, writeView]
  | acquiringGet =>
    simp only [writeStep, pc]
    split <;> exact .inl (by simp [view, pc, writeView])
  | blockedGet => exact absurd pc busyPc.2
  | testing =>
    refine .inr ⟨.get, roomy_of_ne rfl (by simp), ?_⟩
    cases got : s.queue.get with
    | wait =>
      simp only [writeStep, pc, got]
      rw [view_release (by exact inv.lockWaiters)]
      simp [ForwardData.step, view, pc, got, writeView]
    | none => simp [writeStep, ForwardData.step, view, pc, got, writeView]
    | item data rest => simp [writeStep, ForwardData.step, view, pc, got, writeView]
  | waiting => exact .inl (by simp [writeStep, view, pc, writeView, unparked])
  | releasingGet got =>
    cases got with
    | none =>
      simp only [writeStep, pc]
      rw [view_release (by exact inv.lockWaiters)]
      exact .inl (by simp [view, pc, writeView])
    | some data =>
      simp only [writeStep, pc]
      rw [view_release (by exact inv.lockWaiters)]
      exact .inl (by simp [view, pc, writeView])
  | writing data =>
    refine .inr ⟨.write, roomy_of_ne rfl (by simp), ?_⟩
    simp [writeStep, ForwardData.step, view, pc, writeView]
  | finished => exact absurd pc busyPc.1

theorem readStep_fed {s : Loop} : Fed (readStep s) := by
  intro suspended woken
  cases pc : s.readTask <;>
    grind [readStep, takeChunk, release, notify]

theorem writeStep_reader (s : Loop) : (writeStep s).readTask = s.readTask ∧
    (writeStep s).readerWaiter = s.readerWaiter ∧ (writeStep s).buffer = s.buffer ∧
    (writeStep s).eof = s.eof := by
  cases pc : s.writeTask <;> grind [writeStep, release]

theorem readStep_eof (s : Loop) : (readStep s).eof = s.eof := by
  cases pc : s.readTask <;> grind [readStep, takeChunk, release, notify]

theorem step_fed {limit : Nat} {s t : Loop} {a : Act} (fed : Fed s)
    (stepped : step limit s a = some t) : Fed t := by
  cases a with
  | arrive data =>
    simp only [step, Option.ite_none_right_eq_some, Option.some.injEq] at stepped
    obtain ⟨⟨-, -, some, -⟩, rfl⟩ := stepped
    unfold wakeReader
    split <;> exact fun _ _ => .inl (by simp [some])
  | feedEof =>
    simp only [step, Option.ite_none_right_eq_some, Option.some.injEq] at stepped
    obtain ⟨-, rfl⟩ := stepped
    unfold wakeReader
    split <;> exact fun _ _ => .inr rfl
  | spawn id =>
    simp only [step, Option.some.injEq] at stepped
    subst stepped
    exact fed
  | dispatch =>
    simp only [step] at stepped
    split at stepped
    · rw [Option.some.injEq] at stepped
      subst stepped
      exact fed
    · simp at stepped
  | exec =>
    simp only [step] at stepped
    split at stepped <;> simp only [Option.some.injEq, reduceCtorEq] at stepped
    all_goals subst stepped
    · exact readStep_fed
    · obtain ⟨readTask, waiter, buffer, eof⟩ := writeStep_reader s
      rw [Fed, readTask, waiter, buffer, eof]
      exact fed
    · exact fed

/-- Whatever is still to arrive, the call is in a state that some interleaving reaches. -/
def Scheduled (s : Loop) : Prop :=
  ∀ future, (s.eof = true → future = []) →
    ∃ stream, Runs.Reached ForwardData.step Roomy (ForwardData.init stream) (view s future)

theorem reached_follows {stream : Bytes} {f g : Forward}
    (reached : Runs.Reached ForwardData.step Roomy (ForwardData.init stream) f)
    (follows : Follows f g) :
    Runs.Reached ForwardData.step Roomy (ForwardData.init stream) g := by
  rcases follows with rfl | ⟨a, roomy, stepped⟩
  · exact reached
  · exact Runs.reached_step reached roomy stepped

theorem wakeReader_view (s : Loop) (future : Bytes) :
    view (wakeReader s) future = view s future := by
  unfold wakeReader
  split <;> rfl

theorem wakeReader_eof (s : Loop) : (wakeReader s).eof = s.eof := by
  unfold wakeReader
  split <;> rfl

theorem step_scheduled {limit : Nat} {s t : Loop} {a : Act} (small : chunks limit ≤ queueSize)
    (inv : Inv limit s) (fed : Fed s) (scheduled : Scheduled s)
    (stepped : step limit s a = some t) : Scheduled t := by
  intro future ended
  cases a with
  | arrive data =>
    simp only [step, Option.ite_none_right_eq_some, Option.some.injEq] at stepped
    obtain ⟨⟨-, running, -, -⟩, rfl⟩ := stepped
    obtain ⟨stream, reached⟩ := scheduled (data ++ future) (by simp [running])
    rw [wakeReader_view]
    refine ⟨stream, ?_⟩
    simpa only [view, List.append_assoc] using reached
  | feedEof =>
    simp only [step, Option.ite_none_right_eq_some, Option.some.injEq] at stepped
    obtain ⟨-, rfl⟩ := stepped
    rw [wakeReader_eof] at ended
    rw [wakeReader_view]
    exact scheduled future fun _ => ended rfl
  | spawn id =>
    simp only [step, Option.some.injEq] at stepped
    subst stepped
    exact scheduled future ended
  | dispatch =>
    simp only [step] at stepped
    split at stepped
    · rw [Option.some.injEq] at stepped
      subst stepped
      exact scheduled future ended
    · simp at stepped
  | exec =>
    simp only [step] at stepped
    split at stepped
    all_goals
      rename_i busy
      simp only [Option.some.injEq, reduceCtorEq] at stepped
      try subst stepped
    · rw [readStep_eof] at ended
      obtain ⟨stream, reached⟩ := scheduled future ended
      exact ⟨stream, reached_follows reached (readStep_follows inv fed busy small ended)⟩
    · rw [(writeStep_reader s).2.2.2] at ended
      obtain ⟨stream, reached⟩ := scheduled future ended
      exact ⟨stream, reached_follows reached (writeStep_follows inv busy future)⟩
    · exact scheduled future ended

theorem init_scheduled (before : List Nat) (buffered : Bytes) (eof : Bool) :
    Scheduled (init before buffered eof) := by
  intro future _
  refine ⟨buffered ++ future, Runs.reached_step (Runs.reached_refl _)
    (roomy_of_ne (a := .start) rfl (by simp)) ?_⟩
  rfl

theorem run_scheduled {limit : Nat} {before : List Nat} {buffered : Bytes} {eof : Bool}
    {acts : List Act} {s : Loop} (small : chunks limit ≤ queueSize)
    (fits : buffered.length ≤ limit)
    (reached : Runs.run (step limit) (init before buffered eof) acts = some s) : Scheduled s := by
  obtain ⟨-, -, scheduled⟩ : Inv limit s ∧ Fed s ∧ Scheduled s := by
    refine Runs.invariant_run (fun s => Inv limit s ∧ Fed s ∧ Scheduled s) ?_
      ⟨init_inv before eof fits, by simp [Fed, init], init_scheduled before buffered eof⟩ reached
    rintro s a t ⟨inv, fed, scheduled⟩ stepped
    exact ⟨step_inv inv stepped, step_fed fed stepped,
      step_scheduled small inv fed scheduled stepped⟩
  exact scheduled

/-- With at most 1000 chunks' worth of buffer, `forward_data` loses nothing on asyncio. -/
theorem scheduled_lossless {limit : Nat} {before : List Nat} {buffered : Bytes} {eof : Bool}
    {acts : List Act} {s : Loop} (small : chunks limit ≤ queueSize)
    (fits : buffered.length ≤ limit)
    (reached : Runs.run (step limit) (init before buffered eof) acts = some s) :
    s.written <+: s.bytesRead ∧ s.totalBytes = s.written.length ∧
      (s.readTask = .finished → s.writeTask = .finished →
        s.written = s.bytesRead ∧ s.buffer = []) := by
  obtain ⟨stream, forward⟩ := run_scheduled small fits reached [] fun _ => rfl
  obtain ⟨moves, interleaved, roomy⟩ := forward
  have intact : Intact stream (view s []) := roomy_intact interleaved roomy
  have inOrder : s.written <+: s.bytesRead := intact_prefix intact
  refine ⟨inOrder, intact.count, fun readDone writeDone => ?_⟩
  have readEnded : (view s []).readTask = .finished := by simp [view, readDone, readView]
  have writeEnded : (view s []).writeTask = .finished := by simp [view, writeDone, writeView]
  obtain ⟨read, written⟩ := intact_finished intact readEnded writeEnded
  have nothingLeft := intact.readEnd (.inr readEnded)
  exact ⟨written.trans read.symm, by simpa [view] using nothingLeft⟩

/-- `read_task` finds two chunks and the end of the stream in its buffer. -/
def bufferedTurns : List Act :=
  .dispatch :: List.replicate 13 .exec ++ .dispatch :: List.replicate 12 .exec

theorem scheduled_lossless_buffered : ∃ s,
    Runs.run (step 16384) (init [] (List.replicate 8193 7) true) bufferedTurns = some s ∧
      s.written = s.bytesRead ∧ s.totalBytes = 8193 ∧ s.buffer = [] := by
  obtain ⟨s, reached, readDone, writeDone, total⟩ : ∃ s,
      Runs.run (step 16384) (init [] (List.replicate 8193 7) true) bufferedTurns = some s ∧
        s.readTask = .finished ∧ s.writeTask = .finished ∧ s.totalBytes = 8193 :=
    Runs.reaches (by decide +kernel)
  have fits : (List.replicate 8193 (7 : UInt8)).length ≤ 16384 := by
    rw [List.length_replicate]
    omega
  have lossless := scheduled_lossless (by decide) fits reached
  obtain ⟨written, empty⟩ := lossless.2.2 readDone writeDone
  exact ⟨s, reached, written, total, empty⟩

end Scheduling
