import MigrationTransport.TcpProxy.Destination
import MigrationTransport.TcpProxy.Eviction

/-!
Whether `forward_data` notices that its destination is lost. It does not: each chunk that
is written afterwards is counted as forwarded, and the reader goes on. The loss is harmless
only where it finds nothing left to forward.
-/
namespace LostDestination
open ByteStream ForwardData Lossless Chunks Eviction Destination

/-- Nothing is counted after the loss, and nothing read after the write that meets it. -/
def Noticed (s : Sink) : Prop :=
  (∀ n, s.lostAt = some n → s.forward.totalBytes = n) ∧
    ∀ r, s.attemptAt = some r → s.forward.bytesRead.length = r

def Quiet (f : Forward) : Prop :=
  f.unread = [] ∧ f.queue.items = [] ∧ readInHand f.readTask = [] ∧ writeInHand f.writeTask = []

instance (f : Forward) : Decidable (Quiet f) := by
  unfold Quiet
  infer_instance

/-- `write_task` does not write to a lost destination. -/
def Silent (s : Sink) (act : Destination.Act) : Prop :=
  act = .forward .write → s.lostAt = none

def LostQuietly (s : Sink) (act : Destination.Act) : Prop := act = .lose → Quiet s.forward

instance (s : Sink) (act : Destination.Act) : Decidable (LostQuietly s act) := by
  unfold LostQuietly
  infer_instance

theorem sized_nonempty {data : Bytes} (sized : Sized data) : data ≠ [] :=
  List.length_pos_iff.mp sized.1

theorem write_counts {f g : Forward} (chunked : Chunked f)
    (stepped : ForwardData.step f .write = some g) : f.totalBytes < g.totalBytes := by
  cases ForwardData.step_effect stepped with
  | write data writing => exact Nat.lt_add_of_pos_right (chunked.writing data writing).1

theorem other_counts {f g : Forward} {a : ForwardData.Act} (silent : a ≠ .write)
    (stepped : ForwardData.step f a = some g) : g.totalBytes = f.totalBytes := by
  cases ForwardData.step_effect stepped with
  | write => exact absurd rfl silent
  | _ => rfl

@[simp] theorem cancel_counts (f : Forward) : (ForwardData.cancel f).totalBytes = f.totalBytes := by
  unfold ForwardData.cancel
  split <;> rfl

theorem cancel_quiet {f : Forward} (quiet : Quiet f) : Quiet (ForwardData.cancel f) := by
  unfold ForwardData.cancel
  split <;> exact quiet

/-- Where nothing is left, nothing comes back, and there is nothing to write. -/
theorem quiet_stays {f g : Forward} {a : ForwardData.Act} (chunked : Chunked f) (quiet : Quiet f)
    (stepped : ForwardData.step f a = some g) : Quiet g ∧ a ≠ .write := by
  obtain ⟨allRead, emptied, reader, writer⟩ := quiet
  cases ForwardData.step_effect stepped with
  | read n reading kept positive small available =>
    rw [allRead, List.length_nil] at available
    omega
  | put data putting =>
    rw [putting] at reader
    exact absurd reader (sized_nonempty (chunked.putting data putting))
  | getItem data rest getting kept got =>
    obtain ⟨content, -⟩ := CircularQueue.get_item got
    simp [emptied] at content
  | write data writing =>
    rw [writing] at writer
    exact absurd writer (sized_nonempty (chunked.writing data writing))
  | writeRaises data writing =>
    rw [writing] at writer
    exact absurd writer (sized_nonempty (chunked.writing data writing))
  | close => exact ⟨⟨allRead, emptied, rfl, by simpa using writer⟩, by simp⟩
  | start | startRead | startWrite | eof | readRaises | getWaits | getNone | cancelReading
  | cancelRead | cancelWrite =>
    refine ⟨⟨allRead, emptied, ?_, ?_⟩, by simp⟩ <;> first | rfl | assumption
  | dropped | gathered => exact ⟨⟨allRead, emptied, reader, writer⟩, by simp⟩

/-- As long as nothing is written to a lost destination. -/
structure Unaware (s : Sink) : Prop where
  counted : ∀ n, s.lostAt = some n → s.forward.totalBytes = n
  attempt : s.attemptAt = none

theorem unaware_noticed {s : Sink} (unaware : Unaware s) : Noticed s :=
  ⟨unaware.counted, by simp [unaware.attempt]⟩

theorem step_unaware {s t : Sink} {act : Destination.Act} (unaware : Unaware s)
    (silent : Silent s act) (stepped : Destination.step s act = some t) : Unaware t := by
  obtain ⟨counted, attempt⟩ := unaware
  cases Destination.step_effect stepped with
  | moved a g moved other =>
    exact ⟨fun n lost => (other_counts other moved).trans (counted n lost), attempt⟩
  | sent g moved up => exact ⟨by simp [up], attempt⟩
  | discarded g moved n gone => simp [silent rfl] at gone
  | cancel => exact ⟨by simpa using counted, attempt⟩
  | take n up => exact ⟨by simp [up], attempt⟩
  | lose up => exact ⟨by simp, attempt⟩

/-- A chunk has been counted that was written after the loss. -/
def Overcounted (s : Sink) : Prop := ∃ n, s.lostAt = some n ∧ n < s.forward.totalBytes

theorem overcounted_stays {s t : Sink} {act : Destination.Act} (chunked : Chunked s.forward)
    (excess : Overcounted s) (stepped : Destination.step s act = some t) : Overcounted t := by
  obtain ⟨n, lost, more⟩ := excess
  cases Destination.step_effect stepped with
  | moved a g moved other => exact ⟨n, lost, (other_counts other moved).symm ▸ more⟩
  | sent g moved up => simp [up] at lost
  | discarded g moved => exact ⟨n, lost, more.trans (write_counts chunked moved)⟩
  | cancel => exact ⟨n, lost, by simpa using more⟩
  | take k up => simp [up] at lost
  | lose up => simp [up] at lost

theorem overcounted_unnoticed {s : Sink} (excess : Overcounted s) : ¬ Noticed s := by
  obtain ⟨n, lost, more⟩ := excess
  exact fun noticed => Nat.ne_of_gt more (noticed.1 n lost)

theorem init_unaware (stream : Bytes) : Unaware (Destination.init stream) := by
  constructor <;> simp [Destination.init]

theorem noticed_iff_silent {stream : Bytes} {acts : List Destination.Act} {s : Sink}
    (reached : Runs.run Destination.step (Destination.init stream) acts = some s) :
    Noticed s ↔ Runs.Along Destination.step Silent (Destination.init stream) acts := by
  constructor
  · intro noticed
    by_contra broken
    have doomed : Chunked s.forward ∧ Overcounted s := by
      refine Runs.breach_leads (fun s => Chunked s.forward ∧ Unaware s)
        (fun s => Chunked s.forward ∧ Overcounted s) (fun _ _ => True) ?_ ?_ ?_
        ⟨init_chunked stream, init_unaware stream⟩
        (Runs.along_of_actions (fun _ => True) fun _ _ => trivial) reached broken
      · rintro s act t ⟨chunked, unaware⟩ _ silent stepped
        exact ⟨step_sized chunked stepped, step_unaware unaware silent stepped⟩
      · rintro s act t ⟨chunked, unaware⟩ _ spoken stepped
        refine ⟨step_sized chunked stepped, ?_⟩
        cases Destination.step_effect stepped with
        | discarded g moved n gone =>
          exact ⟨n, gone, (unaware.counted n gone) ▸ write_counts chunked moved⟩
        | sent g moved up => exact absurd (fun _ => up) spoken
        | moved a g moved other =>
          exact absurd (fun same => absurd (Destination.Act.forward.inj same) other) spoken
        | cancel | take | lose => exact absurd (fun same => by simp at same) spoken
      · rintro s act t ⟨chunked, excess⟩ _ stepped
        exact ⟨step_sized chunked stepped, overcounted_stays chunked excess stepped⟩
    exact overcounted_unnoticed doomed.2 noticed
  · intro silent
    exact unaware_noticed (Runs.invariant_along Unaware
      (fun _ _ _ unaware silent stepped => step_unaware unaware silent stepped)
      (init_unaware stream) silent reached)

/-- The destination was lost, if at all, when nothing was left. -/
structure Harmless (s : Sink) : Prop where
  chunked : Chunked s.forward
  unaware : Unaware s
  quiet : s.lostAt ≠ none → Quiet s.forward

theorem step_harmless {s t : Sink} {act : Destination.Act} (harmless : Harmless s)
    (quietly : LostQuietly s act) (stepped : Destination.step s act = some t) : Harmless t := by
  obtain ⟨chunked, unaware, quiet⟩ := harmless
  have chunkedAfter := step_sized chunked stepped
  cases Destination.step_effect stepped with
  | moved a g moved other =>
    refine ⟨chunkedAfter, step_unaware unaware ?_ stepped, ?_⟩
    · exact fun same => absurd (Destination.Act.forward.inj same) other
    · exact fun lost => (quiet_stays chunked (quiet lost) moved).1
  | sent g moved up =>
    exact ⟨chunkedAfter, step_unaware unaware (fun _ => up) stepped, fun lost => absurd up lost⟩
  | discarded g moved n gone =>
    have noWrite := (quiet_stays chunked (quiet (by simp [gone])) moved).2
    exact absurd rfl noWrite
  | cancel =>
    refine ⟨chunkedAfter, step_unaware unaware (fun same => by simp at same) stepped, ?_⟩
    exact fun lost => cancel_quiet (quiet lost)
  | take n up =>
    refine ⟨chunkedAfter, step_unaware unaware (fun same => by simp at same) stepped, ?_⟩
    exact fun lost => absurd up lost
  | lose up =>
    refine ⟨chunkedAfter, step_unaware unaware (fun same => by simp at same) stepped, ?_⟩
    exact fun _ => quietly rfl

theorem init_harmless (stream : Bytes) : Harmless (Destination.init stream) :=
  ⟨init_chunked stream, init_unaware stream, by simp [Destination.init]⟩

def plain : Destination.Act → Bool
  | .forward a => faultless a
  | .cancel => false
  | .take _ | .lose => true

theorem step_plain_uncut {stream : Bytes} {s t : Sink} {act : Destination.Act}
    (uncut : Uncut stream s.forward) (fine : plain act = true)
    (stepped : Destination.step s act = some t) : Uncut stream t.forward := by
  cases Destination.step_effect stepped with
  | moved a g moved => exact step_uncut uncut fine moved
  | sent g moved => exact step_uncut uncut rfl moved
  | discarded g moved => exact step_uncut uncut rfl moved
  | cancel => simp [plain] at fine
  | take | lose => exact uncut

/-- `write_task` ends on its own only when nothing is left. -/
theorem finishes_quiet {stream : Bytes} {f g : Forward} {a : ForwardData.Act}
    (uncut : Uncut stream f) (fine : faultless a = true)
    (stepped : ForwardData.step f a = some g) (done : g.writeTask = .finished) :
    f.writeTask = .finished ∨ Quiet f := by
  cases ForwardData.step_effect stepped with
  | getNone getting kept got =>
    obtain ⟨emptied, shut⟩ := CircularQueue.get_none.mp got
    have readDone := uncut.closed shut
    have allRead := uncut.readEnd (.inr readDone)
    exact .inr ⟨allRead, emptied, by simp [readDone, readInHand], by simp [getting, writeInHand]⟩
  | writeRaises => simp [faultless] at fine
  | cancelWrite wanted => exact absurd (.inr (.inr wanted)) uncut.calm
  | put | close => exact .inl ((notify_finished _).mp done)
  | start | startWrite | getWaits | getItem | write => simp at done
  | _ => exact .inl done

/-- An open queue holds at least what was put last. -/
theorem put_fills {q : CircularQueue Bytes queueSize} (opened : q.closed = false)
    (data : Bytes) : (q.put data).items ≠ [] := by
  by_cases room : q.items.length < queueSize
  · rw [CircularQueue.put_with_room opened room]
    simp
  · have bounded : q.items.length ≤ queueSize := q.queue.bounded
    cases content : q.items with
    | nil =>
      rw [content] at room
      exact absurd (by decide) room
    | cons oldest rest =>
      rw [CircularQueue.put_when_full opened content (by omega)]
      simp

/-- What is left is either written or still left. -/
theorem rest_stays {stream : Bytes} {f g : Forward} {a : ForwardData.Act}
    (uncut : Uncut stream f) (chunked : Chunked f) (fine : faultless a = true)
    (silent : a ≠ .write) (stepped : ForwardData.step f a = some g) (left : ¬ Quiet f) :
    ¬ Quiet g := by
  rintro ⟨allRead, emptied, reader, writer⟩
  cases ForwardData.step_effect stepped with
  | write => exact silent rfl
  | readRaises | writeRaises => simp [faultless] at fine
  | start created =>
    obtain ⟨noRead, noWrite⟩ := uncut.life.idle (.inr created)
    exact left ⟨allRead, emptied, by simp [noRead, readInHand], by simp [noWrite, writeInHand]⟩
  | read n reading kept positive small available =>
    exact sized_nonempty (read_sized positive small available) reader
  | put data putting =>
    have opened : f.queue.closed = false := by
      by_contra shut
      simp [uncut.closed (by simpa using shut)] at putting
    exact put_fills opened data emptied
  | getItem data rest getting kept got =>
    obtain ⟨content, -⟩ := CircularQueue.get_item got
    exact sized_nonempty (chunked.queued data (by simp [content])) writer
  | startRead here | eof here =>
    exact left ⟨allRead, emptied, by simp [here, readInHand], writer⟩
  | close here =>
    exact left ⟨allRead, emptied, by simp [here, readInHand], by simpa using writer⟩
  | startWrite here | getWaits here | getNone here =>
    exact left ⟨allRead, emptied, reader, by simp [here, writeInHand]⟩
  | cancelReading wanted | cancelRead wanted => exact uncut.calm (.inr (.inl wanted))
  | cancelWrite wanted => exact uncut.calm (.inr (.inr wanted))
  | dropped | gathered => exact left ⟨allRead, emptied, reader, writer⟩

/-- After a loss with something left: it has been counted, or will be. -/
structure Doomed (stream : Bytes) (s : Sink) : Prop where
  uncut : Uncut stream s.forward
  chunked : Chunked s.forward
  lost : s.lostAt ≠ none
  wrong : Overcounted s ∨
    (∀ n, s.lostAt = some n → s.forward.totalBytes = n) ∧ ¬ Quiet s.forward ∧
      s.forward.writeTask ≠ .finished

structure Careful (stream : Bytes) (s : Sink) : Prop where
  uncut : Uncut stream s.forward
  harmless : Harmless s
  ended : s.forward.writeTask = .finished → Quiet s.forward

theorem step_doomed {stream : Bytes} {s t : Sink} {act : Destination.Act}
    (doomed : Doomed stream s) (fine : plain act = true)
    (stepped : Destination.step s act = some t) : Doomed stream t := by
  obtain ⟨uncut, chunked, lost, wrong⟩ := doomed
  have uncutAfter := step_plain_uncut uncut fine stepped
  have chunkedAfter := step_sized chunked stepped
  have keepsExcess : Overcounted s → Overcounted t :=
    fun excess => overcounted_stays chunked excess stepped
  cases Destination.step_effect stepped with
  | moved a g moved other =>
    refine ⟨uncutAfter, chunkedAfter, lost, wrong.imp keepsExcess ?_⟩
    rintro ⟨counted, left, running⟩
    refine ⟨fun n gone => (other_counts other moved).trans (counted n gone),
      rest_stays uncut chunked fine other moved left, ?_⟩
    intro done
    exact (finishes_quiet uncut fine moved done).elim running left
  | sent g moved up => exact absurd up lost
  | discarded g moved n gone =>
    refine ⟨uncutAfter, chunkedAfter, lost, .inl ?_⟩
    rcases wrong with excess | ⟨counted, -, -⟩
    · exact keepsExcess excess
    · exact ⟨n, gone, counted n gone ▸ write_counts chunked moved⟩
  | cancel => simp [plain] at fine
  | take n up => exact absurd up lost
  | lose up => exact absurd up lost

theorem step_careful {stream : Bytes} {s t : Sink} {act : Destination.Act}
    (careful : Careful stream s) (fine : plain act = true) (quietly : LostQuietly s act)
    (stepped : Destination.step s act = some t) : Careful stream t := by
  obtain ⟨uncut, harmless, ended⟩ := careful
  have uncutAfter := step_plain_uncut uncut fine stepped
  have harmlessAfter := step_harmless harmless quietly stepped
  have stillEnded : ∀ a g, ForwardData.step s.forward a = some g → faultless a = true →
      g.writeTask = .finished → Quiet g := by
    intro a g moved fine done
    have quiet := (finishes_quiet uncut fine moved done).elim ended id
    exact (quiet_stays harmless.chunked quiet moved).1
  cases Destination.step_effect stepped with
  | moved a g moved => exact ⟨uncutAfter, harmlessAfter, stillEnded a g moved fine⟩
  | sent g moved => exact ⟨uncutAfter, harmlessAfter, stillEnded .write g moved rfl⟩
  | discarded g moved => exact ⟨uncutAfter, harmlessAfter, stillEnded .write g moved rfl⟩
  | cancel => simp [plain] at fine
  | take | lose => exact ⟨uncutAfter, harmlessAfter, ended⟩

theorem loud_dooms {stream : Bytes} {s t : Sink} {act : Destination.Act}
    (careful : Careful stream s) (loud : ¬ LostQuietly s act)
    (stepped : Destination.step s act = some t) : Doomed stream t := by
  obtain ⟨uncut, harmless, ended⟩ := careful
  rw [LostQuietly, Classical.not_imp] at loud
  obtain ⟨rfl, left⟩ := loud
  cases Destination.step_effect stepped with
  | lose up =>
    exact ⟨uncut, harmless.chunked, by simp,
      .inr ⟨by simp, left, fun done => left (ended done)⟩⟩

theorem init_careful (stream : Bytes) : Careful stream (Destination.init stream) :=
  ⟨init_uncut stream, init_harmless stream, by
    simp [Destination.init, ForwardData.init, create, absent]⟩

theorem loud_loss_unnoticed {stream : Bytes} {acts : List Destination.Act} {s : Sink}
    (fine : ∀ act ∈ acts, plain act = true)
    (reached : Runs.run Destination.step (Destination.init stream) acts = some s)
    (writeDone : s.forward.writeTask = .finished)
    (loud : ¬ Runs.Along Destination.step LostQuietly (Destination.init stream) acts) :
    ¬ Noticed s := by
  have doomed : Doomed stream s := by
    apply Runs.breach_leads (Careful stream) (Doomed stream) (fun _ act => plain act = true)
      _ _ _ (init_careful stream) (Runs.along_of_actions _ fine) reached loud
    · exact fun _ _ _ careful fine quietly stepped => step_careful careful fine quietly stepped
    · exact fun _ _ _ careful _ loud stepped => loud_dooms careful loud stepped
    · exact fun _ _ _ doomed fine stepped => step_doomed doomed fine stepped
  rcases doomed.wrong with excess | ⟨-, -, running⟩
  · exact overcounted_unnoticed excess
  · exact absurd writeDone running

/-- In every run the loss is noticed exactly if nothing is written after it, and so if it
    comes when nothing is left; in a run that ends on its own, only then. -/
theorem destination_loss_noticed {stream : Bytes} {acts : List Destination.Act} {s : Sink}
    (reached : Runs.run Destination.step (Destination.init stream) acts = some s) :
    (Noticed s ↔ Runs.Along Destination.step Silent (Destination.init stream) acts) ∧
    (Runs.Along Destination.step LostQuietly (Destination.init stream) acts → Noticed s) ∧
    ((∀ act ∈ acts, plain act = true) → s.forward.writeTask = .finished →
      (Noticed s ↔
        Runs.Along Destination.step LostQuietly (Destination.init stream) acts)) := by
  have enough : Runs.Along Destination.step LostQuietly (Destination.init stream) acts →
      Noticed s := by
    intro quietly
    have harmless := Runs.invariant_along Harmless
      (fun _ _ _ harmless quietly stepped => step_harmless harmless quietly stepped)
      (init_harmless stream) quietly reached
    exact unaware_noticed harmless.unaware
  refine ⟨noticed_iff_silent reached, enough, ?_⟩
  intro fine writeDone
  refine ⟨fun noticed => ?_, enough⟩
  by_contra loud
  exact loud_loss_unnoticed fine reached writeDone loud noticed

def forwards (acts : List ForwardData.Act) : List Destination.Act := acts.map .forward

def lateLoss : List Destination.Act :=
  forwards oneByteActs ++ [.take 1, .lose]

theorem destination_loss_noticed_late : ∃ s,
    Runs.run Destination.step (Destination.init [7]) lateLoss = some s ∧
      s.lostAt = some 1 ∧ Noticed s := by
  obtain ⟨s, reached, lost⟩ : ∃ s,
      Runs.run Destination.step (Destination.init [7]) lateLoss = some s ∧ s.lostAt = some 1 :=
    Runs.reaches (by decide)
  exact ⟨s, reached, lost, (destination_loss_noticed reached).2.1 (by decide)⟩

def earlyLoss : List Destination.Act :=
  forwards [.start, .startRead, .startWrite, .read 1, .put, .get, .write] ++ [.lose] ++
    forwards [.read 1, .put, .get, .write, .read 1]

/-- The second byte is counted though it was discarded, and then a third is read. -/
theorem destination_loss_ignored : ∃ s,
    Runs.run Destination.step (Destination.init [1, 2, 3]) earlyLoss = some s ∧
      s.lostAt = some 1 ∧ s.forward.totalBytes = 2 ∧
      s.attemptAt = some 2 ∧ s.forward.bytesRead.length = 3 ∧ ¬ Noticed s := by
  obtain ⟨s, reached, lost, counted, attempt, read⟩ : ∃ s,
      Runs.run Destination.step (Destination.init [1, 2, 3]) earlyLoss = some s ∧
        s.lostAt = some 1 ∧ s.forward.totalBytes = 2 ∧
        s.attemptAt = some 2 ∧ s.forward.bytesRead.length = 3 := Runs.reaches (by decide)
  have unnoticed := overcounted_unnoticed ⟨1, lost, by omega⟩
  exact ⟨s, reached, lost, counted, attempt, read, unnoticed⟩

end LostDestination
