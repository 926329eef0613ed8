import MigrationTransport.TcpProxy.Histogram

/-!
What holds of the bytes of one `forward_data` call whatever raises, whenever it is
cancelled and however often its queue evicts: they keep their order. `lane` is what the
call still has, or has written, of what it has read, from the oldest byte to the newest.
-/
namespace Ordering
open ByteStream ForwardData Lossless ProxySession
open Histogram (Touched step_forwards)

def lane (f : Forward) : Bytes :=
  f.written ++ writeInHand f.writeTask ++ queued f.queue ++ readInHand f.readTask

def InOrder (f : Forward) : Prop := (lane f).Sublist f.bytesRead

/-- A `put` adds its chunk behind the others, drops the oldest, or does nothing. -/
theorem queued_put_sublist (q : CircularQueue Bytes queueSize) (data : Bytes) :
    (queued (q.put data)).Sublist (queued q ++ data) := by
  by_cases shut : q.closed = true
  · have same : q.put data = q := by simp [CircularQueue.put, shut]
    rw [same]
    exact List.sublist_append_left _ _
  · have items : (q.put data).items =
        (q.items ++ [data]).drop (q.items.length + 1 - queueSize) := by
      simp [CircularQueue.put, shut, CircularQueue.items, BoundedDeque.append]
    have dropped := (List.drop_sublist (q.items.length + 1 - queueSize) (q.items ++ [data])).flatten
    simpa [queued, items] using dropped

theorem absent_in_order (stream : Bytes) : InOrder (absent stream) := by
  simp [InOrder, absent, lane, writeInHand, readInHand]

/-- What is in the queue, or was in hand, keeps its place whatever becomes of the rest. -/
theorem lane_sublist {f g : Forward} (written : g.written = f.written)
    (hand : (writeInHand g.writeTask).Sublist (writeInHand f.writeTask))
    (queue : g.queue = f.queue) (read : (readInHand g.readTask).Sublist (readInHand f.readTask)) :
    (lane g).Sublist (lane f) := by
  rw [lane, lane, written, queue]
  exact (((List.Sublist.refl _).append hand).append (List.Sublist.refl _)).append read

theorem step_in_order {f g : Forward} {a : ForwardData.Act} (ordered : InOrder f)
    (stepped : ForwardData.step f a = some g) : InOrder g := by
  cases step_effect stepped with
  | read n reading =>
    have before : (lane f).Sublist f.bytesRead := ordered
    have appended := before.append (List.Sublist.refl (f.unread.take n))
    simpa [InOrder, lane, reading, readInHand] using appended
  | put data putting =>
    have before : (lane f).Sublist f.bytesRead := ordered
    refine List.Sublist.trans ?_ before
    have queue := queued_put_sublist f.queue data
    have front := (List.Sublist.refl (f.written ++ writeInHand f.writeTask)).append queue
    simpa [lane, putting, readInHand] using front
  | close closing =>
    apply List.Sublist.trans _ ordered
    simp [lane, closing, readInHand]
  | getItem data rest getting kept got =>
    apply List.Sublist.trans _ ordered
    simp [lane, getting, writeInHand, queued_get got]
  | write data writing =>
    apply List.Sublist.trans _ ordered
    simp [lane, writing, writeInHand]
  | dropped | gathered => exact ordered
  | start | startRead | startWrite | eof | readRaises | getWaits | getNone | writeRaises
  | cancelReading | cancelRead | cancelWrite =>
    apply (lane_sublist ?_ ?_ ?_ ?_).trans ordered <;> simp [writeInHand, readInHand]

/-- As long as every `put` finds room: nothing is missing between the first byte and the
    last that the writer can still reach. -/
structure Prefixed (f : Forward) : Prop where
  written : f.written <+: f.bytesRead
  held : f.writeTask ≠ .finished →
    f.written ++ writeInHand f.writeTask ++ queued f.queue <+: f.bytesRead
  flowing : f.writeTask ≠ .finished → f.readTask ≠ .closing → f.readTask ≠ .finished →
    lane f = f.bytesRead
  shut : f.queue.closed = true → f.readTask = .finished

theorem absent_prefixed (stream : Bytes) : Prefixed (absent stream) := by
  constructor <;> simp [absent, lane, writeInHand, readInHand]

/-- `write_task` ends, in whatever way: what it has written stays a prefix. -/
theorem Prefixed.ends {f g : Forward} (whole : Prefixed f) (ended : g.writeTask = .finished)
    (written : g.written = f.written) (read : g.bytesRead = f.bytesRead)
    (queue : g.queue = f.queue) (task : g.readTask = f.readTask) : Prefixed g where
  written := by rw [written, read]; exact whole.written
  held running := absurd ended running
  flowing running := absurd ended running
  shut closed := by rw [task]; exact whole.shut (queue ▸ closed)

/-- `read_task` stops reading: what it had in hand is dropped, and nothing comes after it. -/
theorem Prefixed.stops {f g : Forward} (whole : Prefixed f)
    (ended : g.readTask = .closing ∨ g.readTask = .finished) (written : g.written = f.written)
    (read : g.bytesRead = f.bytesRead) (queue : queued g.queue = queued f.queue)
    (hand : writeInHand g.writeTask = writeInHand f.writeTask)
    (task : g.writeTask ≠ .finished → f.writeTask ≠ .finished)
    (shut : g.queue.closed = true → g.readTask = .finished) : Prefixed g where
  written := by rw [written, read]; exact whole.written
  held running := by rw [written, read, queue, hand]; exact whole.held (task running)
  flowing _ notClosing notFinished := by
    rcases ended with here | here
    · exact absurd here notClosing
    · exact absurd here notFinished
  shut := shut

theorem step_prefixed {f g : Forward} {a : ForwardData.Act} (life : Lifecycle f)
    (whole : Prefixed f) (room : PutHasRoom f a) (stepped : ForwardData.step f a = some g) :
    Prefixed g := by
  have ⟨written, held, flowing, shut⟩ := whole
  have opened : f.readTask ≠ .finished → f.queue.closed = false := by
    intro running
    by_contra closed
    exact running (shut (Bool.eq_true_of_not_eq_false closed))
  cases step_effect stepped with
  | start created =>
    obtain ⟨noRead, noWrite⟩ := life.idle (.inr created)
    have full := flowing (by simp [noWrite]) (by simp [noRead]) (by simp [noRead])
    simp only [lane, noRead, noWrite, writeInHand, readInHand, List.append_nil] at full
    refine ⟨written, fun _ => ?_, fun _ _ _ => ?_, ?_⟩
    · simp [writeInHand, full]
    · simp [lane, writeInHand, readInHand, full]
    · simp [opened (by simp [noRead])]
  | dropped | gathered => exact ⟨written, held, flowing, shut⟩
  | startRead created =>
    refine ⟨written, held, fun running _ _ => ?_, ?_⟩
    · have full := flowing running (by simp [created]) (by simp [created])
      simpa [lane, created, readInHand] using full
    · simp [opened (by simp [created])]
  | startWrite created =>
    refine ⟨written, fun _ => ?_, fun _ => ?_, shut⟩
    · simpa [created, writeInHand] using held (by simp [created])
    · simpa [lane, created, writeInHand] using flowing (by simp [created])
  | read n reading =>
    refine ⟨written.trans (List.prefix_append _ _), ?_, ?_, ?_⟩
    · exact fun running => (held running).trans (List.prefix_append _ _)
    · intro running _ _
      have full := flowing running (by simp [reading]) (by simp [reading])
      simp only [lane, reading, readInHand, List.append_nil] at full
      simp [lane, readInHand, full]
    · simp [opened (by simp [reading])]
  | put data putting =>
    have queue := queued_put (opened (by simp [putting])) (room rfl) data
    have before : f.writeTask ≠ .finished →
        f.written ++ writeInHand f.writeTask ++ queued (f.queue.put data) = f.bytesRead := by
      intro running
      have full := flowing running (by simp [putting]) (by simp [putting])
      simpa [lane, putting, readInHand, queue] using full
    refine ⟨written, fun running => ?_, fun running _ _ => ?_, ?_⟩
    · rw [writeInHand_notify]
      rw [before fun ended => running ((notify_finished _).mpr ended)]
    · simpa [lane, readInHand] using before fun ended => running ((notify_finished _).mpr ended)
    · simp [CircularQueue.put_closed, opened (by simp [putting])]
  | getItem data rest getting kept got =>
    have shrunk := queued_get got
    refine ⟨written, fun _ => ?_, fun _ => ?_, ?_⟩
    · simpa [getting, writeInHand, shrunk] using held (by simp [getting])
    · simpa [lane, getting, writeInHand, shrunk] using flowing (by simp [getting])
    · rw [(CircularQueue.get_item got).2]
      exact shut
  | getWaits getting =>
    refine ⟨written, fun _ => ?_, fun _ => ?_, shut⟩
    · simpa [getting, writeInHand] using held (by simp [getting])
    · simpa [lane, getting, writeInHand] using flowing (by simp [getting])
  | write data writing =>
    have reached := held (by simp [writing])
    simp only [writing, writeInHand] at reached
    refine ⟨(List.prefix_append _ _).trans reached, fun _ => ?_, fun _ => ?_, shut⟩
    · simpa [writeInHand] using reached
    · simpa [lane, writing, writeInHand] using flowing (by simp [writing])
  | getNone | writeRaises | cancelWrite => exact whole.ends rfl rfl rfl rfl rfl
  | eof reading | readRaises reading =>
    refine whole.stops (.inl rfl) rfl rfl rfl rfl id ?_
    simp [opened (by simp [reading])]
  | cancelReading wanted awaits =>
    refine whole.stops (.inl rfl) rfl rfl rfl rfl id ?_
    rcases awaits with here | ⟨data, here⟩ <;> simp [opened (by simp [here])]
  | cancelRead => exact whole.stops (.inr rfl) rfl rfl rfl rfl id fun _ => rfl
  | close =>
    refine whole.stops (.inr rfl) rfl rfl rfl (writeInHand_notify _) ?_ fun _ => rfl
    simp

/-- What creation and cancellation leave alone in a call, and its steps keep, a session keeps
    in both of its calls. -/
theorem session_forwards {e : Endpoint} {s t : Session} {a : ProxySession.Act}
    {keep : Forward → Prop} (touched : ∀ f g, keep f → Touched f g → keep g)
    (moved : ∀ d x g, a = .forward d x → keep (s.forward d) →
      ForwardData.step (s.forward d) x = some g → keep g)
    (orderly : Orderly s) (before : ∀ d, keep (s.forward d))
    (stepped : ProxySession.step e s a = some t) : ∀ d, keep (t.forward d) := by
  intro d
  rcases step_forwards orderly stepped with ⟨moving, x, g, same, movedTo, changed⟩ | ⟨-, others⟩
  · rw [changed]
    by_cases here : d = moving
    · subst here
      simpa using moved d x g same (before d) movedTo
    · simpa [here] using before d
  · exact touched _ _ (before d) (others d)

theorem touched_in_order {f g : Forward} (ordered : InOrder f) (touched : Touched f g) :
    InOrder g := by
  cases touched with
  | kept => exact ordered
  | created => exact ordered
  | cancelled =>
    unfold cancel
    split <;> exact ordered

theorem touched_prefixed {f g : Forward} (whole : Prefixed f) (touched : Touched f g) :
    Prefixed g := by
  obtain ⟨written, held, flowing, shut⟩ := whole
  cases touched with
  | kept => exact ⟨written, held, flowing, shut⟩
  | created => exact ⟨written, held, flowing, shut⟩
  | cancelled =>
    unfold cancel
    split <;> exact ⟨written, held, flowing, shut⟩

theorem in_order_written {f : Forward} (ordered : InOrder f) : f.written.Sublist f.bytesRead := by
  have first : f.written.Sublist (lane f) := by simp [lane]
  exact first.trans ordered

end Ordering
