import MigrationTransport.Lib.Runs
import MigrationTransport.TcpProxy.ForwardData

/-!
What one `forward_data` call does with the bytes it reads. `Intact` says that the
bytes written, in hand, queued and unread are together the stream the peer sends;
every step keeps it except a `put` that finds the queue full.
-/
namespace Lossless
open ByteStream ForwardData

def readInHand : ReadPc → Bytes
  | .putting data => data
  | _ => []

def writeInHand : WritePc → Bytes
  | .writing data => data
  | _ => []

def queued (q : CircularQueue Bytes queueSize) : Bytes := q.items.flatten

def upstream (f : Forward) : Bytes :=
  queued f.queue ++ readInHand f.readTask ++ f.unread

def faultless : Act → Bool
  | .readRaises | .writeRaises => false
  | _ => true

def PutHasRoom (f : Forward) (a : Act) : Prop :=
  a = .put → f.queue.items.length < queueSize

instance (f : Forward) (a : Act) : Decidable (PutHasRoom f a) := by
  unfold PutHasRoom; infer_instance

def Asked (f : Forward) : Prop :=
  f.cancelled = true ∨ f.readCancelled = true ∨ f.writeCancelled = true

/-- Under a request to cancel only a drained forwarder is still intact: what is
    upstream of `write_task` will never be written. -/
structure Intact (stream : Bytes) (f : Forward) : Prop where
  order : f.written ++ writeInHand f.writeTask ++ upstream f = stream
  history : f.bytesRead ++ f.unread = stream
  count : f.totalBytes = f.written.length
  closed : f.queue.closed = true → f.readTask = .finished
  readEnd : f.readTask = .closing ∨ f.readTask = .finished → f.unread = []
  writeEnd : f.writeTask = .finished → upstream f = []
  asked : Asked f → upstream f = []

@[simp] theorem writeInHand_notify (pc : WritePc) : writeInHand (notify pc) = writeInHand pc := by
  cases pc <;> rfl

@[simp] theorem queued_new : queued .new = [] := rfl

@[simp] theorem queued_close (q : CircularQueue Bytes queueSize) : queued q.close = queued q := rfl

theorem queued_put {q : CircularQueue Bytes queueSize} (opened : q.closed = false)
    (room : q.items.length < queueSize) (data : Bytes) :
    queued (q.put data) = queued q ++ data := by
  simp [queued, CircularQueue.put_with_room opened room]

theorem queued_empty {q : CircularQueue Bytes queueSize} (empty : q.items = []) :
    queued q = [] := by
  simp [queued, empty]

theorem queued_get {q rest : CircularQueue Bytes queueSize} {data : Bytes}
    (got : q.get = .item data rest) : queued q = data ++ queued rest := by
  simp [queued, (CircularQueue.get_item got).1]

theorem upstream_nil {f : Forward} :
    upstream f = [] ↔ queued f.queue = [] ∧ readInHand f.readTask = [] ∧ f.unread = [] := by
  simp [upstream]

theorem absent_intact (stream : Bytes) : Intact stream (absent stream) := by
  constructor <;> simp [absent, upstream, readInHand, writeInHand, Asked]

theorem create_intact {stream : Bytes} {f : Forward}
    (intact : Intact stream f) : Intact stream (create f) := by
  obtain ⟨order, history, count, closed, readEnd, writeEnd, asked⟩ := intact
  exact ⟨order, history, count, closed, readEnd, writeEnd, asked⟩

/-- Nothing that is upstream of `write_task`, in its hand or written has changed. -/
theorem Intact.kept {stream : Bytes} {f g : Forward} (intact : Intact stream f)
    (same : upstream g = upstream f) (written : g.written = f.written)
    (hand : writeInHand g.writeTask = writeInHand f.writeTask)
    (total : g.totalBytes = f.totalBytes)
    (history : g.bytesRead ++ g.unread = f.bytesRead ++ f.unread)
    (closed : g.queue.closed = true → g.readTask = .finished)
    (readEnd : g.readTask = .closing ∨ g.readTask = .finished → g.unread = [])
    (writeEnd : g.writeTask = .finished → f.writeTask = .finished) (asked : Asked g → Asked f) :
    Intact stream g where
  order := by rw [written, hand, same]; exact intact.order
  history := history.trans intact.history
  count := by rw [total, written]; exact intact.count
  closed := closed
  readEnd := readEnd
  writeEnd ended := by rw [same]; exact intact.writeEnd (writeEnd ended)
  asked wanted := by rw [same]; exact intact.asked (asked wanted)

/-- A `read_task` that is cancelled holds no byte and leaves none unread. -/
theorem Intact.readStops {stream : Bytes} {f : Forward} (intact : Intact stream f)
    (wanted : f.readCancelled = true) {pc : ReadPc} (empty : readInHand pc = [])
    (closed : f.queue.closed = true → pc = .finished) :
    Intact stream { f with readTask := pc, readCancelled := false } := by
  have drained := intact.asked (.inr (.inl wanted))
  obtain ⟨noQueue, -, noUnread⟩ := upstream_nil.mp drained
  have still : upstream { f with readTask := pc, readCancelled := false } = [] :=
    upstream_nil.mpr ⟨noQueue, empty, noUnread⟩
  refine ⟨?_, intact.history, intact.count, closed, fun _ => noUnread,
    fun _ => still, fun _ => still⟩
  rw [still, ← drained]
  exact intact.order

theorem step_intact {stream : Bytes} {f g : Forward} {a : Act} (life : Lifecycle f)
    (intact : Intact stream f) (fine : faultless a = true) (room : PutHasRoom f a)
    (stepped : step f a = some g) : Intact stream g := by
  cases step_effect stepped with
  | readRaises => simp [faultless] at fine
  | writeRaises => simp [faultless] at fine
  | start created =>
    obtain ⟨noRead, noWrite⟩ := life.idle (.inr created)
    refine intact.kept ?_ rfl ?_ rfl rfl ?_ (by simp) (by simp) id
    · simp [upstream, noRead, readInHand]
    · simp [noWrite, writeInHand]
    · simpa [noRead] using intact.closed
  | dropped | gathered => exact ⟨intact.order, intact.history, intact.count, intact.closed,
      intact.readEnd, intact.writeEnd, intact.asked⟩
  | startRead created =>
    refine intact.kept ?_ rfl rfl rfl rfl ?_ (by simp) id id
    · simp [upstream, created, readInHand]
    · simpa [created] using intact.closed
  | startWrite created =>
    refine intact.kept rfl rfl ?_ rfl rfl intact.closed intact.readEnd (by simp) id
    simp [created, writeInHand]
  | read n reading kept positive small available =>
    refine intact.kept ?_ rfl rfl rfl ?_ ?_ (by simp) id id
    · simp [upstream, reading, readInHand]
    · simp [List.append_assoc]
    · simpa [reading] using intact.closed
  | eof reading kept ended =>
    refine intact.kept ?_ rfl rfl rfl rfl ?_ (fun _ => ended) id id
    · simp [upstream, reading, readInHand]
    · simpa [reading] using intact.closed
  | put data putting =>
    have opened : f.queue.closed = false := by
      by_contra shut
      simpa [putting] using intact.closed (Bool.eq_true_of_not_eq_false shut)
    refine intact.kept ?_ rfl (writeInHand_notify _) rfl rfl ?_ (by simp)
      (notify_finished _).mp id
    · simp [upstream, queued_put opened (room rfl) data, putting, readInHand]
    · simp [CircularQueue.put_closed, opened]
  | close closing kept =>
    refine intact.kept ?_ rfl (writeInHand_notify _) rfl rfl (fun _ => rfl)
      (fun _ => intact.readEnd (.inl closing)) (notify_finished _).mp id
    simp [upstream, closing, readInHand]
  | getWaits getting kept got =>
    refine intact.kept rfl rfl ?_ rfl rfl intact.closed intact.readEnd (by simp) id
    simp [getting, writeInHand]
  | getNone getting kept got =>
    obtain ⟨empty, shut⟩ := CircularQueue.get_none.mp got
    have ended := intact.closed shut
    have drained : upstream f = [] := upstream_nil.mpr
      ⟨queued_empty empty, by rw [ended]; rfl, intact.readEnd (.inr ended)⟩
    refine ⟨?_, intact.history, intact.count, intact.closed, intact.readEnd, fun _ => drained,
      intact.asked⟩
    simpa [getting, writeInHand, upstream] using intact.order
  | getItem data rest getting kept got =>
    have shrunk :
        upstream f = data ++ upstream { f with writeTask := .writing data, queue := rest } := by
      simp [upstream, queued_get got]
    have order := intact.order
    rw [getting, shrunk] at order
    refine ⟨?_, intact.history, intact.count, ?_, intact.readEnd, by simp, ?_⟩
    · simpa [writeInHand] using order
    · change rest.closed = true → f.readTask = .finished
      rw [(CircularQueue.get_item got).2]
      exact intact.closed
    · intro wanted
      have none := intact.asked wanted
      rw [shrunk] at none
      exact (List.append_eq_nil_iff.mp none).2
  | write data writing =>
    have order := intact.order
    rw [writing] at order
    refine ⟨?_, intact.history, ?_, intact.closed, intact.readEnd, by simp, intact.asked⟩
    · simpa [writeInHand, upstream] using order
    · rw [intact.count, List.length_append]
  | cancelReading wanted awaits =>
    refine intact.readStops wanted rfl fun shut => ?_
    rcases awaits with here | ⟨data, here⟩ <;> simp [intact.closed shut] at here
  | cancelRead wanted awaits => exact intact.readStops wanted rfl fun _ => rfl
  | cancelWrite wanted awaits =>
    have drained := intact.asked (.inr (.inr wanted))
    have empty : writeInHand f.writeTask = [] := by
      rcases awaits with here | here | here <;> rw [here] <;> rfl
    have order := intact.order
    rw [empty] at order
    exact ⟨order, intact.history, intact.count, intact.closed, intact.readEnd, fun _ => drained,
      fun _ => drained⟩

theorem intact_prefix {stream : Bytes} {f : Forward} (intact : Intact stream f) :
    f.written <+: f.bytesRead := by
  have both : f.written ++ writeInHand f.writeTask ++ (queued f.queue ++ readInHand f.readTask)
      ++ f.unread = f.bytesRead ++ f.unread := by
    rw [intact.history, ← intact.order, upstream]
    simp only [List.append_assoc]
  have reads := List.append_cancel_right both
  exact ⟨writeInHand f.writeTask ++ (queued f.queue ++ readInHand f.readTask), by
    rw [← reads, List.append_assoc]⟩

theorem intact_finished {stream : Bytes} {f : Forward} (intact : Intact stream f)
    (readDone : f.readTask = .finished) (writeDone : f.writeTask = .finished) :
    f.bytesRead = stream ∧ f.written = stream := by
  have allRead := intact.readEnd (.inr readDone)
  have drained := intact.writeEnd writeDone
  have history := intact.history
  have order := intact.order
  simp only [allRead, List.append_nil] at history
  simp only [writeDone, writeInHand, drained, List.append_nil] at order
  exact ⟨history, order⟩

theorem init_intact (stream : Bytes) : Intact stream (init stream) :=
  create_intact (absent_intact stream)

theorem roomy_intact {stream : Bytes} {f : Forward} {acts : List Act}
    (reached : Runs.run step (init stream) acts = some f)
    (roomy : Runs.Along step (fun f a => faultless a = true ∧ PutHasRoom f a) (init stream) acts) :
    Intact stream f := by
  have both : Lifecycle f ∧ Intact stream f := by
    refine Runs.invariant_along (fun f => Lifecycle f ∧ Intact stream f) ?_
      ⟨init_lifecycle stream, init_intact stream⟩ roomy reached
    rintro f a g ⟨life, intact⟩ ⟨fine, room⟩ stepped
    exact ⟨step_lifecycle life stepped, step_intact life intact fine room stepped⟩
  exact both.2

theorem roomy_run_intact {stream : Bytes} {f : Forward} {acts : List Act}
    (fine : ∀ a ∈ acts, faultless a = true) (reached : Runs.run step (init stream) acts = some f)
    (room : Runs.Along step PutHasRoom (init stream) acts) : Intact stream f :=
  roomy_intact reached
    (Runs.along_and.mpr ⟨Runs.along_of_actions (faultless · = true) fine, room⟩)

end Lossless
