import MigrationTransport.ByteStream
import MigrationTransport.TcpProxy.CircularQueue

/-!
`forward_data` of the TCP proxy, which is the same text in the server and in the
client: `read_task` and `write_task` joined by a `CircularQueue` of 1000 chunks
and awaited through `gather`. One action is one stretch between two awaits of one
task, so a list of actions is one interleaving. Cancellation is asked for by
`cancel` and reaches a task only at an await, as `CancelledError` does.
-/
namespace ForwardData
open ByteStream

inductive TaskPc where
  | absent
  | created
  | gathering
  | finished
  deriving DecidableEq

inductive ReadPc where
  | absent
  | created
  | reading
  | putting (data : Bytes)
  | closing
  | finished
  deriving DecidableEq

/-- `getting` is a `get` about to look at the queue, first or woken; `parked` is one
    inside `not_empty.wait()` that nobody has notified. -/
inductive WritePc where
  | absent
  | created
  | getting
  | parked
  | writing (data : Bytes)
  | finished
  deriving DecidableEq

/-- `queue = CircularQueue(maxsize=1000)` -/
def queueSize : Nat := 1000

/-- The bytes the peer sends before its EOF are `bytesRead ++ unread`; `bytesRead`
    and `written` are the histories of `reader.read` and of `writer.write`. -/
structure Forward where
  task : TaskPc
  readTask : ReadPc
  writeTask : WritePc
  cancelled : Bool
  readCancelled : Bool
  writeCancelled : Bool
  unread : Bytes
  bytesRead : Bytes
  queue : CircularQueue Bytes queueSize
  written : Bytes
  totalBytes : Nat
  progress : List Nat
  deriving DecidableEq

inductive Act where
  | start
  | dropped
  | startRead
  | startWrite
  | read (n : Nat)
  | eof
  | readRaises
  | put
  | close
  | get
  | write
  | writeRaises
  | cancelRead
  | cancelWrite
  | gathered
  deriving DecidableEq

def absent (stream : Bytes) : Forward where
  task := .absent
  readTask := .absent
  writeTask := .absent
  cancelled := false
  readCancelled := false
  writeCancelled := false
  unread := stream
  bytesRead := []
  queue := .new
  written := []
  totalBytes := 0
  progress := []

def create (f : Forward) : Forward := { f with task := .created }

def init (stream : Bytes) : Forward := create (absent stream)

/-- Both `notify` and `notify_all`, since only `write_task` ever waits. -/
def notify : WritePc → WritePc
  | .parked => .getting
  | pc => pc

/-- `task.cancel()` on `forward_data`: before its first step the request stays with it,
    afterwards `gather` passes it to the tasks that still run. -/
def cancel (f : Forward) : Forward :=
  match f.task with
  | .absent | .finished => f
  | .created => { f with cancelled := true }
  | .gathering =>
    { f with
      cancelled := true
      readCancelled := f.readCancelled || decide (f.readTask ≠ .finished)
      writeCancelled := f.writeCancelled || decide (f.writeTask ≠ .finished) }

def step (f : Forward) : Act → Option Forward
  | .start =>
    if f.task = .created ∧ f.cancelled = false then
      some { f with task := .gathering, readTask := .created, writeTask := .created }
    else none
  | .dropped =>
    if f.task = .created ∧ f.cancelled = true then some { f with task := .finished } else none
  | .startRead =>
    if f.readTask = .created ∧ f.readCancelled = false then
      some { f with readTask := .reading }
    else none
  | .startWrite =>
    if f.writeTask = .created ∧ f.writeCancelled = false then
      some { f with writeTask := .getting }
    else none
  | .read n =>
    if f.readTask = .reading ∧ f.readCancelled = false ∧ 0 < n ∧ n ≤ readSize ∧
        n ≤ f.unread.length then
      some { f with
        readTask := .putting (f.unread.take n)
        unread := f.unread.drop n
        bytesRead := f.bytesRead ++ f.unread.take n }
    else none
  | .eof =>
    if f.readTask = .reading ∧ f.readCancelled = false ∧ f.unread = [] then
      some { f with readTask := .closing }
    else none
  | .readRaises =>
    if f.readTask = .reading ∧ f.readCancelled = false then
      some { f with readTask := .closing }
    else none
  | .put =>
    match f.readTask with
    | .putting data =>
      if f.readCancelled then none
      else some { f with
        readTask := .reading
        queue := f.queue.put data
        writeTask := notify f.writeTask }
    | _ => none
  | .close =>
    if f.readTask = .closing ∧ f.readCancelled = false then
      some { f with
        readTask := .finished
        queue := f.queue.close
        writeTask := notify f.writeTask }
    else none
  | .get =>
    if f.writeTask = .getting ∧ f.writeCancelled = false then
      match f.queue.get with
      | .wait => some { f with writeTask := .parked }
      | .none => some { f with writeTask := .finished }
      | .item data rest => some { f with writeTask := .writing data, queue := rest }
    else none
  | .write =>
    match f.writeTask with
    | .writing data =>
      some { f with
        writeTask := .getting
        written := f.written ++ data
        totalBytes := f.totalBytes + data.length
        progress := logProgress f.progress (f.totalBytes + data.length) }
    | _ => none
  | .writeRaises =>
    match f.writeTask with
    | .writing _ => some { f with writeTask := .finished }
    | _ => none
  | .cancelRead =>
    if f.readCancelled then
      match f.readTask with
      | .reading | .putting _ => some { f with readTask := .closing, readCancelled := false }
      | .created | .closing => some { f with readTask := .finished, readCancelled := false }
      | .absent | .finished => none
    else none
  | .cancelWrite =>
    if f.writeCancelled then
      match f.writeTask with
      | .created | .getting | .parked =>
        some { f with writeTask := .finished, writeCancelled := false }
      | .absent | .writing _ | .finished => none
    else none
  | .gathered =>
    if f.task = .gathering ∧ f.readTask = .finished ∧ f.writeTask = .finished then
      some { f with task := .finished }
    else none

inductive Effect (f : Forward) : Act → Forward → Prop where
  | start (created : f.task = .created) (kept : f.cancelled = false) :
      Effect f .start
        { f with task := .gathering, readTask := .created, writeTask := .created }
  | dropped (created : f.task = .created) (wanted : f.cancelled = true) :
      Effect f .dropped { f with task := .finished }
  | startRead (created : f.readTask = .created) (kept : f.readCancelled = false) :
      Effect f .startRead { f with readTask := .reading }
  | startWrite (created : f.writeTask = .created) (kept : f.writeCancelled = false) :
      Effect f .startWrite { f with writeTask := .getting }
  | read (n : Nat) (reading : f.readTask = .reading) (kept : f.readCancelled = false)
      (positive : 0 < n) (small : n ≤ readSize) (available : n ≤ f.unread.length) :
      Effect f (.read n) { f with
        readTask := .putting (f.unread.take n)
        unread := f.unread.drop n
        bytesRead := f.bytesRead ++ f.unread.take n }
  | eof (reading : f.readTask = .reading) (kept : f.readCancelled = false)
      (ended : f.unread = []) : Effect f .eof { f with readTask := .closing }
  | readRaises (reading : f.readTask = .reading) (kept : f.readCancelled = false) :
      Effect f .readRaises { f with readTask := .closing }
  | put (data : Bytes) (putting : f.readTask = .putting data) (kept : f.readCancelled = false) :
      Effect f .put { f with
        readTask := .reading, queue := f.queue.put data, writeTask := notify f.writeTask }
  | close (closing : f.readTask = .closing) (kept : f.readCancelled = false) :
      Effect f .close { f with
        readTask := .finished, queue := f.queue.close, writeTask := notify f.writeTask }
  | getWaits (getting : f.writeTask = .getting) (kept : f.writeCancelled = false)
      (got : f.queue.get = .wait) : Effect f .get { f with writeTask := .parked }
  | getNone (getting : f.writeTask = .getting) (kept : f.writeCancelled = false)
      (got : f.queue.get = .none) : Effect f .get { f with writeTask := .finished }
  | getItem (data : Bytes) (rest : CircularQueue Bytes queueSize)
      (getting : f.writeTask = .getting) (kept : f.writeCancelled = false)
      (got : f.queue.get = .item data rest) :
      Effect f .get { f with writeTask := .writing data, queue := rest }
  | write (data : Bytes) (writing : f.writeTask = .writing data) :
      Effect f .write { f with
        writeTask := .getting
        written := f.written ++ data
        totalBytes := f.totalBytes + data.length
        progress := logProgress f.progress (f.totalBytes + data.length) }
  | writeRaises (data : Bytes) (writing : f.writeTask = .writing data) :
      Effect f .writeRaises { f with writeTask := .finished }
  | cancelReading (wanted : f.readCancelled = true)
      (awaits : f.readTask = .reading ∨ ∃ data, f.readTask = .putting data) :
      Effect f .cancelRead { f with readTask := .closing, readCancelled := false }
  | cancelRead (wanted : f.readCancelled = true)
      (awaits : f.readTask = .created ∨ f.readTask = .closing) :
      Effect f .cancelRead { f with readTask := .finished, readCancelled := false }
  | cancelWrite (wanted : f.writeCancelled = true)
      (awaits : f.writeTask = .created ∨ f.writeTask = .getting ∨ f.writeTask = .parked) :
      Effect f .cancelWrite { f with writeTask := .finished, writeCancelled := false }
  | gathered (gathering : f.task = .gathering) (readDone : f.readTask = .finished)
      (writeDone : f.writeTask = .finished) : Effect f .gathered { f with task := .finished }

theorem step_effect {f g : Forward} {a : Act} (stepped : step f a = some g) : Effect f a g := by
  cases a with
  | put =>
    simp only [step] at stepped
    split at stepped
    · rename_i data putting
      simp only [Option.ite_none_left_eq_some, Option.some.injEq, Bool.not_eq_true] at stepped
      obtain ⟨kept, rfl⟩ := stepped
      exact .put data putting kept
    · simp at stepped
  | write | writeRaises =>
    simp only [step] at stepped
    split at stepped <;> simp only [Option.some.injEq, reduceCtorEq] at stepped
    subst stepped
    constructor
    assumption
  | get =>
    simp only [step, Option.ite_none_right_eq_some] at stepped
    obtain ⟨⟨getting, kept⟩, stepped⟩ := stepped
    split at stepped <;> (rw [Option.some.injEq] at stepped; subst stepped)
    · exact .getWaits getting kept ‹_›
    · exact .getNone getting kept ‹_›
    · exact .getItem _ _ getting kept ‹_›
  | cancelRead =>
    simp only [step, Option.ite_none_right_eq_some] at stepped
    obtain ⟨wanted, stepped⟩ := stepped
    split at stepped <;> simp only [Option.some.injEq, reduceCtorEq] at stepped
    all_goals subst stepped
    · exact .cancelReading wanted (.inl ‹_›)
    · exact .cancelReading wanted (.inr ⟨_, ‹_›⟩)
    · exact .cancelRead wanted (.inl ‹_›)
    · exact .cancelRead wanted (.inr ‹_›)
  | cancelWrite =>
    simp only [step, Option.ite_none_right_eq_some] at stepped
    obtain ⟨wanted, stepped⟩ := stepped
    split at stepped <;> simp only [Option.some.injEq, reduceCtorEq] at stepped
    all_goals
      rename_i here
      subst stepped
      exact .cancelWrite wanted (by simp [here])
  | read n =>
    simp only [step, Option.ite_none_right_eq_some, Option.some.injEq] at stepped
    obtain ⟨⟨reading, kept, positive, small, available⟩, rfl⟩ := stepped
    exact .read n reading kept positive small available
  | eof | gathered =>
    simp only [step, Option.ite_none_right_eq_some, Option.some.injEq] at stepped
    obtain ⟨⟨first, second, third⟩, rfl⟩ := stepped
    constructor <;> assumption
  | _ =>
    simp only [step, Option.ite_none_right_eq_some, Option.some.injEq] at stepped
    obtain ⟨⟨first, second⟩, rfl⟩ := stepped
    constructor <;> assumption

/-- The two tasks exist only once `forward_data` has started, and it does not end
    before them unless it was cancelled before its first step. -/
structure Lifecycle (f : Forward) : Prop where
  idle : f.task = .absent ∨ f.task = .created → f.readTask = .absent ∧ f.writeTask = .absent
  ended : f.task = .finished → (f.readTask = .finished ∧ f.writeTask = .finished) ∨
    (f.readTask = .absent ∧ f.writeTask = .absent ∧ f.cancelled = true)

@[simp] theorem notify_finished (pc : WritePc) : notify pc = .finished ↔ pc = .finished := by
  cases pc <;> simp [notify]

@[simp] theorem notify_absent (pc : WritePc) : notify pc = .absent ↔ pc = .absent := by
  cases pc <;> simp [notify]

theorem absent_lifecycle (stream : Bytes) : Lifecycle (absent stream) := by
  constructor <;> simp [absent]

theorem create_lifecycle {f : Forward} (fresh : f.task = .absent) (life : Lifecycle f) :
    Lifecycle (create f) :=
  ⟨fun _ => life.idle (.inl fresh), by simp [create]⟩

theorem init_lifecycle (stream : Bytes) : Lifecycle (init stream) :=
  create_lifecycle rfl (absent_lifecycle stream)

theorem cancel_lifecycle {f : Forward} (life : Lifecycle f) : Lifecycle (cancel f) := by
  obtain ⟨idle, ended⟩ := life
  unfold cancel
  split <;> constructor <;> simp_all

@[simp] theorem cancel_task (f : Forward) : (cancel f).task = f.task := by
  unfold cancel
  split <;> rfl

theorem step_lifecycle {f g : Forward} {a : Act} (life : Lifecycle f)
    (stepped : step f a = some g) : Lifecycle g := by
  obtain ⟨idle, ended⟩ := life
  cases step_effect stepped with
  | cancelReading wanted awaits =>
    rcases awaits with here | ⟨data, here⟩ <;> constructor <;> simp_all
  | cancelRead wanted awaits =>
    rcases awaits with here | here <;> constructor <;> simp_all
  | cancelWrite wanted awaits =>
    rcases awaits with here | here | here <;> constructor <;> simp_all
  | _ => constructor <;> simp_all

/-- A task that was cancelled but has ended, or never existed, is not running. -/
abbrev ReadPc.Running (pc : ReadPc) : Prop := pc ≠ .absent ∧ pc ≠ .finished

abbrev WritePc.Running (pc : WritePc) : Prop := pc ≠ .absent ∧ pc ≠ .finished

def AtRest (f : Forward) : Prop := f.task = .absent ∨ f.task = .finished

theorem rest_stops_tasks {f : Forward} (life : Lifecycle f) (rest : AtRest f) :
    ¬ f.readTask.Running ∧ ¬ f.writeTask.Running := by
  rcases rest with never | done
  · obtain ⟨noRead, noWrite⟩ := life.idle (.inl never)
    simp [noRead, noWrite]
  · rcases life.ended done with ⟨readDone, writeDone⟩ | ⟨noRead, noWrite, _⟩
    · simp [readDone, writeDone]
    · simp [noRead, noWrite]

theorem step_at_rest {f g : Forward} {a : Act} (rest : AtRest f) (stepped : step f a = some g) :
    g.task = f.task := by
  have moving : f.task ≠ .created ∧ f.task ≠ .gathering := by
    rcases rest with here | here <;> simp [here]
  cases step_effect stepped with
  | start created => exact absurd created moving.1
  | dropped created => exact absurd created moving.1
  | gathered gathering => exact absurd gathering moving.2
  | _ => rfl

end ForwardData
