import MigrationTransport.Lib.DropOldestFifo
import MigrationTransport.Lib.OrderedDict
import MigrationTransport.TcpProxy.Chunks
import MigrationTransport.TcpProxy.Eviction
import MigrationTransport.TcpProxy.Session

/-!
`read_histogram`, the one map that all connections of a proxy count their reads in. A
proxy accepts any number of connections, and the tasks of all their `forward_data` calls
interleave.
-/
namespace Histogram
open ByteStream ForwardData Lossless Chunks ProxySession

/-- `evicted` counts the bytes that the queue of each call has dropped. Connections are
    numbered in the order in which they are accepted. -/
structure Proxy where
  sessions : Nat → Session
  accepted : Nat
  readHistogram : OrderedDict Nat Nat
  evicted : Nat → Direction → Nat

def nothing : Direction → Bytes := fun _ => []

def start : Proxy where
  sessions _ := ProxySession.init nothing
  accepted := 0
  readHistogram := .empty
  evicted _ _ := 0

inductive Act where
  | accept (stream : Direction → Bytes)
  | session (i : Nat) (a : ProxySession.Act)

/-- `self.read_histogram[bytes_read] += 1` on a `defaultdict(int)`. -/
def countRead (histogram : OrderedDict Nat Nat) (bytesRead : Nat) : OrderedDict Nat Nat :=
  histogram.set bytesRead ((histogram.get bytesRead).getD 0 + 1)

def evictedBytes (f : Forward) : Nat :=
  (DropOldestFifo.overflow queueSize f.queue.items (readInHand f.readTask)).flatten.length

def noteEvicted (p : Proxy) (i : Nat) (d : Direction) : Nat → Direction → Nat :=
  Function.update p.evicted i (Function.update (p.evicted i) d
    (p.evicted i d + evictedBytes ((p.sessions i).forward d)))

/-- What a step of a session means to the proxy. `read n` is a read of `n` bytes. -/
def note (p : Proxy) (i : Nat) (t : Session) : ProxySession.Act → Proxy
  | .forward _ (.read n) =>
    { p with
      sessions := Function.update p.sessions i t
      readHistogram := countRead p.readHistogram n }
  | .forward d .put =>
    { p with sessions := Function.update p.sessions i t, evicted := noteEvicted p i d }
  | _ => { p with sessions := Function.update p.sessions i t }

def acceptOne (p : Proxy) (stream : Direction → Bytes) : Proxy :=
  { p with
    sessions := Function.update p.sessions p.accepted (ProxySession.init stream)
    accepted := p.accepted + 1
    evicted := Function.update p.evicted p.accepted fun _ => 0 }

def step (e : Endpoint) (p : Proxy) : Act → Option Proxy
  | .accept stream => some (acceptOne p stream)
  | .session i a =>
    if i < p.accepted then
      (ProxySession.step e (p.sessions i) a).map fun t => note p i t a
    else none

/-- No `CancelledError` reaches a task, and no write raises. -/
def undisturbed : Act → Bool
  | .session _ (.forward _ a) =>
    match a with
    | .cancelRead | .cancelWrite | .writeRaises => false
    | _ => true
  | _ => true

def isRead : Act → Bool
  | .session _ (.forward _ (.read _)) => true
  | _ => false

/-- `sum(self.read_histogram.values())` -/
def totalReads (histogram : OrderedDict Nat Nat) : Nat := histogram.total fun _ count => count

def totalSize (histogram : OrderedDict Nat Nat) : Nat :=
  histogram.total fun size count => size * count

theorem count_read_total (histogram : OrderedDict Nat Nat) (bytesRead : Nat) :
    totalReads (countRead histogram bytesRead) = totalReads histogram + 1 := by
  have counted := histogram.total_set (fun _ count => count) bytesRead
    ((histogram.get bytesRead).getD 0 + 1)
  rw [totalReads, totalReads, countRead]
  cases held : histogram.get bytesRead with
  | none => simpa [held] using counted
  | some count =>
    simp only [held, Option.map_some, Option.getD_some] at counted ⊢
    omega

theorem count_read_size (histogram : OrderedDict Nat Nat) (bytesRead : Nat) :
    totalSize (countRead histogram bytesRead) = totalSize histogram + bytesRead := by
  have counted := histogram.total_set (fun size count => size * count) bytesRead
    ((histogram.get bytesRead).getD 0 + 1)
  rw [totalSize, totalSize, countRead]
  cases held : histogram.get bytesRead with
  | none => simpa [held] using counted
  | some count =>
    simp only [held, Option.map_some, Option.getD_some, Nat.mul_succ] at counted ⊢
    omega

/-- The bytes that a call has read and not dropped: counted, queued, or in hand. -/
def account (f : Forward) : Nat :=
  f.totalBytes + (queued f.queue).length + (readInHand f.readTask).length +
    (writeInHand f.writeTask).length

structure Settled (f : Forward) : Prop where
  closed : f.queue.closed = true → f.readTask = .finished
  unborn : f.writeTask = .absent → f.readTask = .absent ∧ f.queue.items = []
  ended : f.writeTask = .finished → f.queue.closed = true ∧ f.queue.items = []

theorem absent_settled (stream : Bytes) : Settled (absent stream) := by
  constructor <;> simp [absent]

theorem create_settled {f : Forward} (settled : Settled f) : Settled (create f) :=
  ⟨settled.closed, settled.unborn, settled.ended⟩

theorem cancel_settled {f : Forward} (settled : Settled f) : Settled (cancel f) := by
  obtain ⟨closed, unborn, ended⟩ := settled
  unfold cancel
  split <;> exact ⟨closed, unborn, ended⟩

@[simp] theorem absent_account (stream : Bytes) : account (absent stream) = 0 := by
  simp [account, absent, readInHand, writeInHand]

@[simp] theorem create_account (f : Forward) : account (create f) = account f := rfl

@[simp] theorem cancel_account (f : Forward) : account (cancel f) = account f := by
  unfold cancel
  split <;> rfl

/-- What a `put` drops and what it leaves are together what was there. -/
theorem put_parts {maxsize : Nat} {q : CircularQueue Bytes maxsize} (opened : q.closed = false)
    (data : Bytes) :
    DropOldestFifo.overflow maxsize q.items data ++ (q.put data).items = q.items ++ [data] := by
  simp only [CircularQueue.put, opened, Bool.false_eq_true, if_false]
  exact List.take_append_drop _ _

theorem put_conserves {q : CircularQueue Bytes queueSize} (opened : q.closed = false)
    (data : Bytes) :
    (queued (q.put data)).length +
        (DropOldestFifo.overflow queueSize q.items data).flatten.length =
      (queued q).length + data.length := by
  have whole := congrArg (fun chunks => chunks.flatten.length) (put_parts opened data)
  simp only [List.flatten_append, List.length_append, List.flatten_cons, List.flatten_nil,
    List.length_nil] at whole
  simp only [queued]
  omega

theorem settled_open {f : Forward} (settled : Settled f) (running : f.readTask ≠ .finished) :
    f.queue.closed = false := by
  by_contra shut
  exact running (settled.closed (by simpa using shut))

/-- No `CancelledError` and no exception in `write`. -/
def calm : ForwardData.Act → Bool
  | .cancelRead | .cancelWrite | .writeRaises => false
  | _ => true

def gained : ForwardData.Act → Nat
  | .read n => n
  | _ => 0

def dropped (f : Forward) : ForwardData.Act → Nat
  | .put => evictedBytes f
  | _ => 0

theorem step_settled {f g : Forward} {a : ForwardData.Act} (life : Lifecycle f)
    (settled : Settled f) (fine : calm a = true) (stepped : ForwardData.step f a = some g) :
    Settled g := by
  have opened : f.readTask ≠ .finished → f.queue.closed = false := settled_open settled
  obtain ⟨closed, unborn, ended⟩ := settled
  cases ForwardData.step_effect stepped with
  | cancelReading | cancelRead | cancelWrite | writeRaises => simp [calm] at fine
  | start created =>
    obtain ⟨noRead, noWrite⟩ := life.idle (.inr created)
    exact ⟨by simp [opened (by simp [noRead])], by simp, by simp⟩
  | startRead here =>
    have never : f.writeTask ≠ .absent := fun absent => by simp [(unborn absent).1] at here
    exact ⟨by simp [opened (by simp [here])], fun absent => absurd absent never, ended⟩
  | startWrite here => exact ⟨closed, by simp, by simp⟩
  | read n here | eof here | readRaises here =>
    have never : f.writeTask ≠ .absent := fun absent => by simp [(unborn absent).1] at here
    exact ⟨by simp [opened (by simp [here])], fun absent => absurd absent never, ended⟩
  | put data putting =>
    have stillOpen := opened (by simp [putting])
    refine ⟨by simp [stillOpen], ?_, ?_⟩
    · intro absent
      simp [(unborn ((notify_absent _).mp absent)).1] at putting
    · intro done
      simp [(ended ((notify_finished _).mp done)).1] at stillOpen
  | close here =>
    refine ⟨fun _ => rfl, ?_, fun done => ⟨rfl, (ended ((notify_finished _).mp done)).2⟩⟩
    intro absent
    simp [(unborn ((notify_absent _).mp absent)).1] at here
  | getWaits => exact ⟨closed, by simp, by simp⟩
  | getNone getting kept got =>
    obtain ⟨emptied, shut⟩ := CircularQueue.get_none.mp got
    exact ⟨closed, by simp, fun _ => ⟨shut, emptied⟩⟩
  | getItem data rest getting kept got =>
    obtain ⟨content, sameFlag⟩ := CircularQueue.get_item got
    exact ⟨by simpa [sameFlag] using closed, by simp, by simp⟩
  | write => exact ⟨closed, by simp, by simp⟩
  | dropped | gathered => exact ⟨closed, unborn, ended⟩

/-- Bytes enter a call by a read and leave it by an eviction. -/
theorem step_account {f g : Forward} {a : ForwardData.Act} (life : Lifecycle f)
    (settled : Settled f) (fine : calm a = true) (stepped : ForwardData.step f a = some g) :
    account g + dropped f a = account f + gained a := by
  cases ForwardData.step_effect stepped with
  | cancelReading | cancelRead | cancelWrite | writeRaises => simp [calm] at fine
  | start created =>
    obtain ⟨noRead, noWrite⟩ := life.idle (.inr created)
    simp [account, dropped, gained, noRead, noWrite, readInHand, writeInHand]
  | startRead here | eof here | readRaises here =>
    simp [account, dropped, gained, here, readInHand]
  | startWrite here | getWaits here | getNone here =>
    simp [account, dropped, gained, here, writeInHand]
  | read n here kept positive small available =>
    simp only [account, dropped, gained, here, readInHand, List.length_take_of_le available,
      List.length_nil]
    omega
  | put data putting =>
    have conserved := put_conserves (settled_open settled (by simp [putting])) data
    simp only [account, dropped, gained, evictedBytes, putting, readInHand, writeInHand_notify,
      List.length_nil]
    omega
  | close here => simp [account, dropped, gained, here, readInHand]
  | getItem data rest getting kept got =>
    simp only [account, dropped, gained, getting, writeInHand, queued_get got,
      List.length_append, List.length_nil]
    omega
  | write data writing =>
    simp only [account, dropped, gained, writing, writeInHand, List.length_nil]
    omega
  | dropped | gathered => rfl

/-- What a step of a session does to its two calls, but for the steps of the calls. -/
inductive Touched (f : Forward) : Forward → Prop where
  | kept : Touched f f
  | created (fresh : f.task = .absent) : Touched f (create f)
  | cancelled : Touched f (cancel f)

theorem touched_settled {f g : Forward} (settled : Settled f) (touched : Touched f g) :
    Settled g := by
  cases touched with
  | kept => exact settled
  | created => exact create_settled settled
  | cancelled => exact cancel_settled settled

theorem touched_account {f g : Forward} (touched : Touched f g) : account g = account f := by
  cases touched with
  | kept => rfl
  | created => rfl
  | cancelled => exact cancel_account f

theorem cancel_forward_touched (s : Session) (d other : Direction) :
    Touched (s.forward other) ((cancelForward s d).forward other) := by
  by_cases same : other = d
  · subst same
    simpa [cancelForward] using Touched.cancelled
  · simpa [cancelForward, same] using Touched.kept

theorem step_forwards {e : Endpoint} {s t : Session} {a : ProxySession.Act}
    (orderly : Orderly s) (stepped : ProxySession.step e s a = some t) :
    (∃ d x g, a = .forward d x ∧ ForwardData.step (s.forward d) x = some g ∧
      t.forward = Function.update s.forward d g) ∨
    (∀ d x, a ≠ .forward d x) ∧ ∀ d, Touched (s.forward d) (t.forward d) := by
  cases ProxySession.step_effect stepped with
  | forward d moved => exact .inl ⟨d, _, _, rfl, moved, rfl⟩
  | connected connecting =>
    exact .inr ⟨by simp, fun d => .created ((orderly.connecting connecting).2 d)⟩
  | connectRaises | bothDone | joined =>
    exact .inr ⟨by simp, fun d => enterFinally_forward s ▸ .kept⟩
  | cancelTrying =>
    exact .inr ⟨by simp, fun d => by rw [cancelTry, enterFinally_forward]; exact .kept⟩
  | oneDone d => exact .inr ⟨by simp, cancel_forward_touched s d⟩
  | cancelJoining d => exact .inr ⟨by simp, cancel_forward_touched s d⟩
  | closedOpened | closedAccepted | waitClosedRaises | cancelClosing =>
    exact .inr ⟨by simp, fun d => .kept⟩

/-- Between two tasks' steps no chunk is on its way into or out of the queue. -/
def NothingInHand (f : Forward) : Prop :=
  (∀ data, f.readTask ≠ .putting data) ∧ ∀ data, f.writeTask ≠ .writing data

def Ended (f : Forward) : Prop := ¬ f.readTask.Running ∧ ¬ f.writeTask.Running

theorem nothing_account {f : Forward} (nothing : NothingInHand f) :
    account f = f.totalBytes + (queued f.queue).length := by
  obtain ⟨reader, writer⟩ := nothing
  have noRead : readInHand f.readTask = [] := by
    cases here : f.readTask with
    | putting data => exact absurd here (reader data)
    | _ => rfl
  have noWrite : writeInHand f.writeTask = [] := by
    cases here : f.writeTask with
    | writing data => exact absurd here (writer data)
    | _ => rfl
  simp [account, noRead, noWrite]

theorem ended_account {f : Forward} (settled : Settled f) (ended : Ended f) :
    account f = f.totalBytes := by
  obtain ⟨reader, writer⟩ := ended
  have nothing : NothingInHand f := by
    constructor
    · exact fun data here => reader (by simp [here, ReadPc.Running])
    · exact fun data here => writer (by simp [here, WritePc.Running])
  have emptied : f.queue.items = [] := by
    by_cases unborn : f.writeTask = .absent
    · exact (settled.unborn unborn).2
    · by_cases done : f.writeTask = .finished
      · exact (settled.ended done).2
      · exact absurd ⟨unborn, done⟩ writer
  rw [nothing_account nothing, queued_empty emptied, List.length_nil, Nat.add_zero]

def ledger (p : Proxy) (i : Nat) : Nat :=
  ∑ d, (account ((p.sessions i).forward d) + p.evicted i d)

theorem sum_change {Index : Type} [DecidableEq Index] {s : Finset Index} {f g : Index → Nat}
    {i : Index} {n : Nat} (member : i ∈ s) (here : g i = f i + n)
    (others : ∀ j ∈ s, j ≠ i → g j = f j) : ∑ j ∈ s, g j = ∑ j ∈ s, f j + n := by
  have rest : ∑ j ∈ s.erase i, g j = ∑ j ∈ s.erase i, f j := by
    apply Finset.sum_congr rfl
    intro j inside
    exact others j (Finset.mem_of_mem_erase inside) (Finset.ne_of_mem_erase inside)
  rw [← Finset.add_sum_erase s g member, ← Finset.add_sum_erase s f member, rest, here]
  omega

@[simp] theorem note_sessions (p : Proxy) (i : Nat) (t : Session) (a : ProxySession.Act) :
    (note p i t a).sessions = Function.update p.sessions i t := by
  unfold note
  split <;> rfl

@[simp] theorem note_accepted (p : Proxy) (i : Nat) (t : Session) (a : ProxySession.Act) :
    (note p i t a).accepted = p.accepted := by
  unfold note
  split <;> rfl

theorem note_evicted (p : Proxy) (i : Nat) (t : Session) (d : Direction)
    (x : ForwardData.Act) : (note p i t (.forward d x)).evicted =
      Function.update p.evicted i (Function.update (p.evicted i) d
        (p.evicted i d + dropped ((p.sessions i).forward d) x)) := by
  cases x <;> simp [note, noteEvicted, dropped]

theorem note_size (p : Proxy) (i : Nat) (t : Session) (d : Direction) (x : ForwardData.Act) :
    totalSize (note p i t (.forward d x)).readHistogram =
      totalSize p.readHistogram + gained x := by
  cases x with
  | read n => exact count_read_size p.readHistogram n
  | _ => rfl

theorem note_reads (p : Proxy) (i : Nat) (t : Session) (a : ProxySession.Act) :
    totalReads (note p i t a).readHistogram =
      totalReads p.readHistogram + if isRead (.session i a) then 1 else 0 := by
  cases a with
  | forward d x =>
    cases x with
    | read n => exact count_read_total p.readHistogram n
    | _ => rfl
  | _ => rfl

theorem run_reads {e : Endpoint} {acts : List Act} {p q : Proxy}
    (reached : Runs.run (step e) p acts = some q) :
    totalReads q.readHistogram = totalReads p.readHistogram + acts.countP isRead := by
  induction acts generalizing p with
  | nil => simp [Runs.run_nil.mp reached]
  | cons act acts ih =>
    obtain ⟨t, first, later⟩ := Runs.run_cons.mp reached
    have counted : totalReads t.readHistogram =
        totalReads p.readHistogram + if isRead act then 1 else 0 := by
      cases act with
      | accept stream =>
        simp only [step, Option.some.injEq] at first
        simp [← first, isRead, acceptOne]
      | session i a =>
        simp only [step, Option.ite_none_right_eq_some, Option.map_eq_some_iff] at first
        obtain ⟨-, t, -, rfl⟩ := first
        exact note_reads p i t a
    rw [ih later, counted, List.countP_cons]
    omega

def SettledCalls (s : Session) : Prop := ∀ d, Settled (s.forward d)

structure Kept (p : Proxy) : Prop where
  orderly : ∀ i, Orderly (p.sessions i)
  settled : ∀ i, SettledCalls (p.sessions i)
  sizes : ∀ size ∈ p.readHistogram.keys, 1 ≤ size ∧ size ≤ readSize
  bytes : totalSize p.readHistogram = ∑ i ∈ Finset.range p.accepted, ledger p i

theorem start_kept : Kept start := by
  refine ⟨fun _ => init_orderly _, fun _ _ => absent_settled _, ?_, rfl⟩
  simp [start, OrderedDict.empty, OrderedDict.keys]

theorem update_all {Index Value : Type} [DecidableEq Index] {f : Index → Value} {i : Index}
    {value : Value} (keep : Value → Prop) (all : ∀ j, keep (f j)) (changed : keep value)
    (j : Index) : keep (Function.update f i value j) := by
  by_cases same : j = i
  · subst same
    simpa using changed
  · simpa [same] using all j

theorem accept_ledger (p : Proxy) (stream : Direction → Bytes) :
    ledger (acceptOne p stream) p.accepted = 0 ∧
      ∀ i ∈ Finset.range p.accepted, ledger (acceptOne p stream) i = ledger p i := by
  constructor
  · simp [ledger, acceptOne, ProxySession.init]
  · intro i earlier
    have different : i ≠ p.accepted := Nat.ne_of_lt (Finset.mem_range.mp earlier)
    simp [ledger, acceptOne, different]

theorem accept_kept {p : Proxy} (kept : Kept p) (stream : Direction → Bytes) :
    Kept (acceptOne p stream) := by
  obtain ⟨orderly, settled, sizes, bytes⟩ := kept
  obtain ⟨zero, same⟩ := accept_ledger p stream
  refine ⟨update_all Orderly orderly (init_orderly stream), ?_, sizes, ?_⟩
  · exact update_all SettledCalls settled fun d => absent_settled (stream d)
  · change totalSize p.readHistogram = ∑ i ∈ Finset.range (p.accepted + 1), _
    rw [Finset.sum_range_succ, zero, Finset.sum_congr rfl same, bytes, Nat.add_zero]

theorem forward_ledger {p : Proxy} {i : Nat} {t : Session} {d : Direction}
    {x : ForwardData.Act} {g : Forward}
    (calls : t.forward = Function.update (p.sessions i).forward d g)
    (accounted : account g + dropped ((p.sessions i).forward d) x =
      account ((p.sessions i).forward d) + gained x) :
    ledger (note p i t (.forward d x)) i = ledger p i + gained x ∧
      ∀ j, j ≠ i → ledger (note p i t (.forward d x)) j = ledger p j := by
  constructor
  · rw [ledger, ledger]
    apply sum_change (Finset.mem_univ d)
    · simp only [note_sessions, note_evicted, Function.update_self, calls]
      omega
    · intro other _ different
      simp [note_evicted, calls, different]
  · intro j different
    simp [ledger, note_evicted, different]

theorem touched_ledger {p q : Proxy} {i : Nat} {t : Session}
    (sessions : q.sessions = Function.update p.sessions i t) (evicted : q.evicted = p.evicted)
    (touched : ∀ d, Touched ((p.sessions i).forward d) (t.forward d)) (j : Nat) :
    ledger q j = ledger p j := by
  rw [ledger, ledger]
  apply Finset.sum_congr rfl
  intro d _
  by_cases same : j = i
  · subst same
    rw [sessions, evicted, Function.update_self, touched_account (touched d)]
  · rw [sessions, evicted, Function.update_of_ne same]

theorem note_sizes {p : Proxy} {i : Nat} {t : Session} {d : Direction} {x : ForwardData.Act}
    {f g : Forward} (sizes : ∀ size ∈ p.readHistogram.keys, 1 ≤ size ∧ size ≤ readSize)
    (moved : ForwardData.step f x = some g) :
    ∀ size ∈ (note p i t (.forward d x)).readHistogram.keys, 1 ≤ size ∧ size ≤ readSize := by
  intro size member
  cases ForwardData.step_effect moved with
  | read n reading kept positive small =>
    rcases (OrderedDict.keys_set _ _ _ _).mp member with old | rfl
    · exact sizes size old
    · exact ⟨positive, small⟩
  | _ => exact sizes size member

theorem session_kept {e : Endpoint} {p : Proxy} {i : Nat} {t : Session} {a : ProxySession.Act}
    (kept : Kept p) (fine : undisturbed (.session i a) = true) (inside : i < p.accepted)
    (stepped : ProxySession.step e (p.sessions i) a = some t) : Kept (note p i t a) := by
  obtain ⟨orderly, settled, sizes, bytes⟩ := kept
  have orderlyAfter : ∀ j, Orderly ((note p i t a).sessions j) := by
    rw [note_sessions]
    exact update_all Orderly orderly (step_orderly (orderly i) stepped)
  rcases step_forwards (orderly i) stepped with ⟨d, x, g, rfl, moved, calls⟩ | ⟨other, touched⟩
  · have calmStep : calm x = true := by
      cases x <;> simp_all [undisturbed, calm]
    have life := (orderly i).life d
    obtain ⟨here, elsewhere⟩ := forward_ledger calls
      (step_account life (settled i d) calmStep moved)
    refine ⟨orderlyAfter, ?_, note_sizes sizes moved, ?_⟩
    · rw [note_sessions]
      apply update_all SettledCalls settled
      rw [SettledCalls, calls]
      exact update_all Settled (settled i) (step_settled life (settled i d) calmStep moved)
    · rw [note_size, note_accepted, bytes]
      symm
      exact sum_change (Finset.mem_range.mpr inside) here fun j _ => elsewhere j
  · have same : note p i t a = { p with sessions := Function.update p.sessions i t } := by
      cases a with
      | forward d x => exact absurd rfl (other d x)
      | _ => rfl
    refine ⟨orderlyAfter, ?_, ?_, ?_⟩
    · rw [note_sessions]
      apply update_all SettledCalls settled
      exact fun d => touched_settled (settled i d) (touched d)
    · rwa [same]
    · have still := touched_ledger (note_sessions p i t a) (by rw [same]) touched
      rw [note_accepted, Finset.sum_congr rfl fun j _ => still j, same]
      exact bytes

theorem step_kept {e : Endpoint} {p q : Proxy} {act : Act} (kept : Kept p)
    (fine : undisturbed act = true) (stepped : step e p act = some q) : Kept q := by
  cases act with
  | accept stream =>
    simp only [step, Option.some.injEq] at stepped
    exact stepped ▸ accept_kept kept stream
  | session i a =>
    simp only [step, Option.ite_none_right_eq_some, Option.map_eq_some_iff] at stepped
    obtain ⟨inside, t, stepped, rfl⟩ := stepped
    exact session_kept kept fine inside stepped

theorem read_histogram_conserves {e : Endpoint} {acts : List Act} {p : Proxy}
    (calmRun : ∀ act ∈ acts, undisturbed act = true)
    (reached : Runs.run (step e) start acts = some p) :
    totalReads p.readHistogram = acts.countP isRead ∧
    (∀ size ∈ p.readHistogram.keys, 1 ≤ size ∧ size ≤ readSize) ∧
    ((∀ i < p.accepted, ∀ d, NothingInHand ((p.sessions i).forward d)) →
      totalSize p.readHistogram = ∑ i ∈ Finset.range p.accepted, ∑ d,
        (((p.sessions i).forward d).totalBytes +
          (queued ((p.sessions i).forward d).queue).length + p.evicted i d)) ∧
    ((∀ i < p.accepted, ∀ d, Ended ((p.sessions i).forward d)) →
      totalSize p.readHistogram -
          ∑ i ∈ Finset.range p.accepted, ∑ d, ((p.sessions i).forward d).totalBytes =
        ∑ i ∈ Finset.range p.accepted, ∑ d, p.evicted i d) := by
  have kept : Kept p := Runs.invariant_actions Kept (undisturbed · = true)
    (fun _ _ _ kept fine stepped => step_kept kept fine stepped) start_kept calmRun reached
  refine ⟨?_, kept.sizes, ?_, ?_⟩
  · rw [run_reads reached]
    exact Nat.zero_add _
  · intro nothing
    rw [kept.bytes]
    apply Finset.sum_congr rfl
    intro i inside
    apply Finset.sum_congr rfl
    intro d _
    rw [nothing_account (nothing i (Finset.mem_range.mp inside) d)]
  · intro ended
    have split : totalSize p.readHistogram =
        ∑ i ∈ Finset.range p.accepted, ∑ d, ((p.sessions i).forward d).totalBytes +
          ∑ i ∈ Finset.range p.accepted, ∑ d, p.evicted i d := by
      rw [kept.bytes, ← Finset.sum_add_distrib]
      apply Finset.sum_congr rfl
      intro i inside
      rw [ledger, ← Finset.sum_add_distrib]
      apply Finset.sum_congr rfl
      intro d _
      rw [ended_account (kept.settled i d) (ended i (Finset.mem_range.mp inside) d)]
    rw [split, Nat.add_sub_cancel_left]

/-- A run of one call, as a run of the proxy. -/
theorem forward_run {e : Endpoint} {p : Proxy} {i : Nat} {d : Direction}
    {acts : List ForwardData.Act} {g : Forward} (inside : i < p.accepted)
    (reached : Runs.run ForwardData.step ((p.sessions i).forward d) acts = some g) :
    ∃ q, Runs.run (step e) p (acts.map fun a => .session i (.forward d a)) = some q ∧
      q.accepted = p.accepted ∧ (q.sessions i).forward d = g ∧
      ∀ j c, ¬ (j = i ∧ c = d) → (q.sessions j).forward c = (p.sessions j).forward c := by
  induction acts generalizing p with
  | nil =>
    rw [Runs.run_nil] at reached
    exact ⟨p, rfl, rfl, reached, fun _ _ _ => rfl⟩
  | cons a acts ih =>
    obtain ⟨f, first, later⟩ := Runs.run_cons.mp reached
    let t : Session := { p.sessions i with
      forward := Function.update (p.sessions i).forward d f }
    let u := note p i t (.forward d a)
    have moved : step e p (.session i (.forward d a)) = some u := by
      simp [step, inside, ProxySession.step, first, u, t]
    have sessions : u.sessions = Function.update p.sessions i t := note_sessions ..
    have accepted : u.accepted = p.accepted := note_accepted ..
    have here : (u.sessions i).forward d = f := by simp [sessions, t]
    obtain ⟨q, rest, sameAccepted, ended, others⟩ := ih (accepted ▸ inside) (here ▸ later)
    refine ⟨q, Runs.run_cons.mpr ⟨u, moved, rest⟩, sameAccepted.trans accepted, ended, ?_⟩
    intro j c other
    rw [others j c other, sessions]
    by_cases same : j = i
    · subst same
      have apart : c ≠ d := fun equal => other ⟨rfl, equal⟩
      simp [t, apart]
    · simp [same]

def overrunOutward : Direction → Bytes
  | .outward => Eviction.overrunStream
  | .inward => []

/-- The second connection forwards its byte and ends. -/
def beforeOverrun : List Act :=
  let whole : List ProxySession.Act := startBoth ++
    [.forward .outward (.read 1), .forward .outward .put, .forward .outward .get,
      .forward .outward .write, .forward .outward .get, .forward .outward .eof,
      .forward .outward .close, .forward .outward .get, .forward .inward .eof,
      .forward .inward .close, .forward .inward .get]
  let inward : List ProxySession.Act := [.connected, .forward .inward .start,
    .forward .inward .startRead, .forward .inward .startWrite, .forward .inward .eof,
    .forward .inward .close, .forward .inward .get]
  [.accept overrunOutward, .accept oneByteOutward] ++ whole.map (.session 1) ++
    inward.map (.session 0)

/-- The first connection reads 1001 bytes one by one before `write_task` starts. -/
def overrunAndOne : List Act :=
  beforeOverrun ++
    (Eviction.overrunActs Eviction.overrunStream).map fun a => .session 0 (.forward .outward a)

theorem overrun_reads (stream : Bytes) : ((Eviction.overrunActs stream).map fun a =>
    Act.session 0 (.forward .outward a)).countP isRead = stream.length := by
  rw [List.countP_map]
  simp [Eviction.overrunActs, List.countP_flatMap, isRead, Function.comp_def]

theorem overrun_undisturbed : ∀ act ∈ overrunAndOne, undisturbed act = true := by
  intro act member
  rcases List.mem_append.mp member with before | overrun
  · exact (by decide : ∀ act ∈ beforeOverrun, undisturbed act = true) act before
  · obtain ⟨a, made, rfl⟩ := List.mem_map.mp overrun
    obtain ⟨fine, read, write⟩ := Eviction.overrun_plain _ a made
    cases a <;> simp_all [undisturbed, Lossless.faultless]

theorem read_histogram_conserves_two : ∃ p,
    Runs.run (step .server) start overrunAndOne = some p ∧ p.accepted = 2 ∧
      ((p.sessions 0).forward .outward).written = List.replicate queueSize 1 ∧
      ((p.sessions 1).forward .outward).written = [7] ∧
      totalReads p.readHistogram = queueSize + 2 ∧
      totalSize p.readHistogram = ∑ i ∈ Finset.range 2, ∑ d,
        (((p.sessions i).forward d).totalBytes +
          (queued ((p.sessions i).forward d).queue).length + p.evicted i d) ∧
      totalSize p.readHistogram -
          ∑ i ∈ Finset.range 2, ∑ d, ((p.sessions i).forward d).totalBytes =
        ∑ i ∈ Finset.range 2, ∑ d, p.evicted i d := by
  obtain ⟨p, before, two, here, inward, both, written⟩ : ∃ p,
      Runs.run (step .server) start beforeOverrun = some p ∧ p.accepted = 2 ∧
      (p.sessions 0).forward .outward = ForwardData.init Eviction.overrunStream ∧
      (((p.sessions 0).forward .inward).readTask = .finished ∧
        ((p.sessions 0).forward .inward).writeTask = .finished) ∧
      (∀ d, ((p.sessions 1).forward d).readTask = .finished ∧
        ((p.sessions 1).forward d).writeTask = .finished) ∧
      ((p.sessions 1).forward .outward).written = [7] :=
    Runs.reaches (by decide +kernel)
  obtain ⟨f, overrun, readDone, writeDone, -, output⟩ :=
    Eviction.overrun_keeps_last Eviction.overrunStream
  obtain ⟨q, after, accepted, done, others⟩ :=
    forward_run (e := .server) (by omega : 0 < p.accepted) (here ▸ overrun)
  have second : ∀ d, Ended ((q.sessions 1).forward d) := by
    intro d
    rw [others 1 d (by simp)]
    simp [Ended, (both d).1, (both d).2]
  have ended : ∀ i < q.accepted, ∀ d, Ended ((q.sessions i).forward d) := by
    intro i inside d
    obtain rfl | rfl : i = 0 ∨ i = 1 := by omega
    · cases d with
      | outward => simp [Ended, done, readDone, writeDone]
      | inward =>
        rw [others 0 .inward (by simp)]
        simp [Ended, inward.1, inward.2]
    · exact second d
  have reached : Runs.run (step .server) start overrunAndOne = some q :=
    Runs.run_append.mpr ⟨p, before, after⟩
  obtain ⟨reads, -, bytes, lost⟩ := read_histogram_conserves overrun_undisturbed reached
  rw [accepted, two] at bytes lost ended
  refine ⟨q, reached, accepted.trans two, ?_, ?_, ?_, bytes ?_, lost ended⟩
  · rw [done, output]
    simp [Eviction.overrunStream]
  · rw [others 1 .outward (by simp), written]
  · have one : beforeOverrun.countP isRead = 1 := by decide
    have many : Eviction.overrunStream.length = queueSize + 1 := by simp [Eviction.overrunStream]
    rw [reads, overrunAndOne, List.countP_append, overrun_reads, one, many]
    omega
  · intro i inside d
    obtain ⟨reader, writer⟩ := ended i inside d
    exact ⟨fun data here => reader (by simp [here, ReadPc.Running]),
      fun data here => writer (by simp [here, WritePc.Running])⟩

end Histogram
