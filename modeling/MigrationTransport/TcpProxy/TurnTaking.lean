import MigrationTransport.Lib.Runs
import MigrationTransport.TcpProxy.EventLoop

/-!
Why `forward_data` works without `drain` and with a queue that evicts: under a FIFO
ready queue `write_task` always gets its turn before `read_task` is resumed, so the
queue never holds more than one resumption of `read_task` put there.
-/
namespace TurnTaking
open ByteStream EventLoop
open ForwardData (queueSize)

/-- `ceil(bytes / 8192)`. -/
def chunks (bytes : Nat) : Nat := (bytes + (readSize - 1)) / readSize

/-- Chunks that `read_task` can still queue before it suspends. -/
def toCome (buffer : Bytes) (readTask : ReadPc) : Nat :=
  chunks buffer.length +
    match readTask with
    | .acquiringPut _ | .blockedPut _ | .appending _ => 1
    | _ => 0

def writeFirst : List Handle → Bool
  | [] => false
  | .read :: _ => false
  | .write :: _ => true
  | .other _ :: rest => writeFirst rest

def readRunnable (s : Loop) : Nat :=
  if s.running ≠ some .read ∧
      (s.readTask = .created ∨ s.readTask = .awaitingData ∧ s.readerWaiter = false)
  then 1 else 0

def writeRunnable (s : Loop) : Nat :=
  if s.running ≠ some .write ∧
      (s.writeTask = .created ∨ s.writeTask = .waiting ∧ s.condWaiter = false)
  then 1 else 0

/-- The places inside `async with self.not_empty`. -/
def HoldsLock (s : Loop) : Prop :=
  (s.running = some .read ∧ ((∃ data, s.readTask = .appending data) ∨
    s.readTask = .releasingPut ∨ s.readTask = .markingClosed ∨ s.readTask = .releasingClose)) ∨
  (s.running = some .write ∧ (s.writeTask = .testing ∨ ∃ got, s.writeTask = .releasingGet got))

structure Inv (limit : Nat) (s : Loop) : Prop where
  lockWaiters : s.lockWaiters = []
  locked : s.locked = true → HoldsLock s
  readIdle : s.running ≠ some .read →
    s.readTask = .created ∨ s.readTask = .awaitingData ∨ s.readTask = .finished
  readBusy : s.running = some .read →
    s.readTask ≠ .finished ∧ s.readTask ≠ .blockedClose ∧ ∀ data, s.readTask ≠ .blockedPut data
  writeIdle : s.running ≠ some .write →
    s.writeTask = .created ∨ s.writeTask = .waiting ∨ s.writeTask = .finished
  writeBusy : s.running = some .write → s.writeTask ≠ .finished ∧ s.writeTask ≠ .blockedGet
  readReady : s.ready.count .read = readRunnable s
  writeReady : s.ready.count .write = writeRunnable s
  readerWaiter : s.readerWaiter = true → s.readTask = .awaitingData ∧ s.running ≠ some .read
  parked : s.condWaiter = true → s.writeTask = .waiting ∧ s.running ≠ some .write ∧
    s.queue.items = [] ∧ s.queue.closed = false
  writeDone : s.writeTask = .finished → s.queue.items = [] ∧ s.queue.closed = true
  closed : s.queue.closed = true → s.readTask = .releasingClose ∨ s.readTask = .finished
  ended : ∀ got, s.writeTask = .releasingGet got → got = none →
    s.queue.items = [] ∧ s.queue.closed = true
  order : s.queue.items ≠ [] → s.running ≠ some .read → s.running ≠ some .write →
    writeFirst s.ready = true
  buffered : s.buffer.length ≤ limit
  resumed : s.running = some .read → s.readTask = .created ∨ s.readTask = .awaitingData →
    s.queue.items = []
  bound : s.queue.items.length +
    (if s.running = some .read then toCome s.buffer s.readTask else 0) ≤ chunks limit

theorem writeFirst_append {ready : List Handle} (first : writeFirst ready = true)
    (more : List Handle) : writeFirst (ready ++ more) = true := by
  induction ready with
  | nil => simp [writeFirst] at first
  | cons h rest ih => cases h <;> simp_all [writeFirst]

theorem writeFirst_of_count {ready : List Handle} (noRead : ready.count .read = 0)
    (write : ready.count .write = 1) : writeFirst ready = true := by
  induction ready with
  | nil => simp at write
  | cons h rest ih => cases h <;> simp_all [writeFirst]

theorem chunks_take {n : Nat} (some : 0 < n) : chunks n = 1 + chunks (n - readSize) := by
  simp only [chunks, readSize]
  omega

theorem chunks_mono {m n : Nat} (le : m ≤ n) : chunks m ≤ chunks n := by
  simp only [chunks, readSize]
  omega

theorem put_length_le (q : CircularQueue Bytes queueSize) (data : Bytes) :
    (q.put data).items.length ≤ q.items.length + 1 := by
  unfold CircularQueue.put
  split
  · omega
  · simp only [CircularQueue.items, BoundedDeque.append, List.length_drop, List.length_append,
      List.length_singleton]
    omega

theorem count_others (before : List Nat) {h : Handle} (task : ∀ id, h ≠ .other id) :
    (before.map Handle.other).count h = 0 := by
  rw [List.count_eq_zero]
  intro member
  obtain ⟨id, -, same⟩ := List.mem_map.mp member
  exact task id same.symm

theorem init_inv {limit : Nat} (before : List Nat) {buffered : Bytes} (eof : Bool)
    (fits : buffered.length ≤ limit) : Inv limit (init before buffered eof) := by
  constructor <;>
    simp_all [init, HoldsLock, readRunnable, writeRunnable, count_others]

theorem wakeReader_inv {limit : Nat} {s : Loop} (inv : Inv limit s) (idle : s.running = none) :
    Inv limit (wakeReader s) := by
  obtain ⟨lockWaiters, locked, readIdle, readBusy, writeIdle, writeBusy, readReady, writeReady,
    readerWaiter, parked, writeDone, closed, ended, order, buffered, resumed, bound⟩ := inv
  unfold wakeReader
  split
  · rename_i waits
    obtain ⟨awaiting, -⟩ := readerWaiter waits
    refine ⟨lockWaiters, locked, readIdle, readBusy, writeIdle, writeBusy, ?_, ?_, by simp, parked,
      writeDone, closed, ended, ?_, buffered, resumed, bound⟩
    · simp [readReady, readRunnable, idle, awaiting, waits]
    · simpa [writeRunnable] using writeReady
    · intro queued notRead notWrite
      exact writeFirst_append (order queued notRead notWrite) _
  · exact ⟨lockWaiters, locked, readIdle, readBusy, writeIdle, writeBusy, readReady, writeReady,
      readerWaiter, parked, writeDone, closed, ended, order, buffered, resumed, bound⟩

theorem arrive_inv {limit : Nat} {s : Loop} {data : Bytes} (inv : Inv limit s)
    (idle : s.running = none) (fits : s.buffer.length + data.length ≤ limit) :
    Inv limit (wakeReader { s with buffer := s.buffer ++ data }) := by
  have longer : (s.buffer ++ data).length ≤ limit := by
    rw [List.length_append]
    exact fits
  have bound : s.queue.items.length + (if s.running = some .read then
      toCome (s.buffer ++ data) s.readTask else 0) ≤ chunks limit := by
    simpa [idle] using inv.bound
  have held : Inv limit { s with buffer := s.buffer ++ data } :=
    ⟨inv.lockWaiters, inv.locked, inv.readIdle, inv.readBusy, inv.writeIdle, inv.writeBusy,
      inv.readReady, inv.writeReady, inv.readerWaiter, inv.parked, inv.writeDone, inv.closed,
      inv.ended, inv.order, longer, inv.resumed, bound⟩
  exact wakeReader_inv held idle

theorem feedEof_inv {limit : Nat} {s : Loop} (inv : Inv limit s) (idle : s.running = none) :
    Inv limit (wakeReader { s with eof := true }) := by
  have held : Inv limit { s with eof := true } :=
    ⟨inv.lockWaiters, inv.locked, inv.readIdle, inv.readBusy, inv.writeIdle, inv.writeBusy,
      inv.readReady, inv.writeReady, inv.readerWaiter, inv.parked, inv.writeDone, inv.closed,
      inv.ended, inv.order, inv.buffered, inv.resumed, inv.bound⟩
  exact wakeReader_inv held idle

theorem spawn_inv {limit : Nat} {s : Loop} (inv : Inv limit s) (id : Nat) :
    Inv limit { s with ready := s.ready ++ [.other id] } := by
  refine ⟨inv.lockWaiters, inv.locked, inv.readIdle, inv.readBusy, inv.writeIdle, inv.writeBusy,
    ?_, ?_, inv.readerWaiter, inv.parked, inv.writeDone, inv.closed, inv.ended, ?_, inv.buffered,
    inv.resumed, inv.bound⟩
  · simpa [readRunnable] using inv.readReady
  · simpa [writeRunnable] using inv.writeReady
  · intro queued notRead notWrite
    exact writeFirst_append (inv.order queued notRead notWrite) _

theorem read_dispatched {s : Loop} {rest : List Handle} (idle : s.running = none)
    (next : s.ready = .read :: rest) (readReady : s.ready.count .read = readRunnable s) :
    (s.readTask = .created ∨ s.readTask = .awaitingData ∧ s.readerWaiter = false) ∧
      rest.count .read = 0 := by
  simp only [next, List.count_cons_self, readRunnable, idle] at readReady
  split at readReady
  · rename_i runnable
    exact ⟨runnable.2, by omega⟩
  · omega

theorem write_dispatched {s : Loop} {rest : List Handle} (idle : s.running = none)
    (next : s.ready = .write :: rest) (writeReady : s.ready.count .write = writeRunnable s) :
    (s.writeTask = .created ∨ s.writeTask = .waiting ∧ s.condWaiter = false) ∧
      rest.count .write = 0 := by
  simp only [next, List.count_cons_self, writeRunnable, idle] at writeReady
  split at writeReady
  · rename_i runnable
    exact ⟨runnable.2, by omega⟩
  · omega

theorem idle_unlocked {limit : Nat} {s : Loop} (inv : Inv limit s) (idle : s.running = none) :
    ¬ s.locked = true := by
  intro taken
  have held := inv.locked taken
  simp [HoldsLock, idle] at held

theorem dispatch_read {limit : Nat} {s : Loop} {rest : List Handle} (inv : Inv limit s)
    (idle : s.running = none) (next : s.ready = .read :: rest) :
    Inv limit { s with running := some .read, ready := rest } := by
  have unlocked := idle_unlocked inv idle
  obtain ⟨runnable, alone⟩ := read_dispatched idle next inv.readReady
  have outside : s.readTask = .created ∨ s.readTask = .awaitingData :=
    runnable.imp_right And.left
  have woken : ¬ s.readerWaiter = true := by
    intro waits
    have awaiting := (inv.readerWaiter waits).1
    simp [awaiting, waits] at runnable
  have drained : s.queue.items = [] := by
    by_contra queued
    have first := inv.order queued (by simp [idle]) (by simp [idle])
    simp [next, writeFirst] at first
  have buffered := chunks_mono inv.buffered
  refine ⟨inv.lockWaiters, fun taken => absurd taken unlocked, by simp, ?_,
    fun _ => inv.writeIdle (by simp [idle]), by simp, ?_, ?_, fun waits => absurd waits woken, ?_,
    inv.writeDone, inv.closed, inv.ended, by simp, inv.buffered, fun _ _ => drained, ?_⟩
  · intro _
    rcases outside with pc | pc <;> simp [pc]
  · simpa [readRunnable] using alone
  · simpa [next, writeRunnable, idle] using inv.writeReady
  · intro waits
    obtain ⟨waiting, -, empty, opened⟩ := inv.parked waits
    exact ⟨waiting, by simp, empty, opened⟩
  · rcases outside with pc | pc <;> simpa [drained, toCome, pc] using buffered

theorem dispatch_write {limit : Nat} {s : Loop} {rest : List Handle} (inv : Inv limit s)
    (idle : s.running = none) (next : s.ready = .write :: rest) :
    Inv limit { s with running := some .write, ready := rest } := by
  have unlocked := idle_unlocked inv idle
  obtain ⟨runnable, alone⟩ := write_dispatched idle next inv.writeReady
  have outside : s.writeTask = .created ∨ s.writeTask = .waiting :=
    runnable.imp_right And.left
  have woken : ¬ s.condWaiter = true := by
    intro waits
    have waiting := (inv.parked waits).1
    simp [waiting, waits] at runnable
  refine ⟨inv.lockWaiters, fun taken => absurd taken unlocked,
    fun _ => inv.readIdle (by simp [idle]), by simp, by simp, ?_, ?_, ?_, ?_,
    fun waits => absurd waits woken, inv.writeDone, inv.closed, inv.ended, by simp, inv.buffered,
    by simp, ?_⟩
  · intro _
    rcases outside with pc | pc <;> simp [pc]
  · simpa [next, readRunnable, idle] using inv.readReady
  · simpa [writeRunnable] using alone
  · intro waits
    exact ⟨(inv.readerWaiter waits).1, by simp⟩
  · simpa [idle] using inv.bound

theorem dispatch_other {limit : Nat} {s : Loop} {id : Nat} {rest : List Handle}
    (inv : Inv limit s) (idle : s.running = none) (next : s.ready = .other id :: rest) :
    Inv limit { s with running := some (.other id), ready := rest } := by
  have unlocked := idle_unlocked inv idle
  refine ⟨inv.lockWaiters, fun taken => absurd taken unlocked,
    fun _ => inv.readIdle (by simp [idle]), by simp, fun _ => inv.writeIdle (by simp [idle]),
    by simp, ?_, ?_, ?_, ?_, inv.writeDone, inv.closed, inv.ended, ?_, inv.buffered, by simp, ?_⟩
  · simpa [next, readRunnable, idle] using inv.readReady
  · simpa [next, writeRunnable, idle] using inv.writeReady
  · intro waits
    exact ⟨(inv.readerWaiter waits).1, by simp⟩
  · intro waits
    obtain ⟨waiting, -, empty, opened⟩ := inv.parked waits
    exact ⟨waiting, by simp, empty, opened⟩
  · intro queued _ _
    have first := inv.order queued (by simp [idle]) (by simp [idle])
    simpa [next, writeFirst] using first
  · simpa [idle] using inv.bound

theorem dispatch_inv {limit : Nat} {s : Loop} {h : Handle} {rest : List Handle}
    (inv : Inv limit s) (idle : s.running = none) (next : s.ready = h :: rest) :
    Inv limit { s with running := some h, ready := rest } := by
  cases h with
  | read => exact dispatch_read inv idle next
  | write => exact dispatch_write inv idle next
  | other id => exact dispatch_other inv idle next

theorem release_unwaited {s : Loop} (lockWaiters : s.lockWaiters = []) :
    release s = { s with locked := false } := by
  simp [release, lockWaiters]

/-- While `read_task` runs outside `async with`, nothing holds the lock. -/
theorem read_unlocked {limit : Nat} {s : Loop} (inv : Inv limit s) (busy : s.running = some .read)
    (outside : s.readTask ≠ .releasingPut ∧ s.readTask ≠ .markingClosed ∧
      s.readTask ≠ .releasingClose ∧ ∀ data, s.readTask ≠ .appending data) : s.locked = false := by
  by_contra taken
  obtain ⟨-, ⟨data, pc⟩ | pc | pc | pc⟩ | ⟨other, -⟩ := inv.locked (by simpa using taken)
  · exact outside.2.2.2 data pc
  · exact outside.1 pc
  · exact outside.2.1 pc
  · exact outside.2.2.1 pc
  · simp [busy] at other

theorem write_unlocked {limit : Nat} {s : Loop} (inv : Inv limit s)
    (busy : s.running = some .write)
    (outside : s.writeTask ≠ .testing ∧ ∀ got, s.writeTask ≠ .releasingGet got) :
    s.locked = false := by
  by_contra taken
  obtain ⟨other, -⟩ | ⟨-, pc | ⟨got, pc⟩⟩ := inv.locked (by simpa using taken)
  · simp [busy] at other
  · exact outside.1 pc
  · exact outside.2 got pc

theorem lock_free {limit : Nat} {s : Loop} (inv : Inv limit s) (unlocked : s.locked = false) :
    free s = true := by
  simp [free, unlocked, inv.lockWaiters]

/-- A step inside `read_task` that neither suspends nor touches the queue. -/
theorem advance_read {limit : Nat} {s : Loop} {pc : ReadPc} {locked : Bool} (inv : Inv limit s)
    (busy : s.running = some .read) (opened : s.queue.closed = false)
    (inside : pc ≠ .created ∧ pc ≠ .awaitingData ∧ pc ≠ .finished ∧ pc ≠ .blockedClose ∧
      ∀ data, pc ≠ .blockedPut data)
    (holds : locked = true → HoldsLock { s with readTask := pc, locked := locked })
    (fewer : toCome s.buffer pc ≤ toCome s.buffer s.readTask) :
    Inv limit { s with readTask := pc, locked := locked } := by
  have bound := inv.bound
  simp only [busy, if_true] at bound
  obtain ⟨created, awaiting, finished, blockedClose, blockedPut⟩ := inside
  refine ⟨inv.lockWaiters, holds, fun elsewhere => absurd busy elsewhere,
    fun _ => ⟨finished, blockedClose, blockedPut⟩, inv.writeIdle, inv.writeBusy, ?_, ?_, ?_,
    inv.parked, inv.writeDone, ?_, inv.ended, inv.order, inv.buffered, ?_, ?_⟩
  · simpa [readRunnable, busy] using inv.readReady
  · simpa [writeRunnable] using inv.writeReady
  · intro waits
    exact absurd busy (inv.readerWaiter waits).2
  · intro shut
    simp [opened] at shut
  · intro _ fresh
    exact absurd fresh (not_or.mpr ⟨created, awaiting⟩)
  · simp only [busy, if_true]
    omega

theorem takeChunk_inv {limit : Nat} {s : Loop} (inv : Inv limit s) (busy : s.running = some .read)
    (opened : s.queue.closed = false) (unlocked : s.locked = false)
    (pc : s.readTask = .atRead ∨ s.readTask = .awaitingData) : Inv limit (takeChunk s) := by
  have here : toCome s.buffer s.readTask = chunks s.buffer.length := by
    rcases pc with pc | pc <;> simp [toCome, pc]
  have bound := inv.bound
  simp only [busy, if_true, here] at bound
  unfold takeChunk
  split
  · exact advance_read inv busy opened (by simp) (by simp [unlocked]) (by simp [toCome])
  · rename_i some
    have filled : 0 < s.buffer.length := by
      rw [List.length_pos_iff]
      intro none
      simp [none] at some
    have fewer := chunks_take filled
    refine ⟨inv.lockWaiters, by simp [unlocked], fun elsewhere => absurd busy elsewhere, by simp,
      inv.writeIdle, inv.writeBusy, ?_, ?_, ?_, inv.parked, inv.writeDone, ?_, inv.ended,
      inv.order, ?_, by simp, ?_⟩
    · simpa [readRunnable, busy] using inv.readReady
    · simpa [writeRunnable] using inv.writeReady
    · intro waits
      exact absurd busy (inv.readerWaiter waits).2
    · intro shut
      simp [opened] at shut
    · have buffered := inv.buffered
      simp only [List.length_drop]
      omega
    · simp only [busy, if_true, toCome, List.length_drop]
      omega

/-- While chunks are queued, a `read_task` that gives up the loop leaves the next turn to
    `write_task`. -/
theorem write_turn {limit : Nat} {s : Loop} (inv : Inv limit s) (busy : s.running = some .read)
    (queued : s.queue.items ≠ []) : writeFirst s.ready = true := by
  have notWrite : s.running ≠ some .write := by simp [busy]
  refine writeFirst_of_count ?_ ?_
  · simpa [readRunnable, busy] using inv.readReady
  · rw [inv.writeReady]
    rcases inv.writeIdle notWrite with pc | pc | pc
    · simp [writeRunnable, busy, pc]
    · have woken : s.condWaiter = false := by
        by_contra waits
        exact queued (inv.parked (by simpa using waits)).2.2.1
      simp [writeRunnable, busy, pc, woken]
    · exact absurd (inv.writeDone pc).1 queued

/-- `read_task` gives up the loop inside `reader.read` or at its end. -/
theorem suspend_read {limit : Nat} {s : Loop} {pc : ReadPc} {waiter : Bool} (inv : Inv limit s)
    (busy : s.running = some .read) (shut : s.queue.closed = true → pc = .finished)
    (outside : pc = .awaitingData ∧ waiter = true ∨ pc = .finished ∧ waiter = false) :
    Inv limit { s with
      readTask := pc, readerWaiter := waiter, locked := false, running := none } := by
  have turn := write_turn inv busy
  have notWrite : s.running ≠ some .write := by simp [busy]
  refine ⟨inv.lockWaiters, by simp, fun _ => ?_, by simp, fun _ => inv.writeIdle notWrite,
    by simp, ?_, ?_, fun waits => ?_, ?_, inv.writeDone, fun closed => .inr (shut closed),
    inv.ended, fun queued _ _ => turn queued, inv.buffered, by simp, ?_⟩
  · exact .inr (outside.imp And.left And.left)
  · rcases outside with ⟨rfl, rfl⟩ | ⟨rfl, rfl⟩ <;>
      simpa [readRunnable, busy] using inv.readReady
  · simpa [writeRunnable, busy] using inv.writeReady
  · rcases outside with ⟨awaiting, -⟩ | ⟨-, gone⟩
    · exact ⟨awaiting, by simp⟩
    · exact absurd (gone.symm.trans waits) Bool.false_ne_true
  · intro waits
    obtain ⟨waiting, -, empty, opened⟩ := inv.parked waits
    exact ⟨waiting, by simp, empty, opened⟩
  · have bound := inv.bound
    simp only [busy, if_true] at bound
    simp only [reduceCtorEq, if_false]
    omega

/-- `notify` makes a parked `write_task` runnable. -/
theorem wake_write {limit : Nat} {s : Loop} {pc : ReadPc} {queue : CircularQueue Bytes queueSize}
    (inv : Inv limit s) (busy : s.running = some .read) (waits : s.condWaiter = true) :
    (s.ready ++ [Handle.write]).count .write = writeRunnable { s with
      readTask := pc, queue := queue, condWaiter := false, ready := s.ready ++ [.write] } := by
  have waiting := (inv.parked waits).1
  have parked : s.ready.count .write = 0 := by
    rw [inv.writeReady]
    simp [writeRunnable, waiting, waits]
  simp [parked, writeRunnable, busy, waiting]

theorem putChunk_inv {limit : Nat} {s : Loop} {data : Bytes} (inv : Inv limit s)
    (busy : s.running = some .read) (pc : s.readTask = .appending data)
    (opened : s.queue.closed = false) :
    Inv limit (notify { s with readTask := .releasingPut, queue := s.queue.put data }) := by
  have longer := put_length_le s.queue data
  have bound := inv.bound
  simp only [busy, if_true, toCome, pc] at bound
  have stillOpen : ¬ (s.queue.put data).closed = true := by simp [opened]
  have notDone : s.writeTask ≠ .finished := by
    intro done
    simp [(inv.writeDone done).2] at opened
  have notEnded : s.writeTask ≠ .releasingGet none := by
    intro done
    simp [(inv.ended none done rfl).2] at opened
  have more : (s.queue.put data).items.length + toCome s.buffer .releasingPut ≤ chunks limit := by
    simp only [toCome]
    omega
  have noWaiter : s.readerWaiter = true → False := fun waits => (inv.readerWaiter waits).2 busy
  have holds : HoldsLock { s with readTask := .releasingPut } := .inl ⟨busy, .inr (.inl rfl)⟩
  unfold notify
  split
  · rename_i waits
    refine ⟨inv.lockWaiters, fun _ => holds, fun elsewhere => absurd busy elsewhere, by simp,
      inv.writeIdle, inv.writeBusy, ?_, wake_write (s := s) inv busy waits,
      fun waits => (noWaiter waits).elim, by simp, fun done => absurd done notDone,
      fun shut => absurd shut stillOpen, ?_,
      fun _ elsewhere => absurd busy elsewhere, inv.buffered, by simp, ?_⟩
    · simpa [readRunnable, busy] using inv.readReady
    · rintro got done rfl
      exact absurd done notEnded
    · simpa only [busy, if_true] using more
  · rename_i awake
    refine ⟨inv.lockWaiters, fun _ => holds, fun elsewhere => absurd busy elsewhere, by simp,
      inv.writeIdle, inv.writeBusy, ?_, ?_, fun waits => (noWaiter waits).elim,
      fun waits => absurd waits awake, fun done => absurd done notDone,
      fun shut => absurd shut stillOpen, ?_, fun _ elsewhere => absurd busy elsewhere, inv.buffered,
      by simp, ?_⟩
    · simpa [readRunnable, busy] using inv.readReady
    · simpa [writeRunnable] using inv.writeReady
    · rintro got done rfl
      exact absurd done notEnded
    · simpa only [busy, if_true] using more

theorem closeQueue_inv {limit : Nat} {s : Loop} (inv : Inv limit s)
    (busy : s.running = some .read) (pc : s.readTask = .markingClosed) :
    Inv limit (notify { s with readTask := .releasingClose, queue := s.queue.close }) := by
  have bound : s.queue.close.items.length + toCome s.buffer .releasingClose ≤ chunks limit := by
    simpa [busy, toCome, pc] using inv.bound
  have noWaiter : s.readerWaiter = true → False := fun waits => (inv.readerWaiter waits).2 busy
  have holds : HoldsLock { s with readTask := .releasingClose } :=
    .inl ⟨busy, .inr (.inr (.inr rfl))⟩
  unfold notify
  split
  · rename_i waits
    refine ⟨inv.lockWaiters, fun _ => holds, fun elsewhere => absurd busy elsewhere, by simp,
      inv.writeIdle, inv.writeBusy, ?_, wake_write (s := s) inv busy waits,
      fun waits => (noWaiter waits).elim, by simp, fun done => ⟨(inv.writeDone done).1, rfl⟩,
      fun _ => .inl rfl,
      fun got done none => ⟨(inv.ended got done none).1, rfl⟩,
      fun _ elsewhere => absurd busy elsewhere, inv.buffered, by simp, ?_⟩
    · simpa [readRunnable, busy] using inv.readReady
    · simpa only [busy, if_true] using bound
  · rename_i awake
    refine ⟨inv.lockWaiters, fun _ => holds, fun elsewhere => absurd busy elsewhere, by simp,
      inv.writeIdle, inv.writeBusy, ?_, ?_, fun waits => (noWaiter waits).elim,
      fun waits => absurd waits awake, fun done => ⟨(inv.writeDone done).1, rfl⟩,
      fun _ => .inl rfl, fun got done none => ⟨(inv.ended got done none).1, rfl⟩,
      fun _ elsewhere => absurd busy elsewhere, inv.buffered, by simp, ?_⟩
    · simpa [readRunnable, busy] using inv.readReady
    · simpa [writeRunnable] using inv.writeReady
    · simpa only [busy, if_true] using bound

theorem readStep_inv {limit : Nat} {s : Loop} (inv : Inv limit s)
    (busy : s.running = some .read) : Inv limit (readStep s) := by
  have unlocked := read_unlocked inv busy
  have busyPc := inv.readBusy busy
  have waiter : s.readerWaiter = false := by
    by_contra waits
    exact (inv.readerWaiter (by simpa using waits)).2 busy
  have opened : s.readTask ≠ .releasingClose → s.queue.closed = false := by
    intro other
    by_contra shut
    rcases inv.closed (by simpa using shut) with pc | pc
    · exact other pc
    · exact busyPc.1 pc
  cases pc : s.readTask with
  | created =>
    simp only [readStep, pc]
    exact advance_read inv busy (opened (by simp [pc])) (by simp) (by simp [unlocked, pc])
      (by simp [toCome, pc])
  | atRead =>
    simp only [readStep, pc]
    split
    · have suspended : Inv limit { s with
          readTask := .awaitingData, readerWaiter := true, locked := false, running := none } :=
        suspend_read inv busy (by simp [opened, pc]) (.inl ⟨rfl, rfl⟩)
      simpa [unlocked, pc] using suspended
    · exact takeChunk_inv inv busy (opened (by simp [pc])) (unlocked (by simp [pc])) (.inl pc)
  | awaitingData =>
    simp only [readStep, pc]
    exact takeChunk_inv inv busy (opened (by simp [pc])) (unlocked (by simp [pc])) (.inr pc)
  | acquiringPut data =>
    simp only [readStep, pc, lock_free inv (unlocked (by simp [pc])), if_true]
    exact advance_read inv busy (opened (by simp [pc])) (by simp) (by simp [HoldsLock, busy])
      (by simp [toCome, pc])
  | blockedPut data => exact absurd pc (busyPc.2.2 data)
  | appending data =>
    simp only [readStep, pc, opened (by simp [pc]), Bool.false_eq_true, if_false]
    exact putChunk_inv inv busy pc (opened (by simp [pc]))
  | releasingPut =>
    simp only [readStep, pc]
    rw [release_unwaited (by exact inv.lockWaiters)]
    exact advance_read (s := s) inv busy (opened (by simp [pc])) (by simp) (by simp)
      (by simp [toCome, pc])
  | acquiringClose =>
    simp only [readStep, pc, lock_free inv (unlocked (by simp [pc])), if_true]
    exact advance_read inv busy (opened (by simp [pc])) (by simp) (by simp [HoldsLock, busy])
      (by simp [toCome, pc])
  | blockedClose => exact absurd pc busyPc.2.1
  | markingClosed =>
    simp only [readStep, pc]
    exact closeQueue_inv inv busy pc
  | releasingClose =>
    simp only [readStep, pc]
    rw [release_unwaited (by exact inv.lockWaiters)]
    have suspended : Inv limit { s with
        readTask := .finished, readerWaiter := false, locked := false, running := none } :=
      suspend_read inv busy (by simp) (.inr ⟨rfl, rfl⟩)
    simpa [waiter] using suspended
  | finished => exact absurd pc busyPc.1

/-- A step inside `write_task` that neither suspends nor touches the queue. -/
theorem advance_write {limit : Nat} {s : Loop} {pc : WritePc} {locked : Bool} {written : Bytes}
    {totalBytes : Nat} {progress : List Nat} (inv : Inv limit s) (busy : s.running = some .write)
    (inside : pc ≠ .finished ∧ pc ≠ .blockedGet)
    (holds : locked = true → HoldsLock { s with writeTask := pc, locked := locked })
    (ended : pc = .releasingGet none → s.queue.items = [] ∧ s.queue.closed = true) :
    Inv limit { s with
      writeTask := pc, locked := locked, written := written, totalBytes := totalBytes,
      progress := progress } := by
  refine ⟨inv.lockWaiters, holds, inv.readIdle, inv.readBusy,
    fun elsewhere => absurd busy elsewhere, fun _ => inside, ?_, ?_, inv.readerWaiter, ?_,
    fun done => absurd done inside.1, inv.closed, ?_, fun _ _ elsewhere => absurd busy elsewhere,
    inv.buffered, inv.resumed, inv.bound⟩
  · simpa [readRunnable] using inv.readReady
  · simpa [writeRunnable, busy] using inv.writeReady
  · intro waits
    exact absurd busy (inv.parked waits).2.1
  · rintro got leaving rfl
    exact ended leaving

/-- `write_task` gives up the loop inside `not_empty.wait` or at its end, and either way leaves
    nothing queued. -/
theorem suspend_write {limit : Nat} {s : Loop} {pc : WritePc} {waiter : Bool} (inv : Inv limit s)
    (busy : s.running = some .write) (drained : s.queue.items = [])
    (outside : pc = .waiting ∧ waiter = true ∧ s.queue.closed = false ∨
      pc = .finished ∧ waiter = false ∧ s.queue.closed = true) :
    Inv limit { s with
      writeTask := pc, condWaiter := waiter, locked := false, running := none } := by
  have notRead : s.running ≠ some .read := by simp [busy]
  refine ⟨inv.lockWaiters, by simp, fun _ => inv.readIdle notRead, by simp, fun _ => ?_, by simp,
    ?_, ?_, fun waits => ⟨(inv.readerWaiter waits).1, by simp⟩, fun waits => ?_, fun done => ?_,
    inv.closed, ?_, fun queued => absurd drained queued, inv.buffered, by simp, ?_⟩
  · exact .inr (outside.imp And.left And.left)
  · simpa [readRunnable, busy] using inv.readReady
  · rcases outside with ⟨rfl, rfl, -⟩ | ⟨rfl, rfl, -⟩ <;>
      simpa [writeRunnable, busy] using inv.writeReady
  · rcases outside with ⟨waiting, -, opened⟩ | ⟨-, gone, -⟩
    · exact ⟨waiting, by simp, drained, opened⟩
    · exact absurd (gone.symm.trans waits) Bool.false_ne_true
  · rcases outside with ⟨waiting, -⟩ | ⟨-, -, shut⟩
    · exact absurd (waiting.symm.trans done) (by simp)
    · exact ⟨drained, shut⟩
  · intro got leaving
    rcases outside with ⟨rfl, -⟩ | ⟨rfl, -⟩ <;> simp at leaving
  · simp [drained]

theorem popChunk_inv {limit : Nat} {s : Loop} {data : Bytes} {rest : CircularQueue Bytes queueSize}
    (inv : Inv limit s) (busy : s.running = some .write)
    (got : s.queue.get = .item data rest) :
    Inv limit { s with writeTask := .releasingGet (some data), queue := rest } := by
  obtain ⟨content, kept⟩ := CircularQueue.get_item got
  have notRead : s.running ≠ some .read := by simp [busy]
  refine ⟨inv.lockWaiters, fun _ => .inr ⟨busy, .inr ⟨_, rfl⟩⟩, inv.readIdle, inv.readBusy,
    fun elsewhere => absurd busy elsewhere, by simp, ?_, ?_, inv.readerWaiter, ?_, by simp, ?_, ?_,
    fun _ _ elsewhere => absurd busy elsewhere, inv.buffered,
    fun reading => absurd reading notRead, ?_⟩
  · simpa [readRunnable] using inv.readReady
  · simpa [writeRunnable, busy] using inv.writeReady
  · intro waits
    exact absurd busy (inv.parked waits).2.1
  · intro shut
    exact inv.closed (kept ▸ shut)
  · rintro got leaving rfl
    simp at leaving
  · have bound := inv.bound
    rw [content, List.length_cons] at bound
    simp only [if_neg notRead] at bound ⊢
    omega

theorem writeStep_inv {limit : Nat} {s : Loop} (inv : Inv limit s)
    (busy : s.running = some .write) : Inv limit (writeStep s) := by
  have unlocked := write_unlocked inv busy
  have busyPc := inv.writeBusy busy
  have waiter : s.condWaiter = false := by
    by_contra waits
    exact (inv.parked (by simpa using waits)).2.1 busy
  cases pc : s.writeTask with
  | created =>
    simp only [writeStep, pc]
    exact advance_write inv busy (by simp) (by simp [unlocked, pc]) (by simp)
  | acquiringGet =>
    simp only [writeStep, pc, lock_free inv (unlocked (by simp [pc])), if_true]
    exact advance_write inv busy (by simp) (by simp [HoldsLock, busy]) (by simp)
  | blockedGet => exact absurd pc busyPc.2
  | testing =>
    cases got : s.queue.get with
    | wait =>
      obtain ⟨drained, opened⟩ := CircularQueue.get_wait.mp got
      simp only [writeStep, pc, got]
      rw [release_unwaited (by exact inv.lockWaiters)]
      exact suspend_write (s := s) inv busy drained (.inl ⟨rfl, rfl, opened⟩)
    | none =>
      simp only [writeStep, pc, got]
      exact advance_write inv busy (by simp) (by simp [HoldsLock, busy])
        (fun _ => CircularQueue.get_none.mp got)
    | item data rest =>
      simp only [writeStep, pc, got]
      exact popChunk_inv inv busy got
  | waiting =>
    simp only [writeStep, pc]
    exact advance_write inv busy (by simp) (by simp [unlocked, pc]) (by simp)
  | releasingGet got =>
    cases got with
    | none =>
      obtain ⟨drained, shut⟩ := inv.ended none pc rfl
      simp only [writeStep, pc]
      rw [release_unwaited (by exact inv.lockWaiters)]
      have suspended := suspend_write inv busy drained (.inr ⟨rfl, rfl, shut⟩)
      simpa [waiter] using suspended
    | some data =>
      simp only [writeStep, pc]
      rw [release_unwaited (by exact inv.lockWaiters)]
      exact advance_write (s := s) inv busy (by simp) (by simp) (by simp)
  | writing data =>
    simp only [writeStep, pc]
    exact advance_write inv busy (by simp) (by simp [unlocked, pc]) (by simp)
  | finished => exact absurd pc busyPc.1

theorem yield_inv {limit : Nat} {s : Loop} {id : Nat} (inv : Inv limit s)
    (busy : s.running = some (.other id)) : Inv limit { s with running := none } := by
  have notRead : s.running ≠ some .read := by simp [busy]
  have notWrite : s.running ≠ some .write := by simp [busy]
  refine ⟨inv.lockWaiters, ?_, fun _ => inv.readIdle notRead, by simp,
    fun _ => inv.writeIdle notWrite, by simp, ?_, ?_,
    fun waits => ⟨(inv.readerWaiter waits).1, by simp⟩, ?_, inv.writeDone, inv.closed, inv.ended,
    fun queued _ _ => inv.order queued notRead notWrite, inv.buffered, by simp, ?_⟩
  · intro taken
    have held := inv.locked taken
    simp [HoldsLock, busy] at held
  · simpa [readRunnable, busy] using inv.readReady
  · simpa [writeRunnable, busy] using inv.writeReady
  · intro waits
    obtain ⟨waiting, -, empty, opened⟩ := inv.parked waits
    exact ⟨waiting, by simp, empty, opened⟩
  · simpa [busy] using inv.bound

theorem step_inv {limit : Nat} {s t : Loop} {a : Act} (inv : Inv limit s)
    (stepped : step limit s a = some t) : Inv limit t := by
  cases a with
  | arrive data =>
    simp only [step, Option.ite_none_right_eq_some, Option.some.injEq] at stepped
    obtain ⟨⟨idle, -, -, fits⟩, rfl⟩ := stepped
    exact arrive_inv inv idle fits
  | feedEof =>
    simp only [step, Option.ite_none_right_eq_some, Option.some.injEq] at stepped
    obtain ⟨⟨idle, -⟩, rfl⟩ := stepped
    exact feedEof_inv inv idle
  | spawn id =>
    simp only [step, Option.some.injEq] at stepped
    subst stepped
    exact spawn_inv inv id
  | dispatch =>
    simp only [step] at stepped
    split at stepped
    · rename_i idle next
      rw [Option.some.injEq] at stepped
      subst stepped
      exact dispatch_inv inv idle next
    · simp at stepped
  | exec =>
    simp only [step] at stepped
    split at stepped
    all_goals
      rename_i busy
      simp only [Option.some.injEq, reduceCtorEq] at stepped
    · subst stepped
      exact readStep_inv inv busy
    · subst stepped
      exact writeStep_inv inv busy
    · subst stepped
      exact yield_inv inv busy

theorem run_inv {limit : Nat} {before : List Nat} {buffered : Bytes} {eof : Bool}
    {acts : List Act} {t : Loop} (fits : buffered.length ≤ limit)
    (reached : Runs.run (step limit) (init before buffered eof) acts = some t) : Inv limit t :=
  Runs.invariant_run (Inv limit) (fun _ _ _ inv stepped => step_inv inv stepped)
    (init_inv before eof fits) reached

/-- `read_task` starts, or continues after an await that suspended it. -/
def ReadResumed (s : Loop) : Prop :=
  s.running = some .read ∧ (s.readTask = .created ∨ s.readTask = .awaitingData ∨
    s.readTask = .blockedClose ∨ ∃ data, s.readTask = .blockedPut data)

/-- The running task is about to enter `async with self.not_empty` or to leave `wait`. -/
def Acquiring (s : Loop) : Prop :=
  (s.running = some .read ∧ (s.readTask = .acquiringClose ∨
    ∃ data, s.readTask = .acquiringPut data)) ∨
  (s.running = some .write ∧ s.writeTask = .acquiringGet)

theorem acquiring_free {limit : Nat} {s : Loop} (inv : Inv limit s) (acquiring : Acquiring s) :
    s.locked = false := by
  rcases acquiring with ⟨busy, pc | ⟨data, pc⟩⟩ | ⟨busy, pc⟩
  · exact read_unlocked inv busy (by simp [pc])
  · exact read_unlocked inv busy (by simp [pc])
  · exact write_unlocked inv busy (by simp [pc])

theorem resumed_drained {limit : Nat} {s : Loop} (inv : Inv limit s) (resumed : ReadResumed s) :
    s.queue.items = [] := by
  obtain ⟨busy, pc | pc | pc | ⟨data, pc⟩⟩ := resumed
  · exact inv.resumed busy (.inl pc)
  · exact inv.resumed busy (.inr pc)
  · exact absurd pc (inv.readBusy busy).2.1
  · exact absurd pc ((inv.readBusy busy).2.2 data)

theorem queue_takes_turns {limit : Nat} {before : List Nat} {buffered : Bytes} {eof : Bool}
    {acts : List Act} {s : Loop} (fits : buffered.length ≤ limit)
    (reached : Runs.run (step limit) (init before buffered eof) acts = some s) :
    s.queue.items.length ≤ chunks limit ∧
      (ReadResumed s → s.queue.items = []) ∧
      s.lockWaiters = [] ∧ (Acquiring s → s.locked = false) := by
  have inv := run_inv fits reached
  have bound := inv.bound
  exact ⟨by omega, resumed_drained inv, inv.lockWaiters, acquiring_free inv⟩

/-- One byte arrives between the first turn of `read_task` and that of `write_task`. -/
def oneByteTurns : List Act :=
  [.dispatch, .exec, .dispatch, .exec, .exec, .arrive [7], .dispatch, .exec, .exec, .exec,
    .dispatch, .exec, .exec, .exec, .exec, .exec, .dispatch, .exec, .exec, .exec, .exec, .exec]

theorem queue_takes_turns_one_byte : ∃ s,
    Runs.run (step 1) (init [3] [] false) oneByteTurns = some s ∧ s.written = [7] ∧
      s.queue.items.length ≤ chunks 1 ∧ (ReadResumed s → s.queue.items = []) ∧
      s.lockWaiters = [] ∧ (Acquiring s → s.locked = false) := by
  obtain ⟨s, reached, delivered⟩ : ∃ s,
      Runs.run (step 1) (init [3] [] false) oneByteTurns = some s ∧ s.written = [7] :=
    Runs.reaches (by decide)
  exact ⟨s, reached, delivered, queue_takes_turns (by simp) reached⟩

end TurnTaking
