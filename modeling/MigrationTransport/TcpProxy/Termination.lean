import MigrationTransport.Lib.Ranking
import MigrationTransport.TcpProxy.HalfClose
import MigrationTransport.TcpProxy.Ordering

/-!
A session of the TCP proxy comes to its end, if its two peers come to theirs: each sends a
finite stream, and an end of stream after it. In every interleaving, whatever raises and
whenever the handler is cancelled, the session takes a bounded number of steps. Where it can
take none of its own it is over, or one of its reads waits for a peer that sends nothing.
-/
namespace Termination
open ByteStream ForwardData Lossless ProxySession HalfClose Ordering Ranking
open Histogram (Touched)

def taskRank : TaskPc → Nat
  | .absent | .finished => 0
  | .created => 9
  | .gathering => 1

def readRank : ReadPc → Nat
  | .absent | .finished => 0
  | .created => 4
  | .reading => 3
  | .putting _ => 7
  | .closing => 2

def writeRank : WritePc → Nat
  | .absent | .finished => 0
  | .created | .writing _ => 3
  | .getting => 2
  | .parked => 1

/-- A byte pays for the `read` that takes it and a chunk for its way through the queue. -/
def rank (f : Forward) : Nat :=
  taskRank f.task + readRank f.readTask + writeRank f.writeTask + 2 * f.queue.items.length +
    5 * f.unread.length

theorem put_length (q : CircularQueue Bytes queueSize) (data : Bytes) :
    (q.put data).items.length ≤ q.items.length + 1 := by
  unfold CircularQueue.put
  split
  · exact Nat.le_succ _
  · simp only [CircularQueue.items, BoundedDeque.append, List.length_drop, List.length_append,
      List.length_singleton]
    omega

theorem notify_rank (pc : WritePc) : writeRank (notify pc) ≤ writeRank pc + 1 := by
  cases pc <;> simp [notify, writeRank]

theorem step_rank {f g : Forward} {a : ForwardData.Act} (life : Lifecycle f)
    (stepped : ForwardData.step f a = some g) : rank g < rank f := by
  cases step_effect stepped with
  | start created =>
    obtain ⟨noRead, noWrite⟩ := life.idle (.inr created)
    simp only [rank, created, noRead, noWrite, taskRank, readRank, writeRank]
    omega
  | put data putting =>
    have one := put_length f.queue data
    have woken := notify_rank f.writeTask
    simp only [rank, putting, readRank]
    omega
  | close closing =>
    have woken := notify_rank f.writeTask
    simp only [rank, closing, readRank, CircularQueue.close_items]
    omega
  | getItem data rest getting kept got =>
    have content := (CircularQueue.get_item got).1
    simp only [rank, getting, content, writeRank, List.length_cons]
    omega
  | read n reading kept positive small available =>
    simp only [rank, reading, readRank, List.length_drop]
    omega
  | dropped here | startRead here | startWrite here | eof here | readRaises here
  | getWaits here | getNone here | write _ here | writeRaises _ here | gathered here =>
    simp only [rank, here, taskRank, readRank, writeRank]
    omega
  | cancelReading wanted awaits =>
    rcases awaits with here | ⟨data, here⟩ <;> simp only [rank, here, readRank] <;> omega
  | cancelRead wanted awaits =>
    rcases awaits with here | here <;> simp only [rank, here, readRank] <;> omega
  | cancelWrite wanted awaits =>
    rcases awaits with here | here | here <;> simp only [rank, here, writeRank] <;> omega

/-- Why no task waits for ever: a parked writer has been told nothing yet, and once nothing
    more will be put, it has been told, or is being cancelled. -/
structure Alert (f : Forward) : Prop where
  idle : f.task = .absent ∨ f.task = .created → f.readCancelled = false ∧ f.writeCancelled = false
  running : f.task = .gathering → f.readTask ≠ .absent ∧ f.writeTask ≠ .absent
  parked : f.writeTask = .parked → f.queue.items = [] ∧ f.queue.closed = false
  ended : f.readTask = .finished →
    f.queue.closed = true ∨ f.writeCancelled = true ∨ f.writeTask = .finished
  paired : f.readCancelled = true → f.writeCancelled = true ∨ f.writeTask = .finished
  asked : f.cancelled = true → f.task = .gathering →
    f.readCancelled = true ∨ f.readTask = .closing ∨ f.readTask = .finished

theorem absent_alert (stream : Bytes) : Alert (absent stream) := by
  constructor <;> simp [absent]

theorem create_alert {f : Forward} (fresh : f.task = .absent) (alert : Alert f) :
    Alert (create f) :=
  ⟨fun _ => alert.idle (.inl fresh), by simp [create], alert.parked, alert.ended, alert.paired,
    by simp [create]⟩

theorem cancel_alert {f : Forward} (alert : Alert f) : Alert (cancel f) := by
  obtain ⟨idle, running, parked, ended, paired, asked⟩ := alert
  unfold cancel
  split
  · exact ⟨idle, running, parked, ended, paired, asked⟩
  · exact ⟨idle, running, parked, ended, paired, asked⟩
  · rename_i created
    exact ⟨idle, running, parked, ended, paired, by simp [created]⟩
  · rename_i gathering
    refine ⟨by simp [gathering], running, parked, fun done => ?_, fun _ => ?_, fun _ _ => ?_⟩
    · rcases ended done with shut | wanted | gone
      · exact .inl shut
      · exact .inr (.inl (by simp [wanted]))
      · exact .inr (.inr gone)
    · by_cases gone : f.writeTask = .finished
      · exact .inr gone
      · exact .inl (by simp [gone])
    · by_cases done : f.readTask = .finished
      · exact .inr (.inr done)
      · exact .inl (by simp [done])

@[simp] theorem notify_parked (pc : WritePc) : notify pc ≠ .parked := by
  cases pc <;> simp [notify]

theorem step_alert {f g : Forward} {a : ForwardData.Act} (alert : Alert f)
    (stepped : ForwardData.step f a = some g) : Alert g := by
  obtain ⟨idle, running, parked, ended, paired, asked⟩ := alert
  cases step_effect stepped with
  | start created kept =>
    obtain ⟨calmRead, calmWrite⟩ := idle (.inr created)
    constructor <;> simp_all
  | put data putting =>
    refine ⟨idle, ?_, by simp, by simp, by simpa using paired, ?_⟩
    · intro gathering
      simpa using (running gathering).2
    · intro wanted gathering
      simpa [putting] using asked wanted gathering
  | close closing =>
    refine ⟨idle, ?_, by simp, by simp, by simpa using paired, by simp⟩
    intro gathering
    simpa using (running gathering).2
  | getWaits getting kept got =>
    have empty := CircularQueue.get_wait.mp got
    constructor <;> simp_all
  | getItem data rest getting kept got =>
    have same := (CircularQueue.get_item got).2
    constructor <;> simp_all
  | cancelReading wanted awaits =>
    have pair := paired wanted
    constructor <;> simp_all
  | cancelRead wanted awaits =>
    have pair := paired wanted
    constructor <;> simp_all
  | _ => constructor <;> simp_all

/-- Reading, with nothing there to read and no request to stop: the peer's turn. -/
def Waiting (f : Forward) : Prop :=
  f.readTask = .reading ∧ f.readCancelled = false ∧ f.unread = []

/-- Steps that no failure is needed for, and that are not the peer's end of stream. -/
def ownStep : ForwardData.Act → Bool
  | .readRaises | .writeRaises | .eof => false
  | _ => true

theorem eof_possible (f : Forward) : ForwardData.step f .eof ≠ none ↔ Waiting f := by
  simp [ForwardData.step, Waiting]

/-- A writer that is left behind by the reader always has a step. -/
theorem write_moves {f : Forward} (alert : Alert f) (gathering : f.task = .gathering)
    (readDone : f.readTask = .finished) : ∃ a, ownStep a = true ∧ ForwardData.step f a ≠ none := by
  have born := (alert.running gathering).2
  cases writeTask : f.writeTask with
  | absent => exact absurd writeTask born
  | created =>
    by_cases wanted : f.writeCancelled = true
    · exact ⟨.cancelWrite, rfl, by simp [ForwardData.step, wanted, writeTask]⟩
    · exact ⟨.startWrite, rfl, by simp [ForwardData.step, wanted, writeTask]⟩
  | getting =>
    by_cases wanted : f.writeCancelled = true
    · exact ⟨.cancelWrite, rfl, by simp [ForwardData.step, wanted, writeTask]⟩
    · refine ⟨.get, rfl, ?_⟩
      simp only [ForwardData.step, wanted, writeTask]
      cases f.queue.get <;> simp
  | parked =>
    have opened := (alert.parked writeTask).2
    have wanted : f.writeCancelled = true := by
      simpa [opened, writeTask] using alert.ended readDone
    exact ⟨.cancelWrite, rfl, by simp [ForwardData.step, wanted, writeTask]⟩
  | writing data => exact ⟨.write, rfl, by simp [ForwardData.step, writeTask]⟩
  | finished =>
    exact ⟨.gathered, rfl, by simp [ForwardData.step, gathering, readDone, writeTask]⟩

theorem read_moves {f : Forward} (notWaiting : ¬ Waiting f) (born : f.readTask ≠ .absent)
    (running : f.readTask ≠ .finished) :
    ∃ a, ownStep a = true ∧ ForwardData.step f a ≠ none := by
  by_cases wanted : f.readCancelled = true
  · refine ⟨.cancelRead, rfl, ?_⟩
    cases readTask : f.readTask <;> simp_all [ForwardData.step]
  · cases readTask : f.readTask with
    | absent => exact absurd readTask born
    | created => exact ⟨.startRead, rfl, by simp [ForwardData.step, wanted, readTask]⟩
    | reading =>
      have more : f.unread ≠ [] := by
        intro ended
        exact notWaiting ⟨readTask, by simpa using wanted, ended⟩
      have positive : 1 ≤ f.unread.length := List.length_pos_iff.mpr more
      exact ⟨.read 1, rfl, by simp [ForwardData.step, wanted, readTask, readSize, positive]⟩
    | putting data => exact ⟨.put, rfl, by simp [ForwardData.step, wanted, readTask]⟩
    | closing => exact ⟨.close, rfl, by simp [ForwardData.step, wanted, readTask]⟩
    | finished => exact absurd readTask running

/-- A call that has started and has not ended waits for its peer or has a step of its own. -/
theorem forward_moves {f : Forward} (alert : Alert f) (alive : ¬ AtRest f) :
    Waiting f ∨ ∃ a, ownStep a = true ∧ ForwardData.step f a ≠ none := by
  cases task : f.task with
  | absent => exact absurd (.inl task) alive
  | finished => exact absurd (.inr task) alive
  | created =>
    by_cases wanted : f.cancelled = true
    · exact .inr ⟨.dropped, rfl, by simp [ForwardData.step, task, wanted]⟩
    · exact .inr ⟨.start, rfl, by simp [ForwardData.step, task, wanted]⟩
  | gathering =>
    by_cases waiting : Waiting f
    · exact .inl waiting
    · by_cases readDone : f.readTask = .finished
      · exact .inr (write_moves alert task readDone)
      · exact .inr (read_moves waiting (alert.running task).1 readDone)

@[simp] theorem cancel_rank (f : Forward) : rank (cancel f) = rank f := by
  unfold cancel
  split <;> rfl

theorem create_rank {f : Forward} (fresh : f.task = .absent) : rank (create f) = rank f + 9 := by
  simp only [rank, create, fresh, taskRank]
  omega

theorem step_cancelled {f g : Forward} {a : ForwardData.Act}
    (stepped : ForwardData.step f a = some g) : g.cancelled = f.cancelled := by
  cases step_effect stepped <;> rfl

theorem step_task_absent {f g : Forward} {a : ForwardData.Act}
    (stepped : ForwardData.step f a = some g) (present : f.task ≠ .absent) : g.task ≠ .absent := by
  cases step_effect stepped <;> first | exact present | simp

theorem cancel_cancelled {f : Forward} (present : f.task ≠ .absent) :
    (cancel f).cancelled = true ∨ f.task = .finished := by
  cases task : f.task with
  | absent => exact absurd task present
  | finished => exact .inr rfl
  | created | gathering => exact .inl (by simp [cancel, task])

def handlerRank : HandlerPc → Nat
  | .connecting => 23
  | .waiting => 4
  | .joining _ => 3
  | .closingOpened => 2
  | .closingAccepted => 1
  | .finished => 0

def sessionRank (s : Session) : Nat :=
  handlerRank s.handler + (rank (s.forward .outward) + rank (s.forward .inward))

theorem enterFinally_rank (s : Session) :
    sessionRank (enterFinally s) ≤
      2 + (rank (s.forward .outward) + rank (s.forward .inward)) := by
  have bounded : handlerRank (enterFinally s).handler ≤ 2 := by
    unfold enterFinally closeAccepted
    split <;> simp [handlerRank]
  rw [sessionRank, enterFinally_forward]
  omega

theorem cancelForward_rank (s : Session) (d e : Direction) :
    rank ((cancelForward s d).forward e) = rank (s.forward e) := by
  by_cases same : e = d
  · subst same
    simp [cancelForward]
  · simp [cancelForward, same]

theorem update_rank {s : Session} {d : Direction} {g : Forward}
    (lower : rank g < rank (s.forward d)) :
    rank (Function.update s.forward d g .outward) + rank (Function.update s.forward d g .inward) <
      rank (s.forward .outward) + rank (s.forward .inward) := by
  cases d with
  | outward =>
    simp only [Function.update_self, ne_eq, reduceCtorEq, not_false_eq_true,
      Function.update_of_ne]
    omega
  | inward =>
    simp only [Function.update_self, ne_eq, reduceCtorEq, not_false_eq_true,
      Function.update_of_ne]
    omega

def countedAct (a : ProxySession.Act) : Bool := decide (a ≠ .cancelHandler)

theorem session_rank {e : Endpoint} {s t : Session} {a : ProxySession.Act} (orderly : Orderly s)
    (stepped : ProxySession.step e s a = some t) :
    sessionRank t ≤ sessionRank s ∧ (countedAct a = true → sessionRank t < sessionRank s) := by
  have ended := enterFinally_rank s
  cases ProxySession.step_effect stepped with
  | connected connecting =>
    have fresh := (orderly.connecting connecting).2
    simp only [sessionRank, connecting, handlerRank, create_rank (fresh _)]
    omega
  | connectRaises connecting =>
    simp only [sessionRank, connecting, handlerRank] at ended ⊢
    omega
  | forward d moved =>
    have lower := update_rank (step_rank (orderly.life d) moved)
    simp only [sessionRank]
    omega
  | bothDone waiting =>
    simp only [sessionRank, waiting, handlerRank] at ended ⊢
    omega
  | oneDone d waiting =>
    simp only [sessionRank, waiting, handlerRank, cancelForward_rank]
    omega
  | joined d joining =>
    simp only [sessionRank, joining, handlerRank] at ended ⊢
    omega
  | closedOpened closing =>
    simp only [sessionRank, closing, handlerRank, closeAccepted]
    omega
  | closedAccepted closing =>
    simp only [sessionRank, closing, handlerRank]
    omega
  | waitClosedRaises closing | cancelClosing closing =>
    rcases closing with here | here <;> simp only [sessionRank, here, handlerRank] <;> omega
  | cancelTrying trying =>
    have left := enterFinally_rank
      { s with outcome := if e.catchesCancelled then s.outcome else .cancelled }
    rw [cancelTry]
    rcases trying with here | here <;> simp only [sessionRank, here, handlerRank] at left ⊢ <;>
      omega
  | cancelJoining d joining =>
    have same : sessionRank (cancelForward s d) = sessionRank s := by
      rw [sessionRank, cancelForward_rank, cancelForward_rank]
      rfl
    simp [same, countedAct]

/-- What a session keeps to besides `Orderly`, for its end. -/
structure Steady (s : Session) : Prop where
  orderly : Orderly s
  alert : ∀ d, Alert (s.forward d)
  started : s.handler = .waiting ∨ (∃ d, s.handler = .joining d) →
    ∀ d, (s.forward d).task ≠ .absent
  asked : ∀ d, s.handler = .joining d →
    (s.forward d).cancelled = true ∨ (s.forward d).task = .finished

theorem init_steady (stream : Direction → Bytes) : Steady (ProxySession.init stream) := by
  refine ⟨init_orderly stream, fun d => absent_alert (stream d), ?_, ?_⟩ <;>
    simp [ProxySession.init]

theorem touched_alert {f g : Forward} (alert : Alert f) (touched : Touched f g) : Alert g := by
  cases touched with
  | kept => exact alert
  | created fresh => exact create_alert fresh alert
  | cancelled => exact cancel_alert alert

theorem session_alert {e : Endpoint} {s t : Session} {a : ProxySession.Act} (orderly : Orderly s)
    (alert : ∀ d, Alert (s.forward d)) (stepped : ProxySession.step e s a = some t) :
    ∀ d, Alert (t.forward d) :=
  session_forwards (fun _ _ before touched => touched_alert before touched)
    (fun _ _ _ _ before moved => step_alert before moved) orderly alert stepped

theorem past_steady {s : Session} (orderly : Orderly s) (alert : ∀ d, Alert (s.forward d))
    (past : PastTry s.handler) : Steady s := by
  refine ⟨orderly, alert, ?_, ?_⟩ <;> rcases past with here | here | here <;> simp [here]

theorem step_steady {e : Endpoint} {s t : Session} {a : ProxySession.Act} (steady : Steady s)
    (stepped : ProxySession.step e s a = some t) : Steady t := by
  have orderly := step_orderly steady.orderly stepped
  have alert := session_alert steady.orderly steady.alert stepped
  cases ProxySession.step_effect stepped with
  | connected connecting =>
    exact ⟨orderly, alert, fun _ d => by simp [create], by simp⟩
  | forward d moved =>
    refine ⟨orderly, alert, fun trying other => ?_, fun other joining => ?_⟩
    · have present := steady.started trying other
      by_cases same : other = d
      · subst same
        simpa using step_task_absent moved present
      · simpa [same] using present
    · have wanted := steady.asked other joining
      by_cases same : other = d
      · subst same
        simp only [Function.update_self, step_cancelled moved]
        apply wanted.imp id
        intro done
        exact (step_at_rest (.inr done) moved).trans done
      · simpa [same] using wanted
  | oneDone d waiting =>
    have present := steady.started (.inl waiting)
    refine ⟨orderly, alert, fun _ other => by simpa using present other, fun other joining => ?_⟩
    rw [HandlerPc.joining.injEq] at joining
    subst joining
    simpa [cancelForward] using cancel_cancelled (present d)
  | cancelJoining d joining =>
    have present := steady.started (.inr ⟨d, joining⟩)
    refine ⟨orderly, alert, fun _ other => by simpa using present other, fun other same => ?_⟩
    have here : other = d := by simpa [cancelForward, joining] using same.symm
    subst here
    simpa [cancelForward] using cancel_cancelled (present other)
  | connectRaises | bothDone | joined => exact past_steady orderly alert (enterFinally_past s)
  | cancelTrying => exact past_steady orderly alert (enterFinally_past _)
  | closedOpened => exact past_steady orderly alert (.inr (.inl rfl))
  | closedAccepted | waitClosedRaises | cancelClosing =>
    exact past_steady orderly alert (.inr (.inr rfl))

theorem steady_ranked (e : Endpoint) :
    Ranked (ProxySession.step e) countedAct Steady sessionRank where
  preserved _ _ _ steady stepped := step_steady steady stepped
  never _ _ _ steady stepped := (session_rank steady.orderly stepped).1
  lowers _ _ _ steady counts stepped := (session_rank steady.orderly stepped).2 counts

/-- No step of its own is left to this call, and its peer owes it nothing. -/
theorem blocked_rest {f : Forward} (alert : Alert f)
    (own : ∀ a, ownStep a = true → ForwardData.step f a = none) (served : ¬ Waiting f) :
    AtRest f := by
  by_contra alive
  rcases forward_moves alert alive with waiting | ⟨a, mine, enabled⟩
  · exact served waiting
  · exact enabled (own a mine)

theorem cancelled_served {f : Forward} (life : Lifecycle f) (alert : Alert f)
    (asked : f.cancelled = true ∨ f.task = .finished) : ¬ Waiting f := by
  rintro ⟨reading, kept, -⟩
  have gathering : f.task = .gathering := by
    cases task : f.task with
    | gathering => rfl
    | absent => simpa [reading] using (life.idle (.inl task)).1
    | created => simpa [reading] using (life.idle (.inr task)).1
    | finished => rcases life.ended task with ended | ended <;> simp [reading] at ended
  rcases asked with wanted | done
  · rcases alert.asked wanted gathering with here | here | here <;> simp_all
  · simp [gathering] at done

theorem wait_returns {e : Endpoint} {s : Session} {first : Direction}
    (waiting : s.handler = .waiting) (done : (s.forward first).task = .finished) :
    ProxySession.step e s .waitReturns ≠ none := by
  cases first with
  | outward =>
    by_cases both : (s.forward .inward).task = .finished <;>
      simp [ProxySession.step, waiting, done, both]
  | inward =>
    by_cases both : (s.forward .outward).task = .finished <;>
      simp [ProxySession.step, waiting, done, both]

/-- A handler past `connecting` that can take no step has finished, if one of its two
    peers owes it nothing. -/
theorem handler_ends {e : Endpoint} {s : Session} (steady : Steady s)
    (blocked : ∀ a, (∀ d x, a ≠ .forward d x) → undisturbed a = true →
      ProxySession.step e s a = none)
    (own : ∀ d a, ownStep a = true → ForwardData.step (s.forward d) a = none)
    {first : Direction} (served : ¬ Waiting (s.forward first))
    (connected : s.handler ≠ .connecting) : s.handler = .finished := by
  have rest := fun d => blocked_rest (steady.alert d) (own d)
  cases handler : s.handler with
  | connecting => exact absurd handler connected
  | finished => rfl
  | waiting =>
    have done : (s.forward first).task = .finished :=
      (rest first served).resolve_left (steady.started (.inl handler) first)
    exact absurd (blocked .waitReturns (by simp) rfl) (wait_returns handler done)
  | joining d =>
    have asked := steady.asked d handler
    have done : (s.forward d).task = .finished :=
      (rest d (cancelled_served (steady.orderly.life d) (steady.alert d) asked)).resolve_left
        (steady.started (.inr ⟨d, handler⟩) d)
    have stuck := blocked .joined (by simp) rfl
    simp [ProxySession.step, handler, done] at stuck
  | closingOpened | closingAccepted =>
    have stuck := blocked .waitClosed (by simp) rfl
    simp [ProxySession.step, handler] at stuck

def SessionOver (s : Session) : Prop := s.handler = .finished ∧ ∀ d, AtRest (s.forward d)

theorem stuck_over {e : Endpoint} {s : Session} (steady : Steady s)
    (stuck : Stuck (ProxySession.step e) undisturbed s) : SessionOver s := by
  have still : ∀ d a, faultless a = true → ForwardData.step (s.forward d) a = none := by
    intro d a fine
    have refused := stuck (.forward d a) fine
    simpa [ProxySession.step] using refused
  have own : ∀ d a, ownStep a = true → ForwardData.step (s.forward d) a = none := by
    intro d a mine
    apply still d a
    cases a <;> simp_all [ownStep, faultless]
  have served : ∀ d, ¬ Waiting (s.forward d) := by
    intro d waiting
    exact (eof_possible _).mpr waiting (still d .eof rfl)
  have connected : s.handler ≠ .connecting := by
    intro connecting
    have refused := stuck .connected rfl
    simp [ProxySession.step, connecting] at refused
  refine ⟨handler_ends steady (fun a _ fine => stuck a fine) own (served .outward) connected, ?_⟩
  intro d
  exact blocked_rest (steady.alert d) (own d) (served d)

/-- The steps of the proxy itself: a peer's end of stream is not one. -/
def ownAct : ProxySession.Act → Bool
  | .forward _ .eof => false
  | a => undisturbed a

theorem stuck_waits {e : Endpoint} {s : Session} (steady : Steady s)
    (stuck : Stuck (ProxySession.step e) ownAct s) :
    SessionOver s ∨ ∃ d, Waiting (s.forward d) := by
  have halted : Stuck (ProxySession.step e) undisturbed s ∨ ∃ d, Waiting (s.forward d) := by
    apply stuck_or_awaits stuck
    intro a t fine foreign stepped
    unfold ownAct at foreign
    split at foreign
    · rename_i d
      obtain ⟨g, moved, -⟩ := Option.map_eq_some_iff.mp stepped
      exact ⟨d, (eof_possible _).mp (by simp [moved])⟩
    · rw [fine] at foreign
      cases foreign
  exact halted.imp_left (stuck_over steady)

end Termination
