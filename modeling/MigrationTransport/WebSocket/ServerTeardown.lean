import MigrationTransport.WebSocket.Server

/-!
What a session of the WebSocket server leaves behind. Its entry is always removed; its
`unix_writer` is closed and its loops have ended unless the handler is cancelled while it
awaits `asyncio.wait`.
-/
namespace ServerTeardown
open ByteStream WebSocketServer
open WebSocketPipe (Pipes PipesAct)
open WebSocketTunnel (Task)
open Cleanup (ConnectionId)

def BothDone (p : Pipes) : Prop := ∀ t, taskDone p t = true

@[simp] theorem receiveDone (p : Pipes) :
    taskDone p .wsToUnix = true ↔ p.up.wsToUnix = .finished := by
  simp [taskDone]

@[simp] theorem sendDone (p : Pipes) :
    taskDone p .unixToWs = true ↔ p.down.unixToWs = .finished := by
  simp [taskDone]

@[simp] theorem askTask_done (p : Pipes) (t k : Task) :
    taskDone (askTask p t) k = taskDone p k := by
  apply Bool.eq_iff_iff.mpr
  cases t <;> cases k <;> simp [askTask]

theorem traffic_done {p q : Pipes} {a : PipesAct} (stepped : p.step a = some q) {t : Task}
    (done : taskDone p t = true) : taskDone q t = true := by
  cases a with
  | up a =>
    simp only [Pipes.step, Option.map_eq_some_iff] at stepped
    obtain ⟨up, moved, rfl⟩ := stepped
    cases t with
    | wsToUnix =>
      rw [receiveDone] at done ⊢
      exact WebSocketPipe.receive_stays_finished moved done
    | unixToWs => exact done
  | down a =>
    simp only [Pipes.step, Option.map_eq_some_iff] at stepped
    obtain ⟨down, moved, rfl⟩ := stepped
    cases t with
    | wsToUnix => exact done
    | unixToWs =>
      rw [sendDone] at done ⊢
      exact WebSocketPipe.send_stays_finished moved done
  | createServerTasks =>
    simp only [Pipes.step, Option.some.injEq] at stepped
    subst stepped
    cases t with
    | wsToUnix =>
      rw [receiveDone] at done ⊢
      exact WebSocketPipe.createReceive_finished done
    | unixToWs =>
      rw [sendDone] at done ⊢
      exact WebSocketPipe.createSend_finished done
  | createClientTasks =>
    simp only [Pipes.step, Option.some.injEq] at stepped
    subst stepped
    cases t <;> simpa [Pipes.createClientTasks] using done
  | _ =>
    simp only [Pipes.step, Option.some.injEq] at stepped
    subst stepped
    cases t <;> simpa using done

/-- How far the handler is, and what it has done by then, if nothing cut it off. -/
def Tended (s : Session) : Prop :=
  match s.pc with
  | .absent | .opening _ | .sleeping _ => s.opened = false ∧ s.unixClosed = false
  | .waiting => s.opened = true ∧ s.unixClosed = false ∧ s.cancelled = false
  | .joining t => taskDone s.pipes (other t) = true
  | .closingUnix => s.unixClosed = true ∧ BothDone s.pipes
  | .finished => s.opened = true → s.unixClosed = true ∧ BothDone s.pipes

/-- The handler is to leave, or has left, by an exception out of `asyncio.wait`. -/
def CutOff (s : Session) : Prop :=
  s.opened = true ∧ s.unixClosed = false ∧
    ((s.pc = .waiting ∧ s.cancelled = true) ∨ s.pc = .finished)

section Session
variable {s t : Session} {a : SessionAct}

theorem tended_trying (tended : Tended s) (connecting : trying s.pc = true) :
    s.opened = false ∧ s.unixClosed = false := by
  unfold Tended at tended
  cases here : s.pc with
  | opening n => rwa [here] at tended
  | sleeping n => rwa [here] at tended
  | _ => simp [here, trying] at connecting

theorem trying_tended (connecting : trying s.pc = true)
    (unopened : s.opened = false ∧ s.unixClosed = false) : Tended s := by
  unfold Tended
  cases here : s.pc with
  | opening n => exact unopened
  | sleeping n => exact unopened
  | _ => simp [here, trying] at connecting

theorem tended_traffic {pipes : Pipes} (tended : Tended s)
    (later : ∀ k, taskDone s.pipes k = true → taskDone pipes k = true) :
    Tended { s with pipes := pipes } := by
  unfold Tended at tended ⊢
  cases here : s.pc with
  | joining k =>
    rw [here] at tended
    exact later _ tended
  | closingUnix =>
    rw [here] at tended
    exact ⟨tended.1, fun k => later k (tended.2 k)⟩
  | finished =>
    rw [here] at tended
    intro opened
    exact ⟨(tended opened).1, fun k => later k ((tended opened).2 k)⟩
  | _ =>
    rw [here] at tended
    exact tended

theorem both_done {p : Pipes} {k : Task} (first : taskDone p k = true)
    (second : taskDone p (other k) = true) : BothDone p := by
  intro t
  cases k <;> cases t <;> assumption

theorem step_tended (tended : Tended s) (fine : a = .cancel → s.pc ≠ .waiting)
    (stepped : s.step a = some t) : Tended t := by
  cases step_moved stepped with
  | opened connecting kept =>
    exact ⟨rfl, (tended_trying tended connecting).2, kept⟩
  | tries connecting still =>
    have unopened := tended_trying tended connecting
    exact trying_tended still unopened
  | givesUp connecting =>
    have unopened := (tended_trying tended connecting).1
    intro opened
    simp [unopened] at opened
  | waited waiting kept done => exact ⟨rfl, done⟩
  | cancels k waiting kept done => simpa [Tended, cancelTask] using done
  | joined k joining done =>
    have others : taskDone s.pipes (other k) = true := by simpa [Tended, joining] using tended
    exact ⟨rfl, both_done done others⟩
  | closed closing =>
    have both : s.unixClosed = true ∧ BothDone s.pipes := by
      simpa only [Tended, closing] using tended
    exact fun _ => both
  | handedOn k joining => exact tended_traffic tended (by simp)
  | asked awaits =>
    rcases awaits with connecting | waiting | closing
    · have unopened := tended_trying tended connecting
      exact trying_tended connecting unopened
    · exact absurd waiting (fine rfl)
    · simpa only [Tended, closing] using tended
  | cutOff waiting wanted =>
    have kept : s.opened = true ∧ s.unixClosed = false ∧ s.cancelled = false := by
      simpa only [Tended, waiting] using tended
    simp [kept.2.2] at wanted
  | traffic moved => exact tended_traffic tended fun k => traffic_done moved
  | arrives message => exact tended_traffic tended fun k done => done

theorem cancel_cuts_off (tended : Tended s) (waiting : s.pc = .waiting)
    (stepped : s.step .cancel = some t) : CutOff t := by
  simp only [Session.step, waiting, Option.some.injEq] at stepped
  subst stepped
  have kept : s.opened = true ∧ s.unixClosed = false ∧ s.cancelled = false := by
    simpa only [Tended, waiting] using tended
  exact ⟨kept.1, kept.2.1, .inl ⟨rfl, rfl⟩⟩

theorem cut_off_stays (cut : CutOff s) (stepped : s.step a = some t) : CutOff t := by
  obtain ⟨opened, unclosed, place⟩ := cut
  have elsewhere : ¬ trying s.pc = true := by
    rcases place with ⟨waiting, -⟩ | gone <;> simp [trying, *]
  cases step_moved stepped with
  | opened connecting kept => exact absurd connecting elsewhere
  | tries connecting still => exact absurd connecting elsewhere
  | givesUp connecting => exact absurd connecting elsewhere
  | waited waiting kept done => simp [waiting, kept] at place
  | cancels k waiting kept done => simp [waiting, kept] at place
  | joined k joining done => simp [joining] at place
  | closed closing => simp [closing] at place
  | handedOn k joining => simp [joining] at place
  | asked awaits => exact ⟨opened, unclosed, place.imp (fun here => ⟨here.1, rfl⟩) id⟩
  | cutOff waiting wanted => exact ⟨opened, unclosed, .inr rfl⟩
  | traffic moved => exact ⟨opened, unclosed, place⟩
  | arrives message => exact ⟨opened, unclosed, place⟩

theorem step_id (stepped : s.step a = some t) : t.id = s.id := by
  cases step_moved stepped <;> rfl

theorem step_begun (begun : s.pc ≠ .absent) (stepped : s.step a = some t) : t.pc ≠ .absent := by
  cases step_moved stepped with
  | tries connecting still =>
    rintro rfl
    simp [trying] at still
  | handedOn k joining => exact begun
  | asked awaits => exact begun
  | traffic moved => exact begun
  | arrives message => exact begun
  | _ => simp [closeUnix, cancelTask]

end Session

/-- A session is registered under its own id, and only while its handler runs. -/
def Recorded (c : Nat) (s : Server) : Prop :=
  ∀ id, s.activeConnections.get id = some ⟨c⟩ →
    id = (s.sessions c).id ∧ (s.sessions c).pc ≠ .absent ∧ (s.sessions c).pc ≠ .finished

theorem get_remove (d : OrderedDict ConnectionId ClientInfo) (key id : ConnectionId) :
    (remove d key).get id = if id = key then none else d.get id := by
  unfold remove
  cases deleted : d.del key with
  | none =>
    rw [Option.getD_none]
    split
    · rename_i same
      rw [same]
      exact OrderedDict.del_none.mp deleted
    · rfl
  | some rest => rw [Option.getD_some, OrderedDict.get_del deleted]

theorem session_recorded {c d : Nat} {s t : Server} {x : SessionAct} (recorded : Recorded c s)
    (stepped : step s (.session d x) = some t) : Recorded c t := by
  simp only [step, Option.map_eq_some_iff] at stepped
  obtain ⟨next, moved, rfl⟩ := stepped
  intro id held
  have before : s.activeConnections.get id = some ⟨c⟩ := by
    dsimp only at held
    split at held
    · rw [get_remove, Option.ite_none_left_eq_some] at held
      exact held.2
    · exact held
  obtain ⟨mine, begun, running⟩ := recorded id before
  by_cases same : c = d
  · subst same
    simp only [Function.update_self]
    refine ⟨mine.trans (step_id moved).symm, step_begun begun moved, ?_⟩
    intro ended
    simp [ended, running, get_remove, step_id moved, mine] at held
  · simp only [Function.update_of_ne same]
    exact ⟨mine, begun, running⟩

/-- What becomes of a session that was absent leaves the entry of another alone. -/
theorem recorded_beside {c d : Nat} {s : Server} {next : Session} (recorded : Recorded c s)
    (absent : (s.sessions d).pc = .absent) {id : ConnectionId}
    (held : s.activeConnections.get id = some ⟨c⟩) :
    id = (Function.update s.sessions d next c).id ∧
      (Function.update s.sessions d next c).pc ≠ .absent ∧
      (Function.update s.sessions d next c).pc ≠ .finished := by
  obtain ⟨mine, begun, running⟩ := recorded id held
  have different : c ≠ d := by
    rintro rfl
    exact begun absent
  rw [Function.update_of_ne different]
  exact ⟨mine, begun, running⟩

theorem step_recorded {c : Nat} {s t : Server} {a : Act} (recorded : Recorded c s)
    (stepped : step s a = some t) : Recorded c t := by
  cases a with
  | certificateRaises d =>
    simp only [step, Option.ite_none_right_eq_some, Option.some.injEq] at stepped
    obtain ⟨absent, rfl⟩ := stepped
    intro id held
    exact recorded_beside recorded absent held
  | connected d key there =>
    simp only [step, Option.ite_none_right_eq_some, Option.some.injEq] at stepped
    obtain ⟨absent, rfl⟩ := stepped
    intro id held
    rw [OrderedDict.get_set] at held
    split at held
    · rename_i same
      simp only [Option.some.injEq, ClientInfo.mk.injEq] at held
      subst held
      simp only [Function.update_self]
      exact ⟨same, by cases there <;> simp [attempt], by cases there <;> simp [attempt]⟩
    · exact recorded_beside recorded absent held
  | session d x => exact session_recorded recorded stepped

/-- The handler begins: it fails before its `try` block, or it is in `create_unix_connection`. -/
def Begins (before after : Session) : Prop :=
  before.pc = .absent ∧ (after = { before with pc := .finished } ∨
    ∃ id there, after = { before with pc := attempt 0 there, id := id })

section Server
variable {c : Nat} {s t : Server} {a : Act}

theorem own_step {x : SessionAct} (stepped : step s (.session c x) = some t) :
    (s.sessions c).step x = some (t.sessions c) := by
  simp only [step, Option.map_eq_some_iff] at stepped
  obtain ⟨next, moved, rfl⟩ := stepped
  simpa using moved

theorem other_step (notOwn : ∀ x, a ≠ .session c x) (stepped : step s a = some t) :
    t.sessions c = s.sessions c ∨ Begins (s.sessions c) (t.sessions c) := by
  cases a with
  | certificateRaises d =>
    simp only [step, Option.ite_none_right_eq_some, Option.some.injEq] at stepped
    obtain ⟨absent, rfl⟩ := stepped
    by_cases same : c = d
    · subst same
      exact .inr ⟨absent, .inl (by simp)⟩
    · exact .inl (Function.update_of_ne same ..)
  | connected d id there =>
    simp only [step, Option.ite_none_right_eq_some, Option.some.injEq] at stepped
    obtain ⟨absent, rfl⟩ := stepped
    by_cases same : c = d
    · subst same
      exact .inr ⟨absent, .inr ⟨id, there, by simp⟩⟩
    · exact .inl (Function.update_of_ne same ..)
  | session d x =>
    simp only [step, Option.map_eq_some_iff] at stepped
    obtain ⟨next, moved, rfl⟩ := stepped
    have different : c ≠ d := by
      rintro rfl
      exact notOwn x rfl
    exact .inl (Function.update_of_ne different ..)

theorem begins_tended {before after : Session} (tended : Tended before)
    (begins : Begins before after) : Tended after := by
  obtain ⟨absent, rfl | ⟨id, there, rfl⟩⟩ := begins
  all_goals
    have unopened : before.opened = false ∧ before.unixClosed = false := by
      simpa only [Tended, absent] using tended
  · intro opened
    simp [unopened.1] at opened
  · exact trying_tended (attempt_trying 0 there) unopened

/-- The handler of `c` is not cancelled while it awaits `asyncio.wait`. -/
def NotCutOff (c : Nat) (s : Server) (a : Act) : Prop :=
  a = .session c .cancel → (s.sessions c).pc ≠ .waiting

instance (c : Nat) (s : Server) (a : Act) : Decidable (NotCutOff c s a) := by
  unfold NotCutOff
  infer_instance

theorem server_tended (tended : Tended (s.sessions c)) (fine : NotCutOff c s a)
    (stepped : step s a = some t) : Tended (t.sessions c) := by
  by_cases own : ∃ x, a = .session c x
  · obtain ⟨x, rfl⟩ := own
    apply step_tended tended ?_ (own_step stepped)
    rintro rfl
    exact fine rfl
  · rcases other_step (by simpa using own) stepped with same | begins
    · rwa [same]
    · exact begins_tended tended begins

theorem server_breach (tended : Tended (s.sessions c)) (breach : ¬ NotCutOff c s a)
    (stepped : step s a = some t) : CutOff (t.sessions c) := by
  unfold NotCutOff at breach
  push Not at breach
  obtain ⟨rfl, waiting⟩ := breach
  exact cancel_cuts_off tended waiting (own_step stepped)

theorem server_cut_off (cut : CutOff (s.sessions c)) (stepped : step s a = some t) :
    CutOff (t.sessions c) := by
  by_cases own : ∃ x, a = .session c x
  · obtain ⟨x, rfl⟩ := own
    exact cut_off_stays cut (own_step stepped)
  · rcases other_step (by simpa using own) stepped with same | begins
    · rwa [same]
    · have place := cut.2.2
      simp [begins.1] at place

end Server

/-- Nothing of a session is left: its `unix_writer` is closed, its loops have ended and it is
    in the registry no more. -/
def TornDown (c : Nat) (s : Server) : Prop :=
  (s.sessions c).unixClosed = true ∧ BothDone (s.sessions c).pipes ∧
    ∀ id, s.activeConnections.get id ≠ some ⟨c⟩

theorem init_tended (source destination : Nat → Bytes) (c : Nat) :
    Tended ((init source destination).sessions c) :=
  ⟨rfl, rfl⟩

theorem init_recorded (source destination : Nat → Bytes) (c : Nat) :
    Recorded c (init source destination) := by
  intro id held
  simp [init] at held

/-- A session of the server is torn down if and only if its handler was never cancelled while
    it awaited `asyncio.wait`. -/
theorem session_torn_down_iff {source destination : Nat → Bytes} {acts : List Act} {s : Server}
    {c : Nat} (reached : Runs.run step (init source destination) acts = some s)
    (opened : (s.sessions c).opened = true) (done : (s.sessions c).pc = .finished) :
    TornDown c s ↔ Runs.Along step (NotCutOff c) (init source destination) acts := by
  constructor
  · intro torn
    by_contra broken
    have cut : CutOff (s.sessions c) :=
      Runs.breach_leads (fun s => Tended (s.sessions c)) (fun s => CutOff (s.sessions c))
        (fun _ _ => True) (fun _ _ _ tended _ => server_tended tended)
        (fun _ _ _ tended _ => server_breach tended) (fun _ _ _ cut _ => server_cut_off cut)
        (init_tended source destination c) (Runs.along_of_actions _ fun _ _ => trivial)
        reached broken
    exact Bool.false_ne_true (cut.2.1.symm.trans torn.1)
  · intro fine
    have tended : Tended (s.sessions c) :=
      Runs.invariant_along (fun s => Tended (s.sessions c))
        (fun _ _ _ tended => server_tended tended) (init_tended source destination c) fine reached
    have recorded : Recorded c s :=
      Runs.invariant_run (Recorded c) (fun _ _ _ => step_recorded)
        (init_recorded source destination c) reached
    simp only [Tended, done] at tended
    obtain ⟨closed, both⟩ := tended opened
    exact ⟨closed, both, fun id held => (recorded id held).2.2 done⟩

/-- QEMU closes its end, and the handler is cancelled while it awaits the other loop. -/
def cancelledLate : List Act :=
  .connected 0 5 true ::
    [.opened, .traffic (.down .startSend), .traffic (.up .startReceive), .arrives (.binary [1]),
      .traffic (.up .receive), .traffic (.down .eof), .waitReturns, .cancel,
      .traffic (.up .cancelReceive), .joined, .waitClosed].map (.session 0)

theorem session_torn_down_late : ∃ s,
    Runs.run step (init (fun _ => []) fun _ => []) cancelledLate = some s ∧ TornDown 0 s := by
  obtain ⟨s, reached, opened, done⟩ : ∃ s,
      Runs.run step (init (fun _ => []) fun _ => []) cancelledLate = some s ∧
        (s.sessions 0).opened = true ∧ (s.sessions 0).pc = .finished :=
    Runs.reaches (by decide)
  exact ⟨s, reached, (session_torn_down_iff reached opened done).mpr (by decide)⟩

/-- The handler is cancelled in `asyncio.wait`: `unix_writer` stays open and both loops go on. -/
theorem cancelled_session_left_open : ¬ ∀ (source destination : Nat → Bytes) (acts : List Act)
    (s : Server) (c : Nat), Runs.run step (init source destination) acts = some s →
      (s.sessions c).opened = true → (s.sessions c).pc = .finished → TornDown c s := by
  intro always
  obtain ⟨s, reached, opened, done, left⟩ : ∃ s, Runs.run step (init (fun _ => []) fun _ => [])
      [.connected 0 5 true, .session 0 .opened, .session 0 .cancel, .session 0 .interrupted] =
        some s ∧ (s.sessions 0).opened = true ∧ (s.sessions 0).pc = .finished ∧
          (s.sessions 0).unixClosed = false := Runs.reaches (by decide)
  have torn := always _ _ _ s 0 reached opened done
  exact Bool.false_ne_true (left.symm.trans torn.1)

end ServerTeardown
