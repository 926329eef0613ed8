import MigrationTransport.TcpProxy.Lossless

/-!
One session of the TCP proxy. `handle_client` of the server and
`handle_new_qemu_connection` of the client accept one connection, open another,
run `forward_data` once in each direction, cancel what is left when the first of the
two ends, and close both writers. They differ in who accepts and opens what, and in
`except asyncio.CancelledError`, which only the server has.
-/
namespace ProxySession
open ByteStream ForwardData Lossless

inductive Endpoint where
  | server
  | client
  deriving DecidableEq

def Endpoint.catchesCancelled : Endpoint → Bool
  | .server => true
  | .client => false

/-- `outward` reads from the accepted connection: `tcp_to_unix` in the server,
    `unix_to_tcp` in the client. `inward` reads from the opened one. -/
inductive Direction where
  | outward
  | inward
  deriving DecidableEq

instance : Fintype Direction := ⟨{.outward, .inward}, fun d => by cases d <;> decide⟩

inductive HandlerPc where
  | connecting
  | waiting
  | joining (d : Direction)
  | closingOpened
  | closingAccepted
  | finished
  deriving DecidableEq

inductive Outcome where
  | returned
  | cancelled
  | failed
  deriving DecidableEq

/-- `opened` says that `unix_writer` (server) or `tcp_writer` (client) is not `None`;
    the two closed flags say that `close()` has been called. -/
structure Session where
  handler : HandlerPc
  forward : Direction → Forward
  opened : Bool
  openedClosed : Bool
  acceptedClosed : Bool
  outcome : Outcome

def init (stream : Direction → Bytes) : Session where
  handler := .connecting
  forward := fun d => absent (stream d)
  opened := false
  openedClosed := false
  acceptedClosed := false
  outcome := .returned

inductive Act where
  | connected
  | connectRaises
  | forward (d : Direction) (a : ForwardData.Act)
  | waitReturns
  | joined
  | waitClosed
  | waitClosedRaises
  | cancelHandler
  deriving DecidableEq

def closeAccepted (s : Session) : Session :=
  { s with handler := .closingAccepted, acceptedClosed := true }

/-- The `finally` block up to its first await. -/
def enterFinally (s : Session) : Session :=
  if s.opened then { s with handler := .closingOpened, openedClosed := true }
  else closeAccepted s

def cancelForward (s : Session) (d : Direction) : Session :=
  { s with forward := Function.update s.forward d (cancel (s.forward d)) }

/-- `CancelledError` in the `try` block. -/
def cancelTry (e : Endpoint) (s : Session) : Session :=
  enterFinally { s with outcome := if e.catchesCancelled then s.outcome else .cancelled }

def step (e : Endpoint) (s : Session) : Act → Option Session
  | .connected =>
    if s.handler = .connecting then
      some { s with
        handler := .waiting
        opened := true
        forward := fun d => create (s.forward d) }
    else none
  | .connectRaises => if s.handler = .connecting then some (enterFinally s) else none
  | .forward d a =>
    (ForwardData.step (s.forward d) a).map fun g =>
      { s with forward := Function.update s.forward d g }
  | .waitReturns =>
    -- `asyncio.wait(.., FIRST_COMPLETED)`: at most one of the two is still pending
    if s.handler = .waiting then
      if (s.forward .outward).task = .finished then
        if (s.forward .inward).task = .finished then some (enterFinally s)
        else some { cancelForward s .inward with handler := .joining .inward }
      else if (s.forward .inward).task = .finished then
        some { cancelForward s .outward with handler := .joining .outward }
      else none
    else none
  | .joined =>
    match s.handler with
    | .joining d => if (s.forward d).task = .finished then some (enterFinally s) else none
    | _ => none
  | .waitClosed =>
    -- asyncio feeds the reader of a closed connection its EOF first; here a read may go on waiting
    match s.handler with
    | .closingOpened => some (closeAccepted s)
    | .closingAccepted => some { s with handler := .finished }
    | _ => none
  | .waitClosedRaises =>
    match s.handler with
    | .closingOpened | .closingAccepted => some { s with handler := .finished, outcome := .failed }
    | _ => none
  | .cancelHandler =>
    match s.handler with
    | .connecting | .waiting => some (cancelTry e s)
    -- the request passes to the awaited task, and a `CancelledError` is swallowed there
    | .joining d => some (cancelForward s d)
    | .closingOpened | .closingAccepted =>
      some { s with handler := .finished, outcome := .cancelled }
    | .finished => none

inductive Effect (e : Endpoint) (s : Session) : Act → Session → Prop where
  | connected (connecting : s.handler = .connecting) :
      Effect e s .connected { s with
        handler := .waiting, opened := true, forward := fun d => create (s.forward d) }
  | connectRaises (connecting : s.handler = .connecting) :
      Effect e s .connectRaises (enterFinally s)
  | forward (d : Direction) {a : ForwardData.Act} {g : Forward}
      (moved : ForwardData.step (s.forward d) a = some g) :
      Effect e s (.forward d a) { s with forward := Function.update s.forward d g }
  | bothDone (waiting : s.handler = .waiting) (done : ∀ d, (s.forward d).task = .finished) :
      Effect e s .waitReturns (enterFinally s)
  | oneDone (d : Direction) (waiting : s.handler = .waiting)
      (pending : (s.forward d).task ≠ .finished)
      (done : ∀ other, other ≠ d → (s.forward other).task = .finished) :
      Effect e s .waitReturns { cancelForward s d with handler := .joining d }
  | joined (d : Direction) (joining : s.handler = .joining d)
      (done : (s.forward d).task = .finished) : Effect e s .joined (enterFinally s)
  | closedOpened (closing : s.handler = .closingOpened) : Effect e s .waitClosed (closeAccepted s)
  | closedAccepted (closing : s.handler = .closingAccepted) :
      Effect e s .waitClosed { s with handler := .finished }
  | waitClosedRaises (closing : s.handler = .closingOpened ∨ s.handler = .closingAccepted) :
      Effect e s .waitClosedRaises { s with handler := .finished, outcome := .failed }
  | cancelTrying (trying : s.handler = .connecting ∨ s.handler = .waiting) :
      Effect e s .cancelHandler (cancelTry e s)
  | cancelJoining (d : Direction) (joining : s.handler = .joining d) :
      Effect e s .cancelHandler (cancelForward s d)
  | cancelClosing (closing : s.handler = .closingOpened ∨ s.handler = .closingAccepted) :
      Effect e s .cancelHandler { s with handler := .finished, outcome := .cancelled }

theorem step_effect {e : Endpoint} {s t : Session} {a : Act} (stepped : step e s a = some t) :
    Effect e s a t := by
  cases a with
  | connected | connectRaises =>
    simp only [step, Option.ite_none_right_eq_some, Option.some.injEq] at stepped
    obtain ⟨connecting, rfl⟩ := stepped
    constructor
    exact connecting
  | forward d a =>
    simp only [step, Option.map_eq_some_iff] at stepped
    obtain ⟨g, moved, rfl⟩ := stepped
    exact .forward d moved
  | waitReturns =>
    simp only [step, Option.ite_none_right_eq_some] at stepped
    obtain ⟨waiting, stepped⟩ := stepped
    split at stepped
    · rename_i outDone
      split at stepped <;> (rw [Option.some.injEq] at stepped; subst stepped)
      · rename_i inDone
        exact .bothDone waiting fun d => by cases d; exacts [outDone, inDone]
      · rename_i inRuns
        refine .oneDone .inward waiting inRuns fun other different => ?_
        cases other with
        | outward => exact outDone
        | inward => exact absurd rfl different
    · rename_i outRuns
      split at stepped <;> simp only [Option.some.injEq, reduceCtorEq] at stepped
      rename_i inDone
      subst stepped
      refine .oneDone .outward waiting outRuns fun other different => ?_
      cases other with
      | outward => exact absurd rfl different
      | inward => exact inDone
  | joined =>
    simp only [step] at stepped
    split at stepped
    · rename_i d joining
      simp only [Option.ite_none_right_eq_some, Option.some.injEq] at stepped
      obtain ⟨done, rfl⟩ := stepped
      exact .joined d joining done
    · simp at stepped
  | waitClosed =>
    simp only [step] at stepped
    split at stepped <;> simp only [Option.some.injEq, reduceCtorEq] at stepped
    all_goals subst stepped
    · exact .closedOpened ‹_›
    · exact .closedAccepted ‹_›
  | waitClosedRaises =>
    simp only [step] at stepped
    split at stepped <;> simp only [Option.some.injEq, reduceCtorEq] at stepped
    all_goals subst stepped
    · exact .waitClosedRaises (.inl ‹_›)
    · exact .waitClosedRaises (.inr ‹_›)
  | cancelHandler =>
    simp only [step] at stepped
    split at stepped <;> simp only [Option.some.injEq, reduceCtorEq] at stepped
    all_goals subst stepped
    · exact .cancelTrying (.inl ‹_›)
    · exact .cancelTrying (.inr ‹_›)
    · exact .cancelJoining _ ‹_›
    · exact .cancelClosing (.inl ‹_›)
    · exact .cancelClosing (.inr ‹_›)

def PastTry (pc : HandlerPc) : Prop :=
  pc = .closingOpened ∨ pc = .closingAccepted ∨ pc = .finished

/-- What holds of the handler and its tasks whatever happens to them. -/
structure Orderly (s : Session) : Prop where
  life : ∀ d, Lifecycle (s.forward d)
  connecting : s.handler = .connecting → s.opened = false ∧ ∀ d, (s.forward d).task = .absent
  opened : s.handler = .waiting ∨ (∃ d, s.handler = .joining d) → s.opened = true
  joining : ∀ d other, s.handler = .joining d → other ≠ d → (s.forward other).task = .finished

theorem init_orderly (stream : Direction → Bytes) : Orderly (init stream) := by
  constructor <;> simp [init, absent_lifecycle]
  simp [absent]

@[simp] theorem enterFinally_forward (s : Session) : (enterFinally s).forward = s.forward := by
  unfold enterFinally closeAccepted
  split <;> rfl

theorem update_life {s : Session} {d : Direction} {g : Forward}
    (life : ∀ d, Lifecycle (s.forward d)) (changed : Lifecycle g) :
    ∀ e, Lifecycle (Function.update s.forward d g e) := by
  intro e
  by_cases same : e = d
  · subst same
    simpa using changed
  · simpa [same] using life e

theorem update_task {s : Session} {d : Direction} {g : Forward} {pc : TaskPc}
    (all : ∀ d, (s.forward d).task = pc) (changed : g.task = pc) :
    ∀ e, (Function.update s.forward d g e).task = pc := by
  intro e
  by_cases same : e = d
  · subst same
    simpa using changed
  · simpa [same] using all e

@[simp] theorem cancelForward_task (s : Session) (d e : Direction) :
    ((cancelForward s d).forward e).task = (s.forward e).task := by
  by_cases same : e = d
  · subst same
    simp [cancelForward]
  · simp [cancelForward, same]

theorem cancelForward_life {s : Session} (life : ∀ d, Lifecycle (s.forward d)) (d : Direction) :
    ∀ e, Lifecycle ((cancelForward s d).forward e) :=
  update_life life (cancel_lifecycle (life d))

theorem past_orderly {s : Session} (life : ∀ d, Lifecycle (s.forward d))
    (past : PastTry s.handler) : Orderly s := by
  rcases past with here | here | here
  · exact ⟨life, by simp [here], by simp [here], by simp [here]⟩
  · exact ⟨life, by simp [here], by simp [here], by simp [here]⟩
  · exact ⟨life, by simp [here], by simp [here], by simp [here]⟩

theorem enterFinally_past (s : Session) : PastTry (enterFinally s).handler := by
  unfold enterFinally closeAccepted
  split <;> simp [PastTry]

theorem enterFinally_orderly {s : Session} (life : ∀ d, Lifecycle (s.forward d)) :
    Orderly (enterFinally s) :=
  past_orderly (by simpa using life) (enterFinally_past s)

theorem step_orderly {e : Endpoint} {s t : Session} {a : Act} (orderly : Orderly s)
    (stepped : step e s a = some t) : Orderly t := by
  have life := orderly.life
  cases step_effect stepped with
  | connected connecting =>
    obtain ⟨-, fresh⟩ := orderly.connecting connecting
    exact ⟨fun d => create_lifecycle (fresh d) (life d), by simp, by simp, by simp⟩
  | connectRaises => exact enterFinally_orderly life
  | forward d moved =>
    refine ⟨update_life life (step_lifecycle (life d) moved), ?_, orderly.opened, ?_⟩
    · intro connecting
      obtain ⟨notOpened, fresh⟩ := orderly.connecting connecting
      exact ⟨notOpened, update_task fresh ((step_at_rest (.inl (fresh d)) moved).trans (fresh d))⟩
    · intro joined other joining different
      have done := orderly.joining joined other joining different
      by_cases same : other = d
      · subst same
        simpa using (step_at_rest (.inr done) moved).trans done
      · simpa [same] using done
  | bothDone => exact enterFinally_orderly life
  | oneDone d waiting pending done =>
    refine ⟨cancelForward_life life d, by simp, fun _ => orderly.opened (.inl waiting), ?_⟩
    intro joined other joining different
    rw [HandlerPc.joining.injEq] at joining
    subst joining
    simpa using done other different
  | joined => exact enterFinally_orderly life
  | closedOpened => exact past_orderly life (.inr (.inl rfl))
  | closedAccepted => exact past_orderly life (.inr (.inr rfl))
  | waitClosedRaises => exact past_orderly life (.inr (.inr rfl))
  | cancelTrying => exact enterFinally_orderly life
  | cancelJoining d joining =>
    refine ⟨cancelForward_life life d, ?_, fun _ => orderly.opened (.inr ⟨d, joining⟩), ?_⟩
    · intro connecting
      simp [cancelForward, joining] at connecting
    · intro joined other same different
      rw [cancelForward_task]
      exact orderly.joining joined other same different
  | cancelClosing => exact past_orderly life (.inr (.inr rfl))

def startBoth : List Act :=
  [.connected, .forward .outward .start, .forward .outward .startRead,
    .forward .outward .startWrite, .forward .inward .start, .forward .inward .startRead,
    .forward .inward .startWrite, .forward .outward .get, .forward .inward .get]

/-- The accepted peer sends one byte and ends; the other direction is cancelled. -/
def outwardEnds : List Act :=
  startBoth ++ [.forward .outward (.read 1), .forward .outward .put, .forward .outward .get,
    .forward .outward .write, .forward .outward .get, .forward .outward .eof,
    .forward .outward .close, .forward .outward .get, .forward .outward .gathered,
    .waitReturns, .forward .inward .cancelRead, .forward .inward .close,
    .forward .inward .cancelWrite, .forward .inward .gathered, .joined]

def oneByteOutward : Direction → Bytes
  | .outward => [7]
  | .inward => []

end ProxySession
