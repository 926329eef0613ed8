import MigrationTransport.Lib.Runs
import MigrationTransport.TcpProxy.Session

/-!
What a session of the TCP proxy delivers when its two directions end at different
times. `asyncio.wait(.., FIRST_COMPLETED)` returns at the first of the two, and the
other is cancelled with whatever it has not read or has still queued.
-/
namespace HalfClose
open ByteStream ForwardData Lossless ProxySession

/-- No I/O error and no cancellation from outside the handler. -/
def undisturbed : ProxySession.Act → Bool
  | .connectRaises | .waitClosedRaises | .cancelHandler => false
  | .forward _ a => faultless a
  | _ => true

/-- `put` finds room, and a direction is cancelled only when nothing of it is unread,
    in hand before the queue, or queued. -/
def NothingCut (s : Session) : ProxySession.Act → Prop
  | .forward d a => PutHasRoom (s.forward d) a
  | .waitReturns => ∀ d, (s.forward d).task = .finished ∨ upstream (s.forward d) = []
  | _ => True

instance (s : Session) : DecidablePred (NothingCut s) := fun a => by
  cases a <;> simp only [NothingCut] <;> infer_instance

structure Whole (stream : Direction → Bytes) (s : Session) : Prop where
  intact : ∀ d, Intact (stream d) (s.forward d)
  ended : PastTry s.handler → ∀ d, (s.forward d).task = .finished

theorem cancel_intact {stream : Bytes} {f : Forward} (intact : Intact stream f)
    (drained : upstream f = []) : Intact stream (cancel f) := by
  obtain ⟨order, history, count, closed, readEnd, writeEnd, asked⟩ := intact
  unfold cancel
  split
  · exact ⟨order, history, count, closed, readEnd, writeEnd, asked⟩
  · exact ⟨order, history, count, closed, readEnd, writeEnd, asked⟩
  · exact ⟨order, history, count, closed, readEnd, writeEnd, fun _ => drained⟩
  · exact ⟨order, history, count, closed, readEnd, writeEnd, fun _ => drained⟩

theorem ended_complete {stream : Bytes} {f : Forward} (life : Lifecycle f)
    (intact : Intact stream f) (done : f.task = .finished) : f.written = stream := by
  have order := intact.order
  rcases life.ended done with ⟨_, writeDone⟩ | ⟨_, noWrite, wanted⟩
  · simpa [writeDone, writeInHand, intact.writeEnd writeDone] using order
  · simpa [noWrite, writeInHand, intact.asked (.inl wanted)] using order

theorem update_intact {stream : Direction → Bytes} {s : Session} {d : Direction} {g : Forward}
    (intact : ∀ d, Intact (stream d) (s.forward d)) (changed : Intact (stream d) g) :
    ∀ e, Intact (stream e) (Function.update s.forward d g e) := by
  intro e
  by_cases same : e = d
  · subst same
    simpa using changed
  · simpa [same] using intact e

theorem finally_whole {stream : Direction → Bytes} {s : Session}
    (intact : ∀ d, Intact (stream d) (s.forward d)) (ended : ∀ d, (s.forward d).task = .finished) :
    Whole stream (enterFinally s) :=
  ⟨by simpa using intact, fun _ => by simpa using ended⟩

theorem step_whole {e : Endpoint} {stream : Direction → Bytes} {s t : Session}
    {a : ProxySession.Act} (orderly : Orderly s) (whole : Whole stream s)
    (quiet : undisturbed a = true) (uncut : NothingCut s a)
    (stepped : ProxySession.step e s a = some t) : Whole stream t := by
  obtain ⟨intact, ended⟩ := whole
  cases step_effect stepped with
  | connectRaises => simp [undisturbed] at quiet
  | waitClosedRaises => simp [undisturbed] at quiet
  | cancelTrying => simp [undisturbed] at quiet
  | cancelJoining => simp [undisturbed] at quiet
  | cancelClosing => simp [undisturbed] at quiet
  | connected => exact ⟨fun d => create_intact (intact d), by simp [PastTry]⟩
  | forward d moved =>
    have changed := step_intact (orderly.life d) (intact d) quiet uncut moved
    refine ⟨update_intact intact changed, fun past => ?_⟩
    have done := ended past
    exact update_task done ((step_at_rest (.inr (done d)) moved).trans (done d))
  | bothDone waiting done => exact finally_whole intact done
  | oneDone d waiting pending =>
    have drained := (uncut d).resolve_left pending
    exact ⟨update_intact intact (cancel_intact (intact d) drained), by simp [PastTry]⟩
  | joined d joining done =>
    refine finally_whole intact fun other => ?_
    by_cases same : other = d
    · exact same ▸ done
    · exact orderly.joining d other joining same
  | closedOpened closing => exact ⟨intact, fun _ => ended (.inl closing)⟩
  | closedAccepted closing => exact ⟨intact, fun _ => ended (.inr (.inl closing))⟩

/-- When the handler returns both directions are complete, if neither was cut short. -/
theorem session_complete {e : Endpoint} {stream : Direction → Bytes} {s : Session}
    {acts : List ProxySession.Act} (quiet : ∀ a ∈ acts, undisturbed a = true)
    (reached : Runs.run (ProxySession.step e) (ProxySession.init stream) acts = some s)
    (uncut : Runs.Along (ProxySession.step e) NothingCut (ProxySession.init stream) acts)
    (finished : s.handler = .finished) : ∀ d, (s.forward d).written = stream d := by
  have both : Orderly s ∧ Whole stream s := by
    refine Runs.invariant_along (fun s => Orderly s ∧ Whole stream s) ?_
      ⟨init_orderly stream, fun d => absent_intact (stream d), by
        simp [ProxySession.init, PastTry]⟩
      (Runs.along_and.mpr ⟨Runs.along_of_actions (undisturbed · = true) quiet, uncut⟩) reached
    rintro s a t ⟨orderly, whole⟩ ⟨quiet, uncut⟩ stepped
    exact ⟨step_orderly orderly stepped, step_whole orderly whole quiet uncut stepped⟩
  obtain ⟨orderly, whole⟩ := both
  intro d
  exact ended_complete (orderly.life d) (whole.intact d) (whole.ended (.inr (.inr finished)) d)

theorem session_complete_one_byte : ∃ s,
    Runs.run (ProxySession.step .client) (ProxySession.init oneByteOutward)
      (outwardEnds ++ [.waitClosed, .waitClosed]) = some s ∧
    ∀ d, (s.forward d).written = oneByteOutward d := by
  obtain ⟨s, reached, finished⟩ : ∃ s,
      Runs.run (ProxySession.step .client) (ProxySession.init oneByteOutward)
        (outwardEnds ++ [.waitClosed, .waitClosed]) = some s ∧ s.handler = .finished :=
    Runs.reaches (by decide)
  exact ⟨s, reached, session_complete (by decide) reached (by decide) finished⟩

/-- The opened peer sends nothing and ends while the first byte of the other direction is
    queued and the second is still unread. -/
def inwardEndsFirst : List ProxySession.Act :=
  startBoth ++ [.forward .outward (.read 1), .forward .outward .put, .forward .inward .eof,
    .forward .inward .close, .forward .inward .get, .forward .inward .gathered, .waitReturns,
    .forward .outward .cancelRead, .forward .outward .close, .forward .outward .cancelWrite,
    .forward .outward .gathered, .joined, .waitClosed, .waitClosed]

def twoBytesOutward : Direction → Bytes
  | .outward => [1, 2]
  | .inward => []

/-- In neither script. -/
theorem inward_eof_discards_outward : ¬ ∃ e : Endpoint, ∀ (stream : Direction → Bytes)
    (acts : List ProxySession.Act) (s : Session), (∀ a ∈ acts, undisturbed a = true) →
    Runs.run (ProxySession.step e) (ProxySession.init stream) acts = some s →
    s.handler = .finished → ∀ d, (s.forward d).written = stream d := by
  rintro ⟨e, complete⟩
  obtain ⟨s, reached, finished, written⟩ : ∃ s,
      Runs.run (ProxySession.step e) (ProxySession.init twoBytesOutward) inwardEndsFirst = some s ∧
        s.handler = .finished ∧ (s.forward .outward).written = [] := by
    cases e <;> exact Runs.reaches (by decide)
  have whole := complete _ _ s (by decide) reached finished .outward
  simp [written, twoBytesOutward] at whole

end HalfClose
