import MigrationTransport.Lib.Runs
import MigrationTransport.TcpProxy.Session

/-!
What a session of the TCP proxy leaves behind. The `finally` block closes the opened
writer first and awaits it, so an exception there skips the accepted writer, and a
handler cancelled inside `asyncio.wait` leaves its two `forward_data` tasks alone.
-/
namespace Teardown
open ByteStream ForwardData ProxySession

structure TornDown (s : Session) : Prop where
  opened : s.opened = true → s.openedClosed = true
  accepted : s.acceptedClosed = true
  forwards : ∀ d, AtRest (s.forward d)
  tasks : ∀ d, ¬ (s.forward d).readTask.Running ∧ ¬ (s.forward d).writeTask.Running

/-- The handler is not cancelled in `asyncio.wait` over a running `forward_data`, and the
    first `wait_closed` of the `finally` block neither raises nor is cancelled. -/
def Considerate (s : Session) : ProxySession.Act → Prop
  | .cancelHandler =>
    (s.handler = .waiting → ∀ d, (s.forward d).task = .finished) ∧ s.handler ≠ .closingOpened
  | .waitClosedRaises => s.handler ≠ .closingOpened
  | _ => True

instance (s : Session) : DecidablePred (Considerate s)
  | .cancelHandler => inferInstanceAs (Decidable (_ ∧ _))
  | .waitClosedRaises => inferInstanceAs (Decidable (_ ≠ _))
  | .connected | .connectRaises | .forward _ _ | .waitReturns | .joined | .waitClosed =>
    isTrue trivial

structure Leaving (s : Session) : Prop where
  rest : PastTry s.handler → ∀ d, AtRest (s.forward d)
  opened : PastTry s.handler → s.opened = true → s.openedClosed = true
  accepted : s.handler = .closingAccepted ∨ s.handler = .finished → s.acceptedClosed = true

theorem init_leaving (stream : Direction → Bytes) : Leaving (ProxySession.init stream) := by
  constructor <;> simp [ProxySession.init, PastTry]

theorem finally_leaving {s : Session} (rest : ∀ d, AtRest (s.forward d)) :
    Leaving (enterFinally s) := by
  unfold enterFinally closeAccepted
  split <;> constructor <;> simp_all

theorem trying_leaving {s : Session} (trying : ¬ PastTry s.handler) : Leaving s := by
  refine ⟨fun past => absurd past trying, fun past => absurd past trying, ?_⟩
  intro past
  exact absurd (.inr past) trying

theorem step_leaving {e : Endpoint} {s t : Session} {a : ProxySession.Act}
    (orderly : Orderly s) (leaving : Leaving s) (considerate : Considerate s a)
    (stepped : ProxySession.step e s a = some t) : Leaving t := by
  cases step_effect stepped with
  | connected => exact trying_leaving (by simp [PastTry])
  | connectRaises connecting =>
    exact finally_leaving fun d => .inl ((orderly.connecting connecting).2 d)
  | forward d moved =>
    refine ⟨fun past other => ?_, leaving.opened, leaving.accepted⟩
    have rest := leaving.rest past
    by_cases same : other = d
    · subst same
      simpa [AtRest, step_at_rest (rest other) moved] using rest other
    · simpa [same] using rest other
  | bothDone waiting done => exact finally_leaving fun d => .inr (done d)
  | oneDone => exact trying_leaving (by simp [PastTry])
  | joined d joining done =>
    refine finally_leaving fun other => .inr ?_
    by_cases same : other = d
    · exact same ▸ done
    · exact orderly.joining d other joining same
  | closedOpened closing =>
    exact ⟨fun _ => leaving.rest (.inl closing), fun _ => leaving.opened (.inl closing),
      fun _ => rfl⟩
  | closedAccepted closing =>
    exact ⟨fun _ => leaving.rest (.inr (.inl closing)),
      fun _ => leaving.opened (.inr (.inl closing)), fun _ => leaving.accepted (.inl closing)⟩
  | waitClosedRaises closing =>
    have accepted := closing.resolve_left considerate
    exact ⟨fun _ => leaving.rest (.inr (.inl accepted)),
      fun _ => leaving.opened (.inr (.inl accepted)), fun _ => leaving.accepted (.inl accepted)⟩
  | cancelTrying trying =>
    refine finally_leaving fun d => ?_
    rcases trying with connecting | waiting
    · exact .inl ((orderly.connecting connecting).2 d)
    · exact .inr (considerate.1 waiting d)
  | cancelJoining d joining => exact trying_leaving (by simp [PastTry, cancelForward, joining])
  | cancelClosing closing =>
    have accepted := closing.resolve_left considerate.2
    exact ⟨fun _ => leaving.rest (.inr (.inl accepted)),
      fun _ => leaving.opened (.inr (.inl accepted)), fun _ => leaving.accepted (.inl accepted)⟩

/-- Whatever the traffic and however the session ends, nothing is left open or running
    once the handler has finished, unless it met one of the two exits above. -/
theorem session_torn_down {e : Endpoint} {stream : Direction → Bytes} {s : Session}
    {acts : List ProxySession.Act}
    (reached : Runs.run (ProxySession.step e) (ProxySession.init stream) acts = some s)
    (considerate : Runs.Along (ProxySession.step e) Considerate (ProxySession.init stream) acts)
    (finished : s.handler = .finished) : TornDown s := by
  have both : Orderly s ∧ Leaving s := by
    refine Runs.invariant_along (fun s => Orderly s ∧ Leaving s) ?_
      ⟨init_orderly stream, init_leaving stream⟩ considerate reached
    rintro s a t ⟨orderly, leaving⟩ considerate stepped
    exact ⟨step_orderly orderly stepped, step_leaving orderly leaving considerate stepped⟩
  obtain ⟨orderly, leaving⟩ := both
  have rest := leaving.rest (.inr (.inr finished))
  exact ⟨leaving.opened (.inr (.inr finished)), leaving.accepted (.inr finished), rest,
    fun d => rest_stops_tasks (orderly.life d) (rest d)⟩

theorem session_torn_down_after_traffic : ∃ s,
    Runs.run (ProxySession.step .server) (ProxySession.init oneByteOutward)
      (outwardEnds ++ [.waitClosed, .waitClosed]) = some s ∧ TornDown s := by
  obtain ⟨s, reached, finished⟩ : ∃ s,
      Runs.run (ProxySession.step .server) (ProxySession.init oneByteOutward)
        (outwardEnds ++ [.waitClosed, .waitClosed]) = some s ∧ s.handler = .finished :=
    Runs.reaches (by decide)
  exact ⟨s, reached, session_torn_down reached (by decide) finished⟩

/-- In neither script: an exception from the first `wait_closed` leaves the accepted writer
    open, and a handler cancelled in `asyncio.wait` leaves its tasks running. -/
theorem session_leaves_writer_and_tasks :
    (¬ ∃ e : Endpoint, ∀ (stream : Direction → Bytes) (acts : List ProxySession.Act)
      (s : Session), Runs.run (ProxySession.step e) (ProxySession.init stream) acts = some s →
      s.handler = .finished → s.acceptedClosed = true) ∧
    ¬ ∃ e : Endpoint, ∀ (stream : Direction → Bytes) (acts : List ProxySession.Act)
      (s : Session), Runs.run (ProxySession.step e) (ProxySession.init stream) acts = some s →
      s.handler = .finished → ∀ d, AtRest (s.forward d) ∧ ¬ (s.forward d).readTask.Running ∧
        ¬ (s.forward d).writeTask.Running := by
  constructor
  · rintro ⟨e, closes⟩
    obtain ⟨s, reached, finished, leftOpen⟩ : ∃ s,
        Runs.run (ProxySession.step e) (ProxySession.init oneByteOutward)
          (outwardEnds ++ [.waitClosedRaises]) = some s ∧
        s.handler = .finished ∧ s.acceptedClosed = false := by
      cases e <;> exact Runs.reaches (by decide)
    simp [closes _ _ s reached finished] at leftOpen
  · rintro ⟨e, stops⟩
    obtain ⟨s, reached, finished, running⟩ : ∃ s,
        Runs.run (ProxySession.step e) (ProxySession.init oneByteOutward)
          (startBoth ++ [.cancelHandler, .waitClosed, .waitClosed]) = some s ∧
        s.handler = .finished ∧ (s.forward .outward).readTask.Running := by
      cases e <;> exact Runs.reaches (by decide)
    exact (stops _ _ s reached finished .outward).2.1 running

end Teardown
