import MigrationTransport.Lib.Runs
import MigrationTransport.WebSocket.Cleanup

/-!
Several calls of `cleanup_connection` for one id. Calls that overlap between the test
and the `del` all close the same sockets, and all but the first to come to its `del`
raise `KeyError`.
-/
namespace CleanupOverlap
open Cleanup

variable {Call : Type}

structure Calls (Call : Type) where
  registry : Registry Call
  place : Call → Pc

def init (active : OrderedDict ConnectionId ConnInfo) : Calls Call where
  registry := ⟨active, []⟩
  place := fun _ => .entering

def step [DecidableEq Call] (id : ConnectionId) (s : Calls Call) (a : Call × Act) :
    Option (Calls Call) :=
  (Cleanup.step a.1 id s.registry (s.place a.1) a.2).map fun moved =>
    { registry := moved.1, place := Function.update s.place a.1 moved.2 }

def closing : Pc → Bool
  | .closingWebSocket _ | .closingUnix _ => true
  | _ => false

def hasRaised : Pc → Bool
  | .raised _ => true
  | _ => false

def ended : Pc → Bool
  | .returned | .raised _ => true
  | _ => false

def closesSucceed : Act → Bool
  | .webSocketRaises | .waitClosedRaises => false
  | _ => true

/-- No call passes the test for membership while another is before its `del`. -/
def Apart (id : ConnectionId) (s : Calls Call) (a : Call × Act) : Prop :=
  a.2 = .enter → s.registry.activeConnections.get id = none ∨ ∀ d, closing (s.place d) = false

/-- What the place of a call says about the registry. -/
def Fits (id : ConnectionId) (info : ConnInfo) (r : Registry Call) : Pc → Prop
  | .entering => True
  | .closingWebSocket i => i = info ∧ Called r (.websocket info.websocket)
  | .closingUnix i => i = info ∧ BothCalled r info
  | .returned | .raised _ => r.activeConnections.get id = none

structure Sound (active : OrderedDict ConnectionId ConnInfo) (id : ConnectionId)
    (info : ConnInfo) (s : Calls Call) : Prop where
  others : ∀ other, other ≠ id → s.registry.activeConnections.get other = active.get other
  entry : s.registry.activeConnections.get id = some info ∨
    s.registry.activeConnections.get id = none
  sockets : ∀ e ∈ s.registry.closed,
    e.2 = .websocket info.websocket ∨ e.2 = .unixWriter info.unixWriter
  places : ∀ c, Fits id info s.registry (s.place c)
  gone : s.registry.activeConnections.get id = none → BothCalled s.registry info

theorem fits_close {id : ConnectionId} {info : ConnInfo} {r : Registry Call} {pc : Pc}
    (fits : Fits id info r pc) (c : Call) (resource : Resource) :
    Fits id info (close r c resource) pc := by
  cases pc with
  | entering => trivial
  | closingWebSocket i => exact ⟨fits.1, called_close fits.2 c resource⟩
  | closingUnix i => exact ⟨fits.1, bothCalled_close fits.2 c resource⟩
  | returned => exact fits
  | raised failure => exact fits

theorem fits_deleted {id : ConnectionId} {info : ConnInfo} {r : Registry Call} {pc : Pc}
    {rest : OrderedDict ConnectionId ConnInfo} (fits : Fits id info r pc)
    (gone : rest.get id = none) : Fits id info { r with activeConnections := rest } pc := by
  cases pc with
  | entering => trivial
  | closingWebSocket i => exact fits
  | closingUnix i => exact fits
  | returned => exact gone
  | raised failure => exact gone

variable [DecidableEq Call]

/-- A step moves one call; every other stays where it is. -/
theorem step_moves {id : ConnectionId} {s t : Calls Call} {c : Call} {act : Act}
    (stepped : step id s (c, act) = some t) :
    Moved c id s.registry (s.place c) act t.registry (t.place c) ∧
      ∀ d, d = c ∨ t.place d = s.place d := by
  simp only [step, Option.map_eq_some_iff] at stepped
  obtain ⟨⟨r, next⟩, moved, rfl⟩ := stepped
  refine ⟨by simpa using step_moved moved, ?_⟩
  intro d
  by_cases same : d = c
  · exact .inl same
  · exact .inr (Function.update_of_ne same ..)

theorem step_sound {active : OrderedDict ConnectionId ConnInfo} {id : ConnectionId}
    {info : ConnInfo} {s t : Calls Call} {a : Call × Act} (sound : Sound active id info s)
    (fine : closesSucceed a.2 = true) (stepped : step id s a = some t) :
    Sound active id info t := by
  obtain ⟨c, act⟩ := a
  obtain ⟨r, place⟩ := t
  obtain ⟨moved, frame⟩ := step_moves stepped
  obtain ⟨others, entry, sockets, places, gone⟩ := sound
  have placed : Fits id info r (place c) →
      (∀ pc, Fits id info s.registry pc → Fits id info r pc) → ∀ d, Fits id info r (place d) := by
    intro here kept d
    rcases frame d with rfl | same
    · exact here
    · rw [show place d = s.place d from same]
      exact kept _ (places d)
  have mine := places c
  simp only at moved
  generalize s.place c = pc at moved mine
  generalize place c = next at moved placed
  cases moved with
  | webSocketRaises i => simp [closesSucceed] at fine
  | waitClosedRaises i => simp [closesSucceed] at fine
  | passed held =>
    rename_i i
    have same : i = info := by simpa [held] using entry
    subst same
    refine ⟨others, entry, ?_, ?_, ?_⟩
    · intro e member
      rcases List.mem_append.mp member with old | new
      · exact sockets e old
      · simp_all
    · exact placed ⟨rfl, called_now _ _ _⟩ (fun _ fits => fits_close fits c _)
    · intro absent
      exact absurd (held.symm.trans absent) (by simp)
  | absent none => exact ⟨others, entry, sockets, placed none (fun _ fits => fits), gone⟩
  | webSocketClosed i =>
    obtain ⟨rfl, webSocket⟩ := mine
    have both : BothCalled (close s.registry c (.unixWriter i.unixWriter)) i :=
      ⟨called_close webSocket c _, called_now _ _ _⟩
    refine ⟨others, entry, ?_, placed ⟨rfl, both⟩ (fun _ fits => fits_close fits c _),
      fun _ => both⟩
    intro e member
    rcases List.mem_append.mp member with old | new
    · exact sockets e old
    · simp_all
  | deleted i deleted =>
    rename_i rest
    obtain ⟨rfl, both⟩ := mine
    have absent : rest.get id = none := by rw [OrderedDict.get_del deleted, if_pos rfl]
    refine ⟨?_, .inr absent, sockets, placed absent (fun _ fits => fits_deleted fits absent),
      fun _ => both⟩
    intro other different
    rw [OrderedDict.get_del deleted, if_neg different]
    exact others other different
  | keyError i none => exact ⟨others, entry, sockets, placed none (fun _ fits => fits), gone⟩

/-- At most one call is between its test and its `del`, and it finds the entry there. -/
structure Alone (id : ConnectionId) (s : Calls Call) : Prop where
  single : ∀ c d, closing (s.place c) = true → closing (s.place d) = true → c = d
  held : ∀ c, closing (s.place c) = true → s.registry.activeConnections.get id ≠ none
  quiet : ∀ c, hasRaised (s.place c) = false

theorem step_alone {id : ConnectionId} {s t : Calls Call} {a : Call × Act} (alone : Alone id s)
    (fine : closesSucceed a.2 = true) (apart : Apart id s a) (stepped : step id s a = some t) :
    Alone id t := by
  obtain ⟨c, act⟩ := a
  obtain ⟨r, place⟩ := t
  obtain ⟨moved, frame⟩ := step_moves stepped
  obtain ⟨single, held, quiet⟩ := alone
  have mineHeld := held c
  simp only at moved frame
  generalize before : s.place c = pc at moved mineHeld
  generalize after : place c = next at moved
  have stays : (closing next = true → closing pc = true) →
      ∀ d, closing (place d) = true → closing (s.place d) = true := by
    intro back d here
    rcases frame d with rfl | same
    · rw [after] at here
      rw [before]
      exact back here
    · rwa [same] at here
  have calm : hasRaised next = false → ∀ d, hasRaised (place d) = false := by
    intro mine d
    rcases frame d with rfl | same
    · rw [after]
      exact mine
    · rw [same]
      exact quiet d
  cases moved with
  | webSocketRaises i => simp [closesSucceed] at fine
  | waitClosedRaises i => simp [closesSucceed] at fine
  | passed present =>
    have others : ∀ d, closing (s.place d) = false := by
      simpa [present] using apart rfl
    have mine : ∀ d, closing (place d) = true → d = c := by
      intro d here
      rcases frame d with same | same
      · exact same
      · rw [same, others d] at here
        exact absurd here Bool.false_ne_true
    refine ⟨?_, ?_, calm rfl⟩
    · intro d e dClosing eClosing
      rw [mine d dClosing, mine e eClosing]
    · intro _ _ absent
      exact absurd (present.symm.trans absent) (by simp)
  | absent none =>
    have before := stays (fun late => absurd late Bool.false_ne_true)
    refine ⟨?_, ?_, calm rfl⟩
    · intro d e dClosing eClosing
      exact single d e (before d dClosing) (before e eClosing)
    · intro d dClosing
      exact held d (before d dClosing)
  | webSocketClosed i =>
    have before := stays (fun _ => rfl)
    refine ⟨?_, ?_, calm rfl⟩
    · intro d e dClosing eClosing
      exact single d e (before d dClosing) (before e eClosing)
    · intro d dClosing
      exact held d (before d dClosing)
  | deleted i deleted =>
    have idle : ∀ d, closing (place d) ≠ true := by
      intro d dClosing
      have earlier := stays (fun late => absurd late Bool.false_ne_true) d dClosing
      have same : d = c := single d c earlier (by rw [before]; rfl)
      rw [same, after] at dClosing
      exact absurd dClosing Bool.false_ne_true
    refine ⟨?_, ?_, calm rfl⟩
    · intro d _ dClosing
      exact absurd dClosing (idle d)
    · intro d dClosing
      exact absurd dClosing (idle d)
  | keyError i none => exact absurd none (mineHeld rfl)

/-- An overlap that has not been resolved yet, or has ended in `KeyError`. -/
def Doomed (id : ConnectionId) (s : Calls Call) : Prop :=
  (∃ c d, c ≠ d ∧ closing (s.place c) = true ∧ closing (s.place d) = true) ∨
    (∃ c, closing (s.place c) = true ∧ s.registry.activeConnections.get id = none) ∨
    ∃ c, hasRaised (s.place c) = true

omit [DecidableEq Call] in
theorem moved_onwards {caller : Call} {id : ConnectionId} {r q : Registry Call} {pc next : Pc}
    {a : Act} (moved : Moved caller id r pc a q next) :
    hasRaised pc = false ∧
      (r.activeConnections.get id = none → q.activeConnections.get id = none) ∧
      (closing pc = true → closing next = true ∨ hasRaised next = true ∨
        r.activeConnections.get id ≠ none ∧ q.activeConnections.get id = none) := by
  cases moved with
  | passed held => simp [hasRaised, closing, close]
  | absent gone => simp [hasRaised, closing]
  | webSocketClosed info => simp [hasRaised, closing, close]
  | webSocketRaises info => simp [hasRaised, closing]
  | deleted info deleted =>
    have gone := OrderedDict.get_del deleted id
    have present : r.activeConnections.get id ≠ none := by
      intro absent
      rw [OrderedDict.del_none.mpr absent] at deleted
      simp at deleted
    simp [hasRaised, closing, gone, present]
  | keyError info gone => simp [hasRaised, closing]
  | waitClosedRaises info => simp [hasRaised, closing]

theorem step_doomed {id : ConnectionId} {s t : Calls Call} {a : Call × Act} (doomed : Doomed id s)
    (stepped : step id s a = some t) : Doomed id t := by
  obtain ⟨c, act⟩ := a
  obtain ⟨moved, frame⟩ := step_moves stepped
  obtain ⟨unraised, stillGone, onwards⟩ := moved_onwards moved
  rcases doomed with ⟨d, e, different, dClosing, eClosing⟩ | ⟨d, dClosing, gone⟩ | ⟨d, dRaised⟩
  · by_cases mine : c = d ∨ c = e
    · obtain ⟨other, apart, otherClosing, mineClosing⟩ :
          ∃ f, f ≠ c ∧ closing (s.place f) = true ∧ closing (s.place c) = true := by
        rcases mine with rfl | rfl
        · exact ⟨e, different.symm, eClosing, dClosing⟩
        · exact ⟨d, different, dClosing, eClosing⟩
      have otherStill : closing (t.place other) = true := by
        rw [(frame other).resolve_left apart]
        exact otherClosing
      rcases onwards mineClosing with still | raised | ⟨-, gone⟩
      · exact .inl ⟨other, c, apart, otherStill, still⟩
      · exact .inr (.inr ⟨c, raised⟩)
      · exact .inr (.inl ⟨other, otherStill, gone⟩)
    · obtain ⟨notFirst, notSecond⟩ := not_or.mp mine
      refine .inl ⟨d, e, different, ?_, ?_⟩
      · rw [(frame d).resolve_left (Ne.symm notFirst)]
        exact dClosing
      · rw [(frame e).resolve_left (Ne.symm notSecond)]
        exact eClosing
  · by_cases mine : d = c
    · subst mine
      rcases onwards dClosing with still | raised | ⟨present, -⟩
      · exact .inr (.inl ⟨d, still, stillGone gone⟩)
      · exact .inr (.inr ⟨d, raised⟩)
      · exact absurd gone present
    · exact .inr (.inl ⟨d, by rw [(frame d).resolve_left mine]; exact dClosing, stillGone gone⟩)
  · have other : d ≠ c := by
      rintro rfl
      simp [unraised] at dRaised
    exact .inr (.inr ⟨d, by rw [(frame d).resolve_left other]; exact dRaised⟩)

theorem breach_doomed {id : ConnectionId} {s t : Calls Call} {a : Call × Act}
    (breach : ¬ Apart id s a) (stepped : step id s a = some t) : Doomed id t := by
  obtain ⟨c, act⟩ := a
  obtain ⟨moved, frame⟩ := step_moves stepped
  simp only [Apart, Classical.not_imp, not_or, not_forall, Bool.not_eq_false] at breach
  obtain ⟨rfl, present, d, other⟩ := breach
  generalize before : s.place c = pc at moved
  generalize after : t.place c = next at moved
  generalize t.registry = r at moved
  cases moved with
  | passed held =>
    have different : d ≠ c := by
      rintro rfl
      simp [before, closing] at other
    refine .inl ⟨c, d, different.symm, ?_, ?_⟩
    · simp [after, closing]
    · rw [(frame d).resolve_left different]
      exact other
  | absent none => exact absurd none present

structure Clean (active : OrderedDict ConnectionId ConnInfo) (id : ConnectionId)
    (info : ConnInfo) (s : Calls Call) : Prop where
  quiet : ∀ c, hasRaised (s.place c) = false
  absent : s.registry.activeConnections.get id = none
  both : BothCalled s.registry info
  others : ∀ other, other ≠ id → s.registry.activeConnections.get other = active.get other
  sockets : ∀ e ∈ s.registry.closed,
    e.2 = .websocket info.websocket ∨ e.2 = .unixWriter info.unixWriter

theorem run_sound {active : OrderedDict ConnectionId ConnInfo} {id : ConnectionId}
    {info : ConnInfo} {acts : List (Call × Act)} {s : Calls Call}
    (registered : active.get id = some info) (fine : ∀ a ∈ acts, closesSucceed a.2 = true)
    (reached : Runs.run (step id) (init active) acts = some s) : Sound active id info s := by
  have start : Sound active id info (init active : Calls Call) := by
    refine ⟨fun _ _ => rfl, .inl registered, ?_, fun _ => trivial, ?_⟩
    · intro e member
      simp [init] at member
    · intro absent
      exact absurd (registered.symm.trans absent) (by simp)
  exact Runs.invariant_actions (Sound active id info) (closesSucceed ·.2 = true)
    (fun _ _ _ sound fine stepped => step_sound sound fine stepped) start fine reached

theorem run_alone {active : OrderedDict ConnectionId ConnInfo} {id : ConnectionId}
    {acts : List (Call × Act)} {s : Calls Call} (fine : ∀ a ∈ acts, closesSucceed a.2 = true)
    (apart : Runs.Along (step id) (Apart id) (init active) acts)
    (reached : Runs.run (step id) (init active) acts = some s) : Alone id s := by
  have start : Alone id (init active : Calls Call) := by
    constructor <;> simp [init, closing, hasRaised]
  refine Runs.invariant_along (Alone id) ?_ start
    (Runs.along_and.mpr ⟨Runs.along_of_actions (closesSucceed ·.2 = true) fine, apart⟩) reached
  rintro s a t alone ⟨fine, apart⟩ stepped
  exact step_alone alone fine apart stepped

theorem overlap_raises {active : OrderedDict ConnectionId ConnInfo} {id : ConnectionId}
    {acts : List (Call × Act)} {s : Calls Call}
    (broken : ¬ Runs.Along (step id) (Apart id) (init active) acts)
    (reached : Runs.run (step id) (init active) acts = some s)
    (allEnded : ∀ c, ended (s.place c) = true) : ∃ c, hasRaised (s.place c) = true := by
  have idle : ∀ c, closing (s.place c) = false := by
    intro c
    have done := allEnded c
    cases pc : s.place c <;> simp_all [ended, closing]
  have doomed : Doomed id s :=
    Runs.breach_leads (fun _ => True) (Doomed id) (fun _ _ => True) (fun _ _ _ _ _ _ _ => trivial)
      (fun _ _ _ _ _ breach stepped => breach_doomed breach stepped)
      (fun _ _ _ doomed _ stepped => step_doomed doomed stepped) trivial
      (Runs.along_of_actions _ fun _ _ => trivial) reached broken
  rcases doomed with ⟨c, -, -, cClosing, -⟩ | ⟨c, cClosing, -⟩ | raised
  · simp [idle c] at cClosing
  · simp [idle c] at cClosing
  · exact raised

theorem cleanup_idempotent [Nonempty Call] {active : OrderedDict ConnectionId ConnInfo}
    {id : ConnectionId} {info : ConnInfo} {acts : List (Call × Act)} {s : Calls Call}
    (registered : active.get id = some info) (fine : ∀ a ∈ acts, closesSucceed a.2 = true)
    (reached : Runs.run (step id) (init active) acts = some s) :
    (Runs.Along (step id) (Apart id) (init active) acts → ∀ c, hasRaised (s.place c) = false) ∧
      ((∀ c, ended (s.place c) = true) →
        (Clean active id info s ↔ Runs.Along (step id) (Apart id) (init active) acts)) := by
  have sound := run_sound registered fine reached
  refine ⟨fun apart => (run_alone fine apart reached).quiet, fun allEnded => ⟨?_, ?_⟩⟩
  · intro clean
    by_contra broken
    obtain ⟨c, raised⟩ := overlap_raises broken reached allEnded
    simp [clean.quiet c] at raised
  · intro apart
    obtain ⟨c⟩ := ‹Nonempty Call›
    have absent : s.registry.activeConnections.get id = none := by
      have fits := sound.places c
      have done := allEnded c
      cases pc : s.place c <;> simp_all [ended, Fits]
    exact ⟨(run_alone fine apart reached).quiet, absent, sound.gone absent, sound.others,
      sound.sockets⟩

instance [Fintype Call] (id : ConnectionId) (s : Calls Call) (a : Call × Act) :
    Decidable (Apart id s a) := by
  unfold Apart; infer_instance

/-- One connection, whose websocket is 10 and whose unix socket is 20. -/
def oneConnection : OrderedDict ConnectionId ConnInfo := OrderedDict.empty.set 7 ⟨10, 20, 20⟩

theorem cleanup_idempotent_in_turn : ∃ s : Calls (Fin 2),
    Runs.run (step 7) (init oneConnection) [(0, .enter), (0, .webSocketClosed),
      (0, .unixClosed), (1, .enter)] = some s ∧
      Clean oneConnection 7 ⟨10, 20, 20⟩ s := by
  obtain ⟨s, reached, allEnded⟩ : ∃ s : Calls (Fin 2),
      Runs.run (step 7) (init oneConnection) [(0, .enter), (0, .webSocketClosed),
        (0, .unixClosed), (1, .enter)] = some s ∧ ∀ c, ended (s.place c) = true :=
    Runs.reaches (by decide)
  exact ⟨s, reached,
    ((cleanup_idempotent (by decide) (by decide) reached).2 allEnded).mpr (by decide)⟩

/-- The second call passes the test while the first awaits `websocket.close()`. -/
theorem overlapping_cleanup_raises : ¬ ∀ (active : OrderedDict ConnectionId ConnInfo)
    (id : ConnectionId) (info : ConnInfo) (acts : List (Fin 2 × Act)) (s : Calls (Fin 2)),
    active.get id = some info → (∀ a ∈ acts, closesSucceed a.2 = true) →
      Runs.run (step id) (init active) acts = some s → (∀ c, ended (s.place c) = true) →
      Clean active id info s := by
  intro idempotent
  obtain ⟨s, reached, allEnded, raised⟩ : ∃ s : Calls (Fin 2),
      Runs.run (step 7) (init oneConnection) [(0, .enter), (1, .enter), (0, .webSocketClosed),
        (0, .unixClosed), (1, .webSocketClosed), (1, .unixClosed)] = some s ∧
        (∀ c, ended (s.place c) = true) ∧ s.place 1 = .raised .keyError :=
    Runs.reaches (by decide)
  have clean := idempotent oneConnection 7 ⟨10, 20, 20⟩ _ s (by decide) (by decide) reached allEnded
  have quiet := clean.quiet 1
  simp [raised, hasRaised] at quiet

end CleanupOverlap
