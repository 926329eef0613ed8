import Mathlib

/-!
Finite runs of a partial step function. A step returns `none` where its action
is not enabled, so a list of actions is a run only if each was enabled in turn.
`Along` says that a condition held each time an action was taken. The rules turn
a fact about one step into a fact about every run.
-/
namespace Runs
variable {State Action : Type}

def run (step : State → Action → Option State) : State → List Action → Option State
  | s, [] => some s
  | s, a :: rest => (step s a).bind fun t => run step t rest

def Along (step : State → Action → Option State) (ok : State → Action → Prop) :
    State → List Action → Prop
  | _, [] => True
  | s, a :: rest => ok s a ∧ ∀ t ∈ step s a, Along step ok t rest

/-- Decided by running the actions, so a condition can be tested on a concrete run. -/
instance decidableAlong (step : State → Action → Option State) (ok : State → Action → Prop)
    [decideOk : ∀ s a, Decidable (ok s a)] : ∀ s acts, Decidable (Along step ok s acts)
  | _, [] => isTrue trivial
  | s, a :: rest =>
    match enabled : step s a with
    | none => decidable_of_iff (ok s a) (by simp [Along, enabled])
    | some t =>
      have := decidableAlong step ok t rest
      decidable_of_iff (ok s a ∧ Along step ok t rest) (by simp [Along, enabled])

variable {step : State → Action → Option State} {ok good : State → Action → Prop}
  {s t u : State} {a : Action} {acts rest : List Action}

@[simp] theorem run_nil : run step s [] = some u ↔ s = u := by
  simp [run]

@[simp] theorem run_cons :
    run step s (a :: rest) = some u ↔ ∃ t, step s a = some t ∧ run step t rest = some u := by
  simp [run, Option.bind_eq_some_iff]

theorem run_append : run step s (acts ++ rest) = some u ↔
    ∃ t, run step s acts = some t ∧ run step t rest = some u := by
  induction acts generalizing s with
  | nil => simp
  | cons a acts ih =>
    simp only [List.cons_append, run_cons, ih]
    constructor
    · rintro ⟨t, first, v, middle, last⟩
      exact ⟨v, ⟨t, first, middle⟩, last⟩
    · rintro ⟨v, ⟨t, first, middle⟩, last⟩
      exact ⟨t, first, v, middle, last⟩

theorem along_and : Along step (fun s a => ok s a ∧ good s a) s acts ↔
    Along step ok s acts ∧ Along step good s acts := by
  induction acts generalizing s with
  | nil => simp [Along]
  | cons a acts ih =>
    simp only [Along, ih]
    constructor
    · rintro ⟨⟨here, alsoHere⟩, later⟩
      exact ⟨⟨here, fun t e => (later t e).1⟩, alsoHere, fun t e => (later t e).2⟩
    · rintro ⟨⟨here, later⟩, alsoHere, alsoLater⟩
      exact ⟨⟨here, alsoHere⟩, fun t e => ⟨later t e, alsoLater t e⟩⟩

/-- A condition held along a run if it held wherever the run had got to. -/
theorem along_iff : Along step ok s acts ↔
    ∀ earlier a later t, acts = earlier ++ a :: later → run step s earlier = some t → ok t a := by
  induction acts generalizing s with
  | nil => simp [Along]
  | cons b acts ih =>
    constructor
    · intro along earlier a later t parts reached
      cases earlier with
      | nil =>
        rw [List.nil_append, List.cons.injEq] at parts
        rw [← run_nil.mp reached, ← parts.1]
        exact along.1
      | cons c earlier =>
        rw [List.cons_append, List.cons.injEq] at parts
        obtain ⟨rfl, parts⟩ := parts
        obtain ⟨u, first, reached⟩ := run_cons.mp reached
        exact ih.mp (along.2 u first) earlier a later t parts reached
    · intro everywhere
      refine ⟨everywhere [] b acts s rfl (by simp), fun u first => ih.mpr ?_⟩
      intro earlier a later t parts reached
      exact everywhere (b :: earlier) a later t (by rw [parts, List.cons_append])
        (run_cons.mpr ⟨u, first, reached⟩)

/-- Where a step keeps a property exactly under a condition, a run keeps it exactly when the
    condition held along it. -/
theorem exact_along (keep holds : State → Prop)
    (preserved : ∀ s a t, keep s → step s a = some t → keep t)
    (exact : ∀ s a t, keep s → step s a = some t → (holds t ↔ holds s ∧ ok s a))
    (start : keep s) (reached : run step s acts = some u) :
    holds u ↔ holds s ∧ Along step ok s acts := by
  induction acts generalizing s with
  | nil => simp [Along, run_nil.mp reached]
  | cons a acts ih =>
    obtain ⟨t, first, later⟩ := run_cons.mp reached
    have tail : Along step ok s (a :: acts) ↔ ok s a ∧ Along step ok t acts := by
      simp [Along, first]
    rw [ih (preserved s a t start first) later, exact s a t start first, tail, and_assoc]

/-- The same rule for a condition on the actions alone. -/
theorem exact_actions (keep holds : State → Prop) (allowed : Action → Prop)
    (preserved : ∀ s a t, keep s → step s a = some t → keep t)
    (exact : ∀ s a t, keep s → step s a = some t → (holds t ↔ holds s ∧ allowed a))
    (start : keep s) (reached : run step s acts = some u) :
    holds u ↔ holds s ∧ ∀ a ∈ acts, allowed a := by
  induction acts generalizing s with
  | nil => simp [run_nil.mp reached]
  | cons a acts ih =>
    obtain ⟨t, first, later⟩ := run_cons.mp reached
    rw [ih (preserved s a t start first) later, exact s a t start first, List.forall_mem_cons,
      and_assoc]

/-- The same rule for a property that lasts until one action is taken. -/
theorem exact_never (keep holds : State → Prop) (never : Action)
    (preserved : ∀ s a t, keep s → step s a = some t → keep t)
    (exact : ∀ s a t, keep s → step s a = some t → (holds t ↔ holds s ∧ a ≠ never))
    (start : keep s) (reached : run step s acts = some u) :
    holds u ↔ holds s ∧ never ∉ acts := by
  rw [exact_actions keep holds (fun a => a ≠ never) preserved exact start reached]
  apply and_congr_right
  intro _
  constructor
  · intro every taken
    exact every never taken rfl
  · intro absent a member same
    exact absent (same ▸ member)

theorem along_of_actions (allowed : Action → Prop) (every : ∀ a ∈ acts, allowed a) :
    Along step (fun _ a => allowed a) s acts := by
  induction acts generalizing s with
  | nil => trivial
  | cons a acts ih =>
    exact ⟨every a (by simp), fun t _ => ih fun b member => every b (by simp [member])⟩

/-- The invariant rule for runs whose every step meets a condition. -/
theorem invariant_along (keep : State → Prop)
    (preserved : ∀ s a t, keep s → ok s a → step s a = some t → keep t)
    (start : keep s) (along : Along step ok s acts) (reached : run step s acts = some u) :
    keep u := by
  induction acts generalizing s with
  | nil => simpa [run_nil.mp reached] using start
  | cons a acts ih =>
    obtain ⟨t, first, later⟩ := run_cons.mp reached
    exact ih (preserved s a t start along.1 first) (along.2 t first) later

/-- The invariant rule for runs that take only some of the actions. -/
theorem invariant_actions (keep : State → Prop) (allowed : Action → Prop)
    (preserved : ∀ s a t, keep s → allowed a → step s a = some t → keep t)
    (start : keep s) (every : ∀ a ∈ acts, allowed a) (reached : run step s acts = some u) :
    keep u :=
  invariant_along keep preserved start (along_of_actions allowed every) reached

theorem invariant_run (keep : State → Prop)
    (preserved : ∀ s a t, keep s → step s a = some t → keep t)
    (start : keep s) (reached : run step s acts = some u) : keep u :=
  invariant_actions keep (fun _ => True) (fun s a t kept _ => preserved s a t kept) start
    (fun _ _ => trivial) reached

/-- The invariant rule for what depends on the actions taken so far, collected by `note`. -/
theorem invariant_fold {History : Type} (note : History → Action → History)
    (keep : History → State → Prop)
    (preserved : ∀ h s a t, keep h s → step s a = some t → keep (note h a) t)
    {h : History} (start : keep h s) (reached : run step s acts = some u) :
    keep (acts.foldl note h) u := by
  induction acts generalizing s h with
  | nil => simpa [run_nil.mp reached] using start
  | cons a acts ih =>
    obtain ⟨t, first, later⟩ := run_cons.mp reached
    exact ih (preserved h s a t start first) later

/-- The invariant rule for what depends on the labels shown so far. -/
theorem invariant_shown {Move : Type} (shows : Action → Option Move)
    (keep : List Move → State → Prop)
    (preserved : ∀ h s a t, keep h s → step s a = some t → keep (h ++ (shows a).toList) t)
    {h : List Move} (start : keep h s) (reached : run step s acts = some u) :
    keep (h ++ acts.filterMap shows) u := by
  induction acts generalizing s h with
  | nil => simpa [run_nil.mp reached] using start
  | cons a acts ih =>
    obtain ⟨t, first, later⟩ := run_cons.mp reached
    have rest := ih (preserved h s a t start first) later
    have same : (a :: acts).filterMap shows = (shows a).toList ++ acts.filterMap shows := by
      cases shown : shows a with
      | none => exact List.filterMap_cons_none shown
      | some m => exact List.filterMap_cons_some shown
    rw [same, ← List.append_assoc]
    exact rest

def Reached (step : State → Action → Option State) (ok : State → Action → Prop) (s u : State) :
    Prop :=
  ∃ acts, run step s acts = some u ∧ Along step ok s acts

theorem reached_refl (s : State) : Reached step ok s s :=
  ⟨[], by simp, trivial⟩

theorem along_snoc (reached : run step s acts = some t) (along : Along step ok s acts)
    (meets : ok t a) : Along step ok s (acts ++ [a]) := by
  induction acts generalizing s with
  | nil =>
    rw [run_nil] at reached
    subst reached
    exact ⟨meets, fun _ _ => trivial⟩
  | cons b acts ih =>
    obtain ⟨v, first, later⟩ := run_cons.mp reached
    refine ⟨along.1, fun w enabled => ?_⟩
    rw [Option.mem_def, first, Option.some.injEq] at enabled
    subst enabled
    exact ih later (along.2 v first)

theorem reached_step (before : Reached step ok s t) (meets : ok t a)
    (stepped : step t a = some u) : Reached step ok s u := by
  obtain ⟨acts, reached, along⟩ := before
  exact ⟨acts ++ [a], run_append.mpr ⟨t, reached, by simp [stepped]⟩,
    along_snoc reached along meets⟩

/-- Refinement: where each step of a system is seen as a run of another, so is each run. -/
theorem refines {Seen Move : Type} {coarse : Seen → Move → Option Seen} (view : State → Seen)
    (matched : ∀ s a t, step s a = some t → ∃ moves, run coarse (view s) moves = some (view t))
    (reached : run step s acts = some u) : ∃ moves, run coarse (view s) moves = some (view u) := by
  induction acts generalizing s with
  | nil => exact ⟨[], by rw [run_nil.mp reached]; simp⟩
  | cons a acts ih =>
    obtain ⟨t, first, later⟩ := run_cons.mp reached
    obtain ⟨moves, seen⟩ := matched s a t first
    obtain ⟨rest, seenLater⟩ := ih later
    exact ⟨moves ++ rest, run_append.mpr ⟨view t, seen, seenLater⟩⟩

section View
variable {Seen Move : Type} {coarse : Seen → Move → Option Seen} {moves : List Move} {v : Seen}
  (view : State → Seen) (label : Action → Move)

/-- A run, seen through a view that follows each of its steps by one step. -/
theorem run_view (follows : ∀ s a t, step s a = some t → coarse (view s) (label a) = some (view t))
    (reached : run step s acts = some u) :
    run coarse (view s) (acts.map label) = some (view u) := by
  induction acts generalizing s with
  | nil =>
    rw [run_nil] at reached
    rw [reached]
    rfl
  | cons a acts ih =>
    obtain ⟨t, first, later⟩ := run_cons.mp reached
    exact run_cons.mpr ⟨view t, follows s a t first, ih later⟩

/-- A run, seen through a view in which a step without a label shows nothing. -/
theorem run_erased (shows : Action → Option Move)
    (follows : ∀ s a t m, step s a = some t → shows a = some m → coarse (view s) m = some (view t))
    (silent : ∀ s a t, step s a = some t → shows a = none → view t = view s)
    (reached : run step s acts = some u) :
    run coarse (view s) (acts.filterMap shows) = some (view u) := by
  induction acts generalizing s with
  | nil =>
    rw [run_nil] at reached
    rw [reached]
    rfl
  | cons a acts ih =>
    obtain ⟨t, first, later⟩ := run_cons.mp reached
    have rest := ih later
    cases shown : shows a with
    | none =>
      rw [List.filterMap_cons_none shown, ← silent s a t first shown]
      exact rest
    | some m =>
      rw [List.filterMap_cons_some shown]
      exact run_cons.mpr ⟨view t, follows s a t m first shown, rest⟩

/-- A run of what is seen is the view of a run, where each of its steps is one of a step. -/
theorem run_lift (allowed : Move → Prop) (lifts : ∀ s m v, allowed m → coarse (view s) m = some v →
      ∃ a t, label a = m ∧ step s a = some t ∧ view t = v)
    (every : ∀ m ∈ moves, allowed m) (seen : run coarse (view s) moves = some v) :
    ∃ acts t, acts.map label = moves ∧ run step s acts = some t ∧ view t = v := by
  induction moves generalizing s with
  | nil => exact ⟨[], s, rfl, run_nil.mpr rfl, run_nil.mp seen⟩
  | cons m moves ih =>
    obtain ⟨here, rest⟩ := List.forall_mem_cons.mp every
    obtain ⟨w, first, later⟩ := run_cons.mp seen
    obtain ⟨a, t, rfl, stepped, rfl⟩ := lifts s m w here first
    obtain ⟨acts, u, rfl, reached, same⟩ := ih rest later
    exact ⟨a :: acts, u, rfl, run_cons.mpr ⟨t, stepped, reached⟩, same⟩

end View

/-- A concrete run is tested by running it. -/
theorem reaches {goal : State → Prop} [DecidablePred goal]
    (tested : (run step s acts).any (fun t => decide (goal t)) = true) :
    ∃ t, run step s acts = some t ∧ goal t := by
  obtain ⟨t, reached, check⟩ := (Option.any_eq_true _ _).mp tested
  exact ⟨t, reached, of_decide_eq_true check⟩

/-- A run that breaks the condition ends where its first breach leads. -/
theorem breach_leads (keep doomed : State → Prop) (fine : State → Action → Prop)
    (preserved : ∀ s a t, keep s → fine s a → ok s a → step s a = some t → keep t)
    (breach : ∀ s a t, keep s → fine s a → ¬ ok s a → step s a = some t → doomed t)
    (stays : ∀ s a t, doomed s → fine s a → step s a = some t → doomed t)
    (start : keep s) (every : Along step fine s acts) (reached : run step s acts = some u)
    (broken : ¬ Along step ok s acts) : doomed u := by
  induction acts generalizing s with
  | nil => exact absurd trivial broken
  | cons a acts ih =>
    obtain ⟨t, first, later⟩ := run_cons.mp reached
    have everLater : Along step fine t acts := every.2 t first
    by_cases here : ok s a
    · refine ih (preserved s a t start every.1 here first) everLater later fun tail => ?_
      refine broken ⟨here, fun v enabled => ?_⟩
      rw [Option.mem_def, first, Option.some.injEq] at enabled
      exact enabled ▸ tail
    · exact invariant_along doomed stays (breach s a t start every.1 here first) everLater later

end Runs
