import MigrationTransport.Lib.Ranking

/-!
A family of systems of one kind. Members are started at any time, each from a value of its own,
and their steps interleave. What a step of one member keeps, a run of the family keeps for every
member; and the ranks of the members bound the family's run.
-/
namespace Family
open Runs Ranking
variable {Start State Action : Type}

inductive Act (Start Action : Type) where
  | starts (x : Start)
  | member (i : Nat) (a : Action)

/-- Members are numbered in the order of their start, and each stays with what it started from. -/
def memberStep (step : State → Action → Option State) (f : List (Start × State))
    (move : Nat × Action) : Option (List (Start × State)) :=
  f[move.1]?.bind fun m => (step m.2 move.2).map fun t => f.set move.1 (m.1, t)

def familyStep (init : Start → State) (step : State → Action → Option State)
    (f : List (Start × State)) : Act Start Action → Option (List (Start × State))
  | .starts x => some (f ++ [(x, init x)])
  | .member i a => memberStep step f (i, a)

def ofMember (move : Nat × Action) : Act Start Action := .member move.1 move.2

def InEach (ok : State → Action → Prop) (f : List (Start × State)) : Act Start Action → Prop
  | .starts _ => True
  | .member i a => ∀ m ∈ f[i]?, ok m.2 a

instance (ok : State → Action → Prop) [decideOk : ∀ s a, Decidable (ok s a)]
    (f : List (Start × State)) : DecidablePred (InEach ok f)
  | .starts _ => isTrue trivial
  | .member i a => inferInstanceAs (Decidable (∀ m ∈ f[i]?, ok m.2 a))

def started : Act Start Action → Option Start
  | .starts x => some x
  | .member _ _ => none

def countedIn (counted : Action → Bool) : Act Start Action → Bool
  | .starts _ => false
  | .member _ a => counted a

def total (rank : State → Nat) (f : List (Start × State)) : Nat := (f.map fun m => rank m.2).sum

variable {init : Start → State} {step : State → Action → Option State}
  {f g : List (Start × State)}
  {move : Nat × Action} {acts : List (Act Start Action)} {rank : State → Nat}
  {counted usual : Action → Bool}

theorem member_effect (stepped : memberStep step f move = some g) :
    ∃ x s t, f[move.1]? = some (x, s) ∧ step s move.2 = some t ∧ g = f.set move.1 (x, t) := by
  obtain ⟨m, found, stepped⟩ := Option.bind_eq_some_iff.mp stepped
  obtain ⟨t, moved, rfl⟩ := Option.map_eq_some_iff.mp stepped
  exact ⟨m.1, m.2, t, found, moved, rfl⟩

theorem member_every (keep : Start → State → Prop) (every : ∀ m ∈ f, keep m.1 m.2)
    (preserved : ∀ x s t, keep x s → step s move.2 = some t → f[move.1]? = some (x, s) →
      keep x t)
    (stepped : memberStep step f move = some g) : ∀ m ∈ g, keep m.1 m.2 := by
  obtain ⟨x, s, t, found, moved, rfl⟩ := member_effect stepped
  intro m member
  rcases List.mem_or_eq_of_mem_set member with before | rfl
  · exact every m before
  · exact preserved x s t (every (x, s) (List.mem_of_getElem? found)) moved found

/-- The invariant rule for every member, under a condition on the members' steps. -/
theorem every_along (ok : State → Action → Prop) (keep : Start → State → Prop)
    (begins : ∀ x, keep x (init x))
    (preserved : ∀ x s a t, keep x s → ok s a → step s a = some t → keep x t)
    (along : Along (familyStep init step) (InEach ok) [] acts)
    (reached : run (familyStep init step) [] acts = some f) : ∀ m ∈ f, keep m.1 m.2 := by
  apply invariant_along (fun f => ∀ m ∈ f, keep m.1 m.2) ?_ (by simp) along reached
  intro f a g every fine stepped
  cases a with
  | starts x =>
    cases stepped
    intro m member
    rcases List.mem_append.mp member with before | last
    · exact every m before
    · rw [List.mem_singleton.mp last]
      exact begins x
  | member i a =>
    apply member_every keep every ?_ stepped
    intro x s t kept moved found
    exact preserved x s a t kept (fine (x, s) found) moved

theorem every_member (keep : Start → State → Prop) (begins : ∀ x, keep x (init x))
    (preserved : ∀ x s a t, keep x s → step s a = some t → keep x t)
    (reached : run (familyStep init step) [] acts = some f) : ∀ m ∈ f, keep m.1 m.2 := by
  apply every_along (fun _ _ => True) keep begins ?_ ?_ reached
  · intro x s a t kept _ moved
    exact preserved x s a t kept moved
  · exact along_iff.mpr fun _ a _ _ _ _ => by cases a <;> simp [InEach]

theorem total_append (rank : State → Nat) (x : Start) (s : State) :
    total rank (f ++ [(x, s)]) = total rank f + rank s := by
  simp [total]

theorem total_set (rank : State → Nat) {i : Nat} {x : Start} {s : State} (t : State)
    (found : f[i]? = some (x, s)) :
    total rank (f.set i (x, t)) + rank s = total rank f + rank t := by
  induction f generalizing i with
  | nil => cases found
  | cons m f ih =>
    cases i with
    | zero =>
      rw [List.getElem?_cons_zero, Option.some.injEq] at found
      subst found
      simp only [total, List.set_cons_zero, List.map_cons, List.sum_cons]
      omega
    | succ i =>
      rw [List.getElem?_cons_succ] at found
      have rest := ih found
      simp only [total, List.set_cons_succ, List.map_cons, List.sum_cons] at rest ⊢
      omega

theorem family_ranked (Start : Type) {steady : State → Prop}
    (ranked : Ranked step counted steady rank) :
    Ranked (memberStep step) (fun move => counted move.2)
      (fun f : List (Start × State) => ∀ m ∈ f, steady m.2) (total rank) where
  preserved f move g every stepped := by
    apply member_every (fun _ s => steady s) every ?_ stepped
    intro _ s t kept moved _
    exact ranked.preserved s move.2 t kept moved
  never f move g every stepped := by
    obtain ⟨x, s, t, found, moved, rfl⟩ := member_effect stepped
    have sum := total_set rank t found
    have less := ranked.never s move.2 t (every (x, s) (List.mem_of_getElem? found)) moved
    omega
  lowers f move g every counts stepped := by
    obtain ⟨x, s, t, found, moved, rfl⟩ := member_effect stepped
    have sum := total_set rank t found
    have less := ranked.lowers s move.2 t (every (x, s) (List.mem_of_getElem? found)) counts moved
    omega

/-- Every start pays for the counted steps of its member. -/
theorem counted_le_started {steady : State → Prop} (ranked : Ranked step counted steady rank)
    (begins : ∀ x, steady (init x)) (every : ∀ m ∈ f, steady m.2)
    (reached : run (familyStep init step) f acts = some g) :
    acts.countP (countedIn counted) + total rank g ≤
      total rank f + ((acts.filterMap started).map fun x => rank (init x)).sum := by
  induction acts generalizing f with
  | nil =>
    rw [run_nil] at reached
    simp [reached]
  | cons a acts ih =>
    obtain ⟨h, first, later⟩ := run_cons.mp reached
    cases a with
    | starts x =>
      cases first
      have more : ∀ m ∈ f ++ [(x, init x)], steady m.2 := by
        intro m member
        rcases List.mem_append.mp member with before | last
        · exact every m before
        · rw [List.mem_singleton.mp last]
          exact begins x
      have rest := ih more later
      rw [total_append] at rest
      simp only [List.countP_cons, countedIn, started, List.filterMap_cons, List.map_cons,
        List.sum_cons, Bool.false_eq_true, if_false]
      omega
    | member i a =>
      have all := family_ranked Start ranked
      have rest := ih (all.preserved f (i, a) h every first) later
      have never := all.never f (i, a) h every first
      have lowers := all.lowers f (i, a) h every
      rw [List.countP_cons, List.filterMap_cons_none rfl]
      by_cases counts : countedIn counted (.member i a : Act Start Action) = true
      · have less := lowers counts first
        rw [if_pos counts]
        omega
      · rw [if_neg counts]
        omega

theorem stuck_members (stuck : Stuck (memberStep step) (fun move => usual move.2) f)
    {m : Start × State} (member : m ∈ f) : Stuck step usual m.2 := by
  obtain ⟨i, found⟩ := List.getElem?_of_mem member
  intro a can
  have refused := stuck (i, a) can
  rw [memberStep, found] at refused
  exact Option.map_eq_none_iff.mp refused

theorem family_stuck_reachable {steady : State → Prop} (ranked : Ranked step counted steady rank)
    (counts : ∀ a, usual a = true → counted a = true) (every : ∀ m ∈ f, steady m.2) :
    ∃ (moves : List (Nat × Action)) (g : List (Start × State)),
      (∀ move ∈ moves, usual move.2 = true) ∧
      run (familyStep init step) f (moves.map ofMember) = some g ∧
      ∀ m ∈ g, steady m.2 ∧ Stuck step usual m.2 := by
  have all := family_ranked Start ranked
  obtain ⟨moves, g, usually, reached, stuck⟩ : ∃ moves g,
      (∀ move ∈ moves, usual move.2 = true) ∧ run (memberStep step) f moves = some g ∧
      Stuck (memberStep step) (fun move => usual move.2) g :=
    stuck_reachable all (fun move => counts move.2) every
  have kept := invariant_run (fun f => ∀ m ∈ f, steady m.2) all.preserved every reached
  have follows : ∀ f move g, memberStep step f move = some g →
      familyStep init step (id f) (ofMember move) = some (id g) := fun _ _ _ stepped => stepped
  have ran : run (familyStep init step) f (moves.map ofMember) = some g :=
    run_view id ofMember follows reached
  exact ⟨moves, g, usually, ran, fun m member => ⟨kept m member, stuck_members stuck member⟩⟩

end Family
