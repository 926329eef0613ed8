import MigrationTransport.Lib.Runs

/-!
Termination of a partial step function. A rank that no step raises and that every counted
step lowers bounds how many counted steps a run takes. A state in which no `usual` step is
enabled is stuck; one is reached from anywhere, so what is proved of stuck states is where
every run leads that goes on as usual.
-/
namespace Ranking
open Runs
variable {State Action : Type} {step : State → Action → Option State}

/-- `counted` leaves out what may happen any number of times, such as another request to
    cancel something that is cancelled already. -/
structure Ranked (step : State → Action → Option State) (counted : Action → Bool)
    (keep : State → Prop) (rank : State → Nat) : Prop where
  preserved : ∀ s a t, keep s → step s a = some t → keep t
  never : ∀ s a t, keep s → step s a = some t → rank t ≤ rank s
  lowers : ∀ s a t, keep s → counted a = true → step s a = some t → rank t < rank s

def Stuck (step : State → Action → Option State) (usual : Action → Bool) (s : State) : Prop :=
  ∀ a, usual a = true → step s a = none

variable {counted usual own : Action → Bool} {keep : State → Prop} {rank : State → Nat}
  {s u : State} {acts : List Action}

theorem counted_le (ranked : Ranked step counted keep rank) (start : keep s)
    (reached : run step s acts = some u) : acts.countP counted + rank u ≤ rank s := by
  induction acts generalizing s with
  | nil =>
    rw [run_nil] at reached
    simp [reached]
  | cons a acts ih =>
    obtain ⟨t, first, later⟩ := run_cons.mp reached
    have rest := ih (ranked.preserved s a t start first) later
    rw [List.countP_cons]
    by_cases counts : counted a = true
    · have lower := ranked.lowers s a t start counts first
      rw [if_pos counts]
      omega
    · have same := ranked.never s a t start first
      rw [if_neg counts]
      omega

/-- The price of a run, each step priced from the states before and after it. -/
def cost (step : State → Action → Option State) (price : State → State → Nat) :
    State → List Action → Nat
  | _, [] => 0
  | s, a :: acts =>
    match step s a with
    | none => 0
    | some t => price s t + cost step price t acts

theorem cost_cons {price : State → State → Nat} {a : Action} {t : State}
    (stepped : step s a = some t) :
    cost step price s (a :: acts) = price s t + cost step price t acts := by
  simp [cost, stepped]

theorem cost_le {price : State → State → Nat} (budget : State → Nat)
    (preserved : ∀ s a t, keep s → step s a = some t → keep t)
    (pays : ∀ s a t, keep s → step s a = some t → price s t + budget t ≤ budget s)
    (start : keep s) (reached : run step s acts = some u) :
    cost step price s acts + budget u ≤ budget s := by
  induction acts generalizing s with
  | nil =>
    rw [run_nil] at reached
    simp [cost, reached]
  | cons a acts ih =>
    obtain ⟨t, first, later⟩ := run_cons.mp reached
    have rest := ih (preserved s a t start first) later
    have paid := pays s a t start first
    rw [cost_cons first]
    omega

/-- What no step raises by more than its price is worth the price of the run at most. -/
theorem le_cost {price : State → State → Nat} (amount : State → Nat)
    (preserved : ∀ s a t, keep s → step s a = some t → keep t)
    (grows : ∀ s a t, keep s → step s a = some t → amount t ≤ amount s + price s t)
    (start : keep s) (reached : run step s acts = some u) :
    amount u ≤ amount s + cost step price s acts := by
  induction acts generalizing s with
  | nil =>
    rw [run_nil] at reached
    simp [cost, reached]
  | cons a acts ih =>
    obtain ⟨t, first, later⟩ := run_cons.mp reached
    have rest := ih (preserved s a t start first) later
    have grown := grows s a t start first
    rw [cost_cons first]
    omega

theorem not_stuck (moves : ¬ Stuck step usual s) :
    ∃ a t, usual a = true ∧ step s a = some t := by
  rw [Stuck] at moves
  push Not at moves
  obtain ⟨a, can, enabled⟩ := moves
  obtain ⟨t, stepped⟩ := Option.ne_none_iff_exists'.mp enabled
  exact ⟨a, t, can, stepped⟩

/-- A state that is stuck but for steps of its surroundings is stuck, or one of those is awaited. -/
theorem stuck_or_awaits {awaits : Prop} (stuck : Stuck step own s)
    (others : ∀ a t, usual a = true → own a = false → step s a = some t → awaits) :
    Stuck step usual s ∨ awaits := by
  by_cases moves : Stuck step usual s
  · exact .inl moves
  · obtain ⟨a, t, can, stepped⟩ := not_stuck moves
    right
    apply others a t can ?_ stepped
    by_contra mine
    have refused := stuck a (by simpa using mine)
    rw [refused] at stepped
    cases stepped

/-- By strong induction on the rank: a state that is not stuck takes a usual step. -/
theorem stuck_reachable (ranked : Ranked step counted keep rank)
    (counts : ∀ a, usual a = true → counted a = true) (start : keep s) :
    ∃ acts u, (∀ a ∈ acts, usual a = true) ∧ run step s acts = some u ∧ Stuck step usual u := by
  induction size : rank s using Nat.strong_induction_on generalizing s with
  | _ n ih =>
    by_cases stuck : Stuck step usual s
    · exact ⟨[], s, by simp, run_nil.mpr rfl, stuck⟩
    · obtain ⟨a, t, can, stepped⟩ := not_stuck stuck
      have lower := ranked.lowers s a t start (counts a can) stepped
      obtain ⟨acts, u, every, reached, ended⟩ :=
        ih (rank t) (by omega) (ranked.preserved s a t start stepped) rfl
      have all : ∀ b ∈ a :: acts, usual b = true := by
        intro b member
        rcases List.mem_cons.mp member with rfl | later
        · exact can
        · exact every b later
      exact ⟨a :: acts, u, all, run_cons.mpr ⟨t, stepped, reached⟩, ended⟩

end Ranking
