import Mathlib

/-!
Logs of attempts, each of which succeeded or failed. A log has no gap when what succeeded
is an initial part of what was attempted, and nothing but one failure comes behind it.
-/
namespace AttemptLog
variable {Item : Type}

def attempted (log : List (Item × Bool)) : List Item := log.map Prod.fst

def succeeded (log : List (Item × Bool)) : List Item := (log.filter Prod.snd).map Prod.fst

structure NoGap (log : List (Item × Bool)) : Prop where
  inFront : succeeded log <+: attempted log
  rest : (attempted log).length ≤ (succeeded log).length + 1
  nothingAfter : log.Pairwise fun earlier later => later.2 = true → earlier.2 = true

variable {log : List (Item × Bool)} {item : Item}

@[simp] theorem attempted_nil : attempted ([] : List (Item × Bool)) = [] := rfl

@[simp] theorem succeeded_nil : succeeded ([] : List (Item × Bool)) = [] := rfl

@[simp] theorem attempted_cons (attempt : Item × Bool) :
    attempted (attempt :: log) = attempt.1 :: attempted log := rfl

@[simp] theorem succeeded_true : succeeded ((item, true) :: log) = item :: succeeded log := by
  simp [succeeded]

@[simp] theorem succeeded_false : succeeded ((item, false) :: log) = succeeded log := by
  simp [succeeded]

@[simp] theorem succeeded_append (log later : List (Item × Bool)) :
    succeeded (log ++ later) = succeeded log ++ succeeded later := by
  simp [succeeded]

theorem noGap_true : NoGap ((item, true) :: log) ↔ NoGap log := by
  constructor
  · rintro ⟨inFront, rest, nothingAfter⟩
    refine ⟨?_, ?_, (List.pairwise_cons.mp nothingAfter).2⟩
    · simpa using inFront
    · simpa using rest
  · rintro ⟨inFront, rest, nothingAfter⟩
    refine ⟨?_, ?_, List.pairwise_cons.mpr ⟨by simp, nothingAfter⟩⟩
    · simpa using inFront
    · simpa using rest

theorem noGap_false : NoGap ((item, false) :: log) ↔ log = [] := by
  constructor
  · intro gapless
    have failed : ∀ attempt ∈ log, ¬ attempt.2 = true := by
      intro attempt member success
      have earlier := (List.pairwise_cons.mp gapless.nothingAfter).1 attempt member success
      simp at earlier
    have none : succeeded log = [] := by
      rw [succeeded, List.filter_eq_nil_iff.mpr failed, List.map_nil]
    have short := gapless.rest
    rw [attempted_cons, succeeded_false, none, List.length_cons, List.length_nil] at short
    apply List.eq_nil_of_length_eq_zero
    have kept : (attempted log).length = log.length := List.length_map _
    omega
  · intro empty
    subst empty
    exact ⟨by simp, by simp, by simp⟩

/-- There is no gap exactly when only the last attempt may have failed. -/
theorem noGap_iff : NoGap log ↔ log.Pairwise fun earlier _ => earlier.2 = true := by
  induction log with
  | nil => exact ⟨fun _ => .nil, fun _ => ⟨by simp, by simp, .nil⟩⟩
  | cons attempt log ih =>
    obtain ⟨item, success⟩ := attempt
    rw [List.pairwise_cons]
    cases success with
    | true =>
      rw [noGap_true, ih]
      simp
    | false =>
      rw [noGap_false]
      constructor
      · intro empty
        subst empty
        simp
      · rintro ⟨nothing, _⟩
        apply List.eq_nil_iff_forall_not_mem.mpr
        intro later member
        simpa using nothing later member

end AttemptLog
