import Mathlib

/-!
Logs of what was counted and when. A log is paced when after each entry nothing is counted
for as long as the entry's amount asks for. A rate that covers every such pause bounds what
is counted in any window of time, up to one entry.
-/
namespace PacedLog
variable {K : Type}

def amount (log : List (K × Nat)) : Nat := (log.map Prod.snd).sum

def within [LE K] [DecidableLE K] (start stop : K) (log : List (K × Nat)) : Nat :=
  amount (log.filter fun entry => start ≤ entry.1 ∧ entry.1 ≤ stop)

def Paced [Add K] [LE K] (pause : Nat → K) (log : List (K × Nat)) : Prop :=
  log.Pairwise fun earlier later => earlier.1 + pause earlier.2 ≤ later.1

variable {pause : Nat → K} {rate start stop earliest : K} {burst : Nat}
  {log : List (K × Nat)} {entry : K × Nat}

@[simp] theorem amount_nil : amount ([] : List (K × Nat)) = 0 := rfl

@[simp] theorem amount_cons : amount (entry :: log) = entry.2 + amount log := by
  simp [amount]

theorem amount_append (log later : List (K × Nat)) :
    amount (log ++ later) = amount log + amount later := by
  simp [amount]

theorem paced_cons [Add K] [LE K] : Paced pause (entry :: log) ↔
    (∀ later ∈ log, entry.1 + pause entry.2 ≤ later.1) ∧ Paced pause log :=
  List.pairwise_cons

/-- A log grows by an entry that comes after every pause in it. -/
theorem paced_snoc [Add K] [LE K] (paced : Paced pause log)
    (after : ∀ earlier ∈ log, earlier.1 + pause earlier.2 ≤ entry.1) :
    Paced pause (log ++ [entry]) := by
  apply List.pairwise_append.mpr
  refine ⟨paced, List.pairwise_singleton _ _, ?_⟩
  intro earlier member later last
  rw [List.mem_singleton.mp last]
  exact after earlier member

variable [LinearOrder K]

theorem within_cons : within start stop (entry :: log) =
    (if start ≤ entry.1 ∧ entry.1 ≤ stop then entry.2 else 0) + within start stop log := by
  unfold within
  by_cases inside : start ≤ entry.1 ∧ entry.1 ≤ stop
  · rw [List.filter_cons_of_pos (by simpa using inside), amount_cons, if_pos inside]
  · rw [List.filter_cons_of_neg (by simpa using inside), if_neg inside, Nat.zero_add]

/-- Nothing is lost by starting the window later, as long as no entry is that early. -/
theorem within_later (none : ∀ entry ∈ log, earliest ≤ entry.1) (later : start ≤ earliest) :
    within start stop log = within earliest stop log := by
  unfold within
  congr 1
  apply List.filter_congr
  intro entry member
  have after := none entry member
  simp [after, later.trans after]

theorem within_empty (none : ∀ entry ∈ log, stop < entry.1) : within start stop log = 0 := by
  unfold within
  rw [List.filter_eq_nil_iff.mpr, amount_nil]
  intro entry member
  have after := none entry member
  simp [after]

variable [Field K] [IsStrictOrderedRing K]

/-- The bound for every window. The induction is on the log: behind an entry of the window,
    the window starts again when the pause of the entry is over. -/
theorem within_bound (positive : 0 < rate) (paced : Paced pause log)
    (covered : ∀ entry ∈ log, (entry.2 : K) ≤ rate * pause entry.2)
    (small : ∀ entry ∈ log, entry.2 ≤ burst) (window : start ≤ stop) :
    (within start stop log : K) ≤ rate * (stop - start) + burst := by
  induction log generalizing start with
  | nil =>
    have length : 0 ≤ rate * (stop - start) := mul_nonneg positive.le (sub_nonneg.mpr window)
    have nothing : within start stop ([] : List (K × Nat)) = 0 := rfl
    rw [nothing, Nat.cast_zero]
    exact add_nonneg length (Nat.cast_nonneg burst)
  | cons entry log ih =>
    obtain ⟨after, paced⟩ := paced_cons.mp paced
    rw [List.forall_mem_cons] at covered small
    obtain ⟨share, covered⟩ := covered
    obtain ⟨single, small⟩ := small
    rw [within_cons]
    by_cases inside : start ≤ entry.1 ∧ entry.1 ≤ stop
    · rw [if_pos inside, Nat.cast_add]
      by_cases again : entry.1 + pause entry.2 ≤ stop
      · have pausing : 0 ≤ pause entry.2 :=
          nonneg_of_mul_nonneg_right ((Nat.cast_nonneg _).trans share) positive
        have same : within start stop log = within (entry.1 + pause entry.2) stop log :=
          within_later after (inside.1.trans (le_add_of_nonneg_right pausing))
        have rest := ih paced covered small again
        have shorter : rate * (stop - entry.1) ≤ rate * (stop - start) :=
          mul_le_mul_of_nonneg_left (sub_le_sub_left inside.1 stop) positive.le
        rw [same]
        calc (entry.2 : K) + within (entry.1 + pause entry.2) stop log
            ≤ rate * pause entry.2 + (rate * (stop - (entry.1 + pause entry.2)) + burst) :=
              add_le_add share rest
          _ = rate * (stop - entry.1) + burst := by ring
          _ ≤ rate * (stop - start) + burst := add_le_add_left shorter _
      · have nothing : within start stop log = 0 :=
          within_empty fun later member => lt_of_lt_of_le (not_le.mp again) (after later member)
        have length : 0 ≤ rate * (stop - start) := mul_nonneg positive.le (sub_nonneg.mpr window)
        have bound : (entry.2 : K) ≤ burst := Nat.cast_le.mpr single
        rw [nothing, Nat.cast_zero, add_zero]
        exact bound.trans (le_add_of_nonneg_left length)
    · rw [if_neg inside, Nat.zero_add]
      exact ih paced covered small window

end PacedLog
