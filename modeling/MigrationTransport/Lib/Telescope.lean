import Mathlib

/-!
Sequences of readings of one quantity, and how much it grows from each to the next.
-/
namespace Telescope
variable {Reading K : Type}

/-- The last reading, or what was there before the first. -/
def latest (value : Reading → K) (start : K) (readings : List Reading) : K :=
  (readings.getLast?.map value).getD start

variable {value : Reading → K} {start : K} {readings : List Reading} {r : Reading}

@[simp] theorem latest_nil : latest value start ([] : List Reading) = start := rfl

@[simp] theorem latest_snoc : latest value start (readings ++ [r]) = value r := by
  simp [latest]

theorem latest_cons : latest value start (r :: readings) = latest value (value r) readings := by
  cases readings <;> simp [latest, List.getLast?_cons]

variable [AddCommGroup K]

def differences (value : Reading → K) : K → List Reading → List K
  | _, [] => []
  | start, r :: later => (value r - start) :: differences value (value r) later

theorem differences_snoc : differences value start (readings ++ [r]) =
    differences value start readings ++ [value r - latest value start readings] := by
  induction readings generalizing start with
  | nil => rfl
  | cons q readings ih => simp [differences, ih, latest_cons]

@[simp] theorem differences_length :
    (differences value start readings).length = readings.length := by
  induction readings generalizing start with
  | nil => rfl
  | cons q readings ih => simp [differences, ih]

theorem sum_differences :
    (differences value start readings).sum = latest value start readings - start := by
  induction readings generalizing start with
  | nil => simp [differences]
  | cons q readings ih =>
    rw [differences, List.sum_cons, ih, latest_cons]
    abel

end Telescope
