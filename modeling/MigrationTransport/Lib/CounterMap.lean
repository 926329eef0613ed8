import MigrationTransport.Lib.OrderedDict

/-!
A map of 64-bit counters, in which a missing key counts zero. The sum over all keys follows
what is added to the counters, modulo 2^64, and is never above it.
-/
namespace CounterMap
variable {Key : Type} [DecidableEq Key]

def add (d : OrderedDict Key UInt64) (key : Key) (n : UInt64) : OrderedDict Key UInt64 :=
  d.set key ((d.get key).getD 0 + n)

def total (d : OrderedDict Key UInt64) : Nat := d.total fun _ n => n.toNat

variable (d : OrderedDict Key UInt64) (key : Key) (n : UInt64)

theorem total_add : total (add d key n) + ((d.get key).getD 0).toNat =
    total d + (((d.get key).getD 0).toNat + n.toNat) % 2 ^ 64 := by
  have sum := OrderedDict.total_set (fun _ n => n.toNat) d key ((d.get key).getD 0 + n)
  rw [UInt64.toNat_add] at sum
  cases held : d.get key with
  | none =>
    rw [held] at sum
    rw [total, add, held]
    exact sum
  | some old =>
    rw [held] at sum
    rw [total, add, held]
    exact sum

theorem total_add_mod : total (add d key n) % 2 ^ 64 = (total d + n.toNat) % 2 ^ 64 := by
  have sum := total_add d key n
  omega

theorem total_add_le : total (add d key n) ≤ total d + n.toNat := by
  have sum := total_add d key n
  have wraps := Nat.mod_le (((d.get key).getD 0).toNat + n.toNat) (2 ^ 64)
  omega

theorem get_add (other : Key) : (add d key n).get other =
    if other = key then some ((d.get key).getD 0 + n) else d.get other :=
  OrderedDict.get_set d key other _

def addAll (d : OrderedDict Key UInt64) (additions : List (Key × UInt64)) :
    OrderedDict Key UInt64 :=
  additions.foldl (fun d addition => add d addition.1 addition.2) d

/-- What was added to one counter, whatever was added to the others in between. -/
def amounts (key : Key) (additions : List (Key × UInt64)) : List Nat :=
  (additions.filter (·.1 = key)).map (·.2.toNat)

theorem amounts_append (key : Key) (earlier later : List (Key × UInt64)) :
    amounts key (earlier ++ later) = amounts key earlier ++ amounts key later := by
  rw [amounts, List.filter_append, List.map_append, amounts, amounts]

theorem get_addAll (key : Key) (additions : List (Key × UInt64)) :
    ((addAll .empty additions).get key).map UInt64.toNat =
      if amounts key additions = [] then none
      else some ((amounts key additions).sum % 2 ^ 64) := by
  induction additions using List.reverseRecOn with
  | nil => rfl
  | append_singleton additions addition ih =>
    rw [addAll, List.foldl_append, List.foldl_cons, List.foldl_nil, ← addAll, get_add,
      amounts_append]
    by_cases same : key = addition.1
    · have amount : amounts key [addition] = [addition.2.toNat] := by simp [amounts, same]
      rw [if_pos same, amount, if_neg (by simp), List.sum_append, ← same]
      cases held : (addAll .empty additions).get key with
      | none =>
        rw [held] at ih
        have fresh : amounts key additions = [] := by
          by_contra some
          rw [if_neg some] at ih
          cases ih
        simp [fresh]
      | some old =>
        rw [held] at ih
        have before : old.toNat = (amounts key additions).sum % 2 ^ 64 := by
          split at ih
          · cases ih
          · exact Option.some.inj ih
        simp [UInt64.toNat_add, before]
    · have amount : amounts key [addition] = [] := by simp [amounts, Ne.symm same]
      rw [if_neg same, amount, List.append_nil, ih]

end CounterMap
