import Mathlib

/-!
A double-ended queue with a fixed bound. Appending on the right of a full queue
drops from the left, so the bound is a field that every operation re-establishes.
-/
structure BoundedDeque (Item : Type) (maxlen : Nat) where
  items : List Item
  bounded : items.length ≤ maxlen
  deriving DecidableEq

namespace BoundedDeque
variable {Item : Type} {maxlen : Nat}

def empty : BoundedDeque Item maxlen := ⟨[], Nat.zero_le _⟩

def append (d : BoundedDeque Item maxlen) (item : Item) : BoundedDeque Item maxlen :=
  ⟨(d.items ++ [item]).drop (d.items.length + 1 - maxlen), by
    simp only [List.length_drop, List.length_append, List.length_singleton]
    omega⟩

def popleft (d : BoundedDeque Item maxlen) : Option (Item × BoundedDeque Item maxlen) :=
  match d with
  | ⟨[], _⟩ => none
  | ⟨item :: rest, bounded⟩ => some (item, ⟨rest, Nat.le_of_succ_le bounded⟩)

@[simp] theorem empty_items : (empty : BoundedDeque Item maxlen).items = [] := rfl

theorem append_with_room {d : BoundedDeque Item maxlen} (room : d.items.length < maxlen)
    (item : Item) : (d.append item).items = d.items ++ [item] := by
  have nothingDropped : d.items.length + 1 - maxlen = 0 := by omega
  simp [append, nothingDropped]

/-- The oldest item gives way; everything else keeps its order. -/
theorem append_when_full {d : BoundedDeque Item maxlen} {oldest : Item} {rest : List Item}
    (content : d.items = oldest :: rest) (full : d.items.length = maxlen) (item : Item) :
    (d.append item).items = rest ++ [item] := by
  have dropOne : d.items.length + 1 - maxlen = 1 := by omega
  simp only [append, dropOne]
  simp [content]

theorem popleft_none {d : BoundedDeque Item maxlen} : d.popleft = none ↔ d.items = [] := by
  obtain ⟨items, bounded⟩ := d
  cases items <;> simp [popleft]

theorem popleft_some {d rest : BoundedDeque Item maxlen} {item : Item}
    (popped : d.popleft = some (item, rest)) : d.items = item :: rest.items := by
  obtain ⟨items, bounded⟩ := d
  cases items with
  | nil => simp [popleft] at popped
  | cons head tail =>
    simp only [popleft, Option.some.injEq, Prod.mk.injEq] at popped
    obtain ⟨rfl, rfl⟩ := popped
    rfl

end BoundedDeque
