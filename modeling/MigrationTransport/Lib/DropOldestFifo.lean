import MigrationTransport.Lib.Runs

/-!
The purpose of a bounded queue that makes room by dropping its oldest item: a history of
accepted items of which a first part has been removed, each either taken or evicted, while
the rest is still there, in order. Order and uniqueness hold by construction.
-/
inductive Fate where
  | taken
  | evicted
  deriving DecidableEq

structure DropOldestFifo (Item : Type) (bound : Nat) where
  removed : List (Item × Fate)
  content : List Item
  bounded : content.length ≤ bound

namespace DropOldestFifo
variable {Item : Type} {bound : Nat}

def accepted (f : DropOldestFifo Item bound) : List Item := f.removed.map Prod.fst ++ f.content

/-- The removed items that met one fate, in the order in which they were accepted. -/
def fated (fate : Fate) (removed : List (Item × Fate)) : List Item :=
  (removed.filter (·.2 = fate)).map Prod.fst

def empty : DropOldestFifo Item bound := ⟨[], [], Nat.zero_le _⟩

def overflow (bound : Nat) (content : List Item) (item : Item) : List Item :=
  (content ++ [item]).take (content.length + 1 - bound)

def accept (f : DropOldestFifo Item bound) (item : Item) : DropOldestFifo Item bound where
  removed := f.removed ++ (overflow bound f.content item).map (·, .evicted)
  content := (f.content ++ [item]).drop (f.content.length + 1 - bound)
  bounded := by
    simp only [List.length_drop, List.length_append, List.length_singleton]
    omega

theorem tail_bounded {item : Item} {rest : List Item} (bounded : (item :: rest).length ≤ bound) :
    rest.length ≤ bound :=
  Nat.le_of_succ_le bounded

def take (f : DropOldestFifo Item bound) : Option (Item × DropOldestFifo Item bound) :=
  match f with
  | ⟨_, [], _⟩ => none
  | ⟨removed, item :: rest, bounded⟩ =>
    some (item, ⟨removed ++ [(item, .taken)], rest, tail_bounded bounded⟩)

theorem ext {f g : DropOldestFifo Item bound} (removed : f.removed = g.removed)
    (content : f.content = g.content) : f = g := by
  obtain ⟨_, _, _⟩ := f
  obtain ⟨_, _, _⟩ := g
  simp_all

@[simp] theorem fated_append (fate : Fate) (first second : List (Item × Fate)) :
    fated fate (first ++ second) = fated fate first ++ fated fate second := by
  simp [fated]

@[simp] theorem fated_same (fate : Fate) (items : List Item) :
    fated fate (items.map (·, fate)) = items := by
  have all : (items.map (·, fate)).filter (fun entry => decide (entry.2 = fate)) =
      items.map (·, fate) := by
    rw [List.filter_eq_self]
    simp
  simp [fated, all, Function.comp_def]

theorem fated_other {f g : Fate} (different : g ≠ f) (items : List Item) :
    fated f (items.map (·, g)) = [] := by
  simp [fated, different]

theorem fated_ordered (removed : List (Item × Fate)) (content : List Item) :
    (fated .taken removed ++ content).Sublist (removed.map Prod.fst ++ content) :=
  (List.filter_sublist.map Prod.fst).append (List.Sublist.refl content)

theorem fated_counts (removed : List (Item × Fate)) :
    (fated .taken removed).length + (fated .evicted removed).length = removed.length := by
  induction removed with
  | nil => rfl
  | cons entry removed ih =>
    obtain ⟨item, fate⟩ := entry
    cases fate <;> simp [fated] at ih ⊢ <;> omega

theorem overflow_room {content : List Item} (room : content.length < bound) (item : Item) :
    overflow bound content item = [] := by
  have none : content.length + 1 - bound = 0 := by omega
  simp [overflow, none]

theorem overflow_full {content : List Item} (positive : 0 < bound)
    (full : content.length = bound) (item : Item) :
    overflow bound content item = content.take 1 := by
  have one : content.length + 1 - bound = 1 := by omega
  rw [overflow, one, List.take_append_of_le_length (by omega)]

theorem accepted_accept (f : DropOldestFifo Item bound) (item : Item) :
    (f.accept item).accepted = f.accepted ++ [item] := by
  simp only [accepted, accept, overflow, List.map_append, List.map_map]
  rw [List.append_assoc, List.append_assoc]
  congr 1
  simp only [Function.comp_def, List.map_id']
  exact List.take_append_drop _ _

theorem take_some {f rest : DropOldestFifo Item bound} {item : Item}
    (took : f.take = some (item, rest)) :
    f.content = item :: rest.content ∧ rest.removed = f.removed ++ [(item, .taken)] := by
  obtain ⟨removed, content, bounded⟩ := f
  cases content with
  | nil => simp [take] at took
  | cons head tail =>
    simp only [take, Option.some.injEq, Prod.mk.injEq] at took
    obtain ⟨rfl, rfl⟩ := took
    exact ⟨rfl, rfl⟩

theorem accepted_take {f rest : DropOldestFifo Item bound} {item : Item}
    (took : f.take = some (item, rest)) : rest.accepted = f.accepted := by
  obtain ⟨content, removed⟩ := take_some took
  simp [accepted, content, removed]

inductive Move (Item : Type) where
  | accept (item : Item)
  | take

def step (f : DropOldestFifo Item bound) : Move Item → Option (DropOldestFifo Item bound)
  | .accept item => some (f.accept item)
  | .take => f.take.map Prod.snd

end DropOldestFifo
