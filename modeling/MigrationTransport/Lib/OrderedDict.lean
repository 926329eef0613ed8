import Mathlib

/-!
A Python `dict`: its keys are distinct and stay in the order in which they were first
set. `del` of an absent key is `none`, where Python raises `KeyError`.
-/
structure OrderedDict (Key Value : Type) where
  entries : List (Key × Value)
  distinct : (entries.map Prod.fst).Nodup
  deriving DecidableEq

namespace OrderedDict
variable {Key Value : Type}

def empty : OrderedDict Key Value := ⟨[], List.nodup_nil⟩

def keys (d : OrderedDict Key Value) : List Key := d.entries.map Prod.fst

variable [DecidableEq Key]

def get (d : OrderedDict Key Value) (key : Key) : Option Value := d.entries.lookup key

def assign (key : Key) (value : Value) (entry : Key × Value) : Key × Value :=
  if entry.1 = key then (key, value) else entry

theorem assign_key (key : Key) (value : Value) (entry : Key × Value) :
    (assign key value entry).1 = entry.1 := by
  unfold assign
  split
  · rename_i same
    exact same.symm
  · rfl

theorem assign_keys (key : Key) (value : Value) (entries : List (Key × Value)) :
    (entries.map (assign key value)).map Prod.fst = entries.map Prod.fst := by
  rw [List.map_map]
  exact List.map_congr_left fun entry _ => assign_key key value entry

def set (d : OrderedDict Key Value) (key : Key) (value : Value) : OrderedDict Key Value :=
  if held : key ∈ d.keys then
    ⟨d.entries.map (assign key value), by rw [assign_keys]; exact d.distinct⟩
  else
    ⟨d.entries ++ [(key, value)], by
      rw [List.map_append]
      exact List.nodup_append_comm.mp (List.nodup_cons.mpr ⟨held, d.distinct⟩)⟩

def del (d : OrderedDict Key Value) (key : Key) : Option (OrderedDict Key Value) :=
  if key ∈ d.keys then
    some ⟨d.entries.filter (·.1 ≠ key), d.distinct.sublist (List.filter_sublist.map _)⟩
  else none

@[simp] theorem get_empty (key : Key) : (empty : OrderedDict Key Value).get key = none := rfl

theorem lookup_none {entries : List (Key × Value)} {key : Key} :
    entries.lookup key = none ↔ key ∉ entries.map Prod.fst := by
  rw [List.lookup_eq_none_iff, List.mem_map]
  constructor
  · rintro absent ⟨entry, member, same⟩
    exact bne_iff_ne.mp (absent entry member) same.symm
  · intro absent entry member
    exact bne_iff_ne.mpr fun same => absent ⟨entry, member, same.symm⟩

theorem lookup_cons (entry : Key × Value) (entries : List (Key × Value)) (key : Key) :
    (entry :: entries).lookup key =
      if key = entry.1 then some entry.2 else entries.lookup key := by
  rw [List.lookup_cons]
  by_cases same : key = entry.1
  · simp [same]
  · simp [same, beq_false_of_ne same]

theorem lookup_assign_other {key other : Key} (different : other ≠ key) (value : Value)
    (entries : List (Key × Value)) :
    (entries.map (assign key value)).lookup other = entries.lookup other := by
  induction entries with
  | nil => rfl
  | cons entry entries ih =>
    rw [List.map_cons, lookup_cons, lookup_cons, ih, assign_key]
    by_cases same : entry.1 = key
    · simp [same, different]
    · simp [assign, same]

theorem lookup_assign_same {key : Key} (value : Value) {entries : List (Key × Value)}
    (held : key ∈ entries.map Prod.fst) :
    (entries.map (assign key value)).lookup key = some value := by
  induction entries with
  | nil => simp at held
  | cons entry entries ih =>
    rw [List.map_cons, lookup_cons, assign_key]
    by_cases same : entry.1 = key
    · simp [assign, same]
    · have later : key ∈ entries.map Prod.fst := by
        rcases List.mem_cons.mp held with here | later
        · exact absurd here.symm same
        · exact later
      rw [if_neg (Ne.symm same), ih later]

theorem lookup_filter (entries : List (Key × Value)) (key other : Key) :
    (entries.filter (·.1 ≠ key)).lookup other =
      if other = key then none else entries.lookup other := by
  induction entries with
  | nil => simp
  | cons entry entries ih =>
    rw [List.filter_cons, lookup_cons]
    by_cases same : entry.1 = key
    · rw [if_neg (by simpa using same), ih, same]
      split <;> simp_all
    · rw [if_pos (by simpa using same), lookup_cons, ih]
      split <;> simp_all

theorem lookup_entry {entries : List (Key × Value)} {entry : Key × Value}
    (distinct : (entries.map Prod.fst).Nodup) (member : entry ∈ entries) :
    entries.lookup entry.1 = some entry.2 := by
  induction entries with
  | nil => simp at member
  | cons first entries ih =>
    obtain ⟨absent, distinct⟩ := List.nodup_cons.mp distinct
    rw [lookup_cons]
    rcases List.mem_cons.mp member with rfl | later
    · rw [if_pos rfl]
    · rw [if_neg, ih distinct later]
      intro same
      exact absent (List.mem_map.mpr ⟨entry, later, same⟩)

theorem get_entry {d : OrderedDict Key Value} {entry : Key × Value}
    (member : entry ∈ d.entries) : d.get entry.1 = some entry.2 :=
  lookup_entry d.distinct member

theorem get_none {d : OrderedDict Key Value} {key : Key} : d.get key = none ↔ key ∉ d.keys :=
  lookup_none

theorem key_of_get {d : OrderedDict Key Value} {key : Key} {value : Value}
    (held : d.get key = some value) : key ∈ d.keys := by
  by_contra absent
  rw [get_none.mpr absent] at held
  simp at held

theorem get_set (d : OrderedDict Key Value) (key other : Key) (value : Value) :
    (d.set key value).get other = if other = key then some value else d.get other := by
  by_cases held : key ∈ d.keys
  · rw [set, dif_pos held]
    by_cases same : other = key
    · rw [if_pos same, same]
      exact lookup_assign_same value held
    · rw [if_neg same]
      exact lookup_assign_other same value d.entries
  · rw [set, dif_neg held, get, List.lookup_append, lookup_cons]
    by_cases same : other = key
    · rw [same, lookup_none.mpr held]
      simp
    · rw [if_neg same, if_neg same]
      simp [get]

theorem get_del {d rest : OrderedDict Key Value} {key : Key} (deleted : d.del key = some rest)
    (other : Key) : rest.get other = if other = key then none else d.get other := by
  simp only [del, Option.ite_none_right_eq_some, Option.some.injEq] at deleted
  obtain ⟨-, rfl⟩ := deleted
  exact lookup_filter d.entries key other

def total (weight : Key → Value → Nat) (d : OrderedDict Key Value) : Nat :=
  (d.entries.map fun entry => weight entry.1 entry.2).sum

theorem sum_assign (weight : Key → Value → Nat) {entries : List (Key × Value)} {key : Key}
    {old : Value} (value : Value) (distinct : (entries.map Prod.fst).Nodup)
    (found : entries.lookup key = some old) :
    ((entries.map (assign key value)).map fun entry => weight entry.1 entry.2).sum +
        weight key old =
      (entries.map fun entry => weight entry.1 entry.2).sum + weight key value := by
  induction entries with
  | nil => simp at found
  | cons entry entries ih =>
    obtain ⟨absent, distinct⟩ := List.nodup_cons.mp distinct
    rw [lookup_cons] at found
    simp only [List.map_cons, List.sum_cons]
    by_cases same : key = entry.1
    · rw [if_pos same, Option.some.injEq] at found
      have unchanged : entries.map (assign key value) = entries := by
        rw [List.map_congr_left (g := id), List.map_id]
        intro other member
        refine if_neg fun again => absent ?_
        exact List.mem_map.mpr ⟨other, member, again.trans same⟩
      have changed : assign key value entry = (key, value) := if_pos same.symm
      rw [unchanged, changed, same, found]
      dsimp only
      omega
    · rw [if_neg same] at found
      have later := ih distinct found
      have kept : assign key value entry = entry := if_neg (Ne.symm same)
      rw [kept]
      omega

theorem total_set (weight : Key → Value → Nat) (d : OrderedDict Key Value) (key : Key)
    (value : Value) :
    (d.set key value).total weight + ((d.get key).map (weight key)).getD 0 =
      d.total weight + weight key value := by
  by_cases held : key ∈ d.keys
  · obtain ⟨old, found⟩ : ∃ old, d.get key = some old := by
      rw [← Option.ne_none_iff_exists']
      exact fun absent => get_none.mp absent held
    rw [set, dif_pos held, found]
    exact sum_assign weight value d.distinct found
  · rw [set, dif_neg held, get_none.mpr held]
    simp [total]

theorem keys_set (d : OrderedDict Key Value) (key other : Key) (value : Value) :
    other ∈ (d.set key value).keys ↔ other ∈ d.keys ∨ other = key := by
  by_cases held : key ∈ d.keys
  · rw [set, dif_pos held, keys, assign_keys]
    constructor
    · exact Or.inl
    · rintro (member | rfl)
      · exact member
      · exact held
  · rw [set, dif_neg held]
    simp [keys]

theorem del_none {d : OrderedDict Key Value} {key : Key} :
    d.del key = none ↔ d.get key = none := by
  rw [get_none, del]
  split <;> simp_all

end OrderedDict
