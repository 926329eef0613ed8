import Mathlib

/-!
The descriptor table of a process. A new descriptor gets the lowest number that is free.
Closing a number that is not open changes nothing, as a `close` does that fails with
`EBADF`. `Extends` says of a table which descriptors were opened since some earlier table,
so that a program is described by what it has open, whatever it inherited.
-/
namespace Descriptors
variable {Obj : Type}

/-- Entry `n` is what descriptor `n` refers to. -/
structure Table (Obj : Type) where
  entries : List (Option Obj)
  deriving DecidableEq

namespace Table

def lookup (t : Table Obj) (fd : Nat) : Option Obj := t.entries[fd]?.join

def lowest (t : Table Obj) : Nat := t.entries.findIdx Option.isNone

def install (t : Table Obj) (o : Obj) : Table Obj :=
  if t.lowest < t.entries.length then ⟨t.entries.set t.lowest (some o)⟩
  else ⟨t.entries ++ [some o]⟩

def close (t : Table Obj) (fd : Nat) : Table Obj := ⟨t.entries.set fd none⟩

def empty : Table Obj := ⟨[]⟩

def Holds (t : Table Obj) (o : Obj) : Prop := some o ∈ t.entries

/-- How many descriptors refer to an object of some kind. -/
def count (t : Table Obj) (kind : Obj → Bool) : Nat := t.entries.countP fun entry => entry.any kind

instance [DecidableEq Obj] (t : Table Obj) (o : Obj) : Decidable (t.Holds o) :=
  inferInstanceAs (Decidable (some o ∈ t.entries))

end Table
open Table

variable {t base : Table Obj} {o p : Obj} {fd n : Nat}

theorem lookup_some : t.lookup fd = some o ↔ t.entries[fd]? = some (some o) := by
  rw [lookup]
  cases t.entries[fd]? with
  | none => simp
  | some entry => simp

theorem holds_iff : t.Holds o ↔ ∃ fd, t.lookup fd = some o := by
  rw [Holds, List.mem_iff_getElem?]
  constructor
  · rintro ⟨fd, found⟩
    exact ⟨fd, lookup_some.mpr found⟩
  · rintro ⟨fd, found⟩
    exact ⟨fd, lookup_some.mp found⟩

theorem not_holds_empty : ¬ (empty : Table Obj).Holds o := by
  simp [Holds, empty]

theorem lookup_lowest : t.lookup t.lowest = none := by
  by_cases short : t.lowest < t.entries.length
  · have found : t.entries[t.lowest].isNone = true := List.findIdx_getElem
    rw [lookup, List.getElem?_eq_getElem short]
    simpa using found
  · rw [lookup, List.getElem?_eq_none (by omega)]
    rfl

theorem lookup_install :
    (t.install o).lookup fd = if fd = t.lowest then some o else t.lookup fd := by
  unfold install
  split
  · rename_i short
    simp only [lookup, List.getElem?_set]
    by_cases same : t.lowest = fd
    · subst same
      simp [short]
    · simp [same, Ne.symm same]
  · rename_i full
    have most : t.lowest ≤ t.entries.length := List.findIdx_le_length
    have last : t.lowest = t.entries.length := by omega
    simp only [lookup, List.getElem?_append, last]
    by_cases before : fd < t.entries.length
    · have other : fd ≠ t.entries.length := by omega
      simp [before, other]
    · by_cases same : fd = t.entries.length
      · simp [same]
      · have beyond : fd - t.entries.length ≠ 0 := by omega
        simp [before, same, beyond]

theorem count_install (kind : Obj → Bool) :
    (t.install o).count kind = t.count kind + if kind o then 1 else 0 := by
  unfold install
  split
  · rename_i short
    have vacant : t.entries[t.lowest] = none := by
      have found : t.entries[t.lowest].isNone = true := List.findIdx_getElem
      simpa using found
    simp [count, List.countP_set short, vacant]
  · simp [count, List.countP_append, List.countP_singleton]

theorem lookup_close :
    (t.close fd).lookup n = if n = fd then none else t.lookup n := by
  simp only [lookup, close, List.getElem?_set]
  by_cases same : fd = n
  · subst same
    by_cases inside : fd < t.entries.length
    · simp [inside]
    · simp [inside]
  · simp [same, Ne.symm same]

/-- What another descriptor refers to stays where one is opened or closed. -/
theorem lookup_install_kept (found : t.lookup fd = some p) :
    (t.install o).lookup fd = some p := by
  have other : fd ≠ t.lowest := by
    intro same
    rw [same, lookup_lowest] at found
    cases found
  rwa [lookup_install, if_neg other]

theorem holds_install : (t.install o).Holds p ↔ p = o ∨ t.Holds p := by
  simp only [holds_iff, lookup_install]
  constructor
  · rintro ⟨fd, found⟩
    split at found
    · exact .inl (Option.some.inj found).symm
    · exact .inr ⟨fd, found⟩
  · rintro (rfl | ⟨fd, found⟩)
    · exact ⟨t.lowest, by simp⟩
    · refine ⟨fd, ?_⟩
      rw [← lookup_install]
      exact lookup_install_kept found

theorem holds_close (held : (t.close fd).Holds p) : t.Holds p := by
  obtain ⟨n, found⟩ := holds_iff.mp held
  rw [lookup_close] at found
  split at found
  · cases found
  · exact holds_iff.mpr ⟨n, found⟩

theorem lookup_close_kept (found : t.lookup fd = some p) (there : t.lookup n = some o)
    (other : o ≠ p) : (t.close n).lookup fd = some p := by
  have apart : fd ≠ n := by
    rintro rfl
    exact other (Option.some.inj (there.symm.trans found))
  rwa [lookup_close, if_neg apart]

/-- `t` is `base` and, at numbers that `base` has free, the descriptors of `opened`. -/
structure Extends (base : Table Obj) (opened : List (Nat × Obj)) (t : Table Obj) : Prop where
  lookups : ∀ fd o, t.lookup fd = some o ↔ base.lookup fd = some o ∨ (fd, o) ∈ opened
  numbers : (opened.map Prod.fst).Nodup
  free : ∀ fd ∈ opened.map Prod.fst, base.lookup fd = none

variable {opened after : List (Nat × Obj)}

theorem extends_nil : Extends base [] base where
  lookups := by simp
  numbers := List.nodup_nil
  free := by simp

theorem Extends.lookup (held : Extends base opened t) (member : (fd, o) ∈ opened) :
    t.lookup fd = some o :=
  (held.lookups fd o).mpr (.inr member)

theorem Extends.holds (held : Extends base opened t) :
    t.Holds o ↔ base.Holds o ∨ o ∈ opened.map Prod.snd := by
  simp only [holds_iff, held.lookups, exists_or, List.mem_map, Prod.exists, exists_eq_right]

theorem Extends.unchanged (held : Extends base [] t) (fd : Nat) : t.lookup fd = base.lookup fd := by
  apply Option.ext
  intro o
  simpa using held.lookups fd o

theorem Extends.install (held : Extends base opened t) (o : Obj) :
    Extends base ((t.lowest, o) :: opened) (t.install o) := by
  have unused : ∀ p, ¬ (base.lookup t.lowest = some p ∨ (t.lowest, p) ∈ opened) := by
    intro p
    rw [← held.lookups, lookup_lowest]
    simp
  have fresh : t.lowest ∉ opened.map Prod.fst := by
    intro member
    obtain ⟨⟨fd, p⟩, member, same⟩ := List.mem_map.mp member
    exact unused p (.inr (same ▸ member))
  have empty : base.lookup t.lowest = none := by
    apply Option.eq_none_iff_forall_ne_some.mpr
    intro p found
    exact unused p (.inl found)
  refine ⟨?_, List.nodup_cons.mpr ⟨fresh, held.numbers⟩, ?_⟩
  · intro fd p
    rw [lookup_install]
    by_cases same : fd = t.lowest
    · subst same
      have other : (t.lowest, p) ∉ opened := fun member => unused p (.inr member)
      simp [empty, other, eq_comm]
    · simp [same, held.lookups]
  · intro fd member
    rcases List.mem_cons.mp member with rfl | member
    · exact empty
    · exact held.free fd member

theorem Extends.close (before : List (Nat × Obj))
    (held : Extends base (before ++ (fd, o) :: after) t) :
    Extends base (before ++ after) (t.close fd) := by
  obtain ⟨lookups, numbers, free⟩ := held
  simp only [List.map_append, List.map_cons] at numbers free
  have ⟨fresh, distinct⟩ := List.nodup_cons.mp (List.nodup_middle.mp numbers)
  refine ⟨?_, by rwa [List.map_append], ?_⟩
  · intro n p
    rw [lookup_close]
    by_cases same : n = fd
    · subst same
      have taken : base.lookup n = none := free n (by simp)
      have gone : (n, p) ∉ before ++ after := by
        intro member
        rw [← List.map_append] at fresh
        exact fresh (List.mem_map.mpr ⟨(n, p), member, rfl⟩)
      simp [taken, List.mem_append.not.mp gone]
    · simp [same, lookups]
  · intro n member
    apply free n
    rw [List.map_append, List.mem_append] at member
    rcases member with early | late
    · exact List.mem_append_left _ early
    · exact List.mem_append_right _ (List.mem_cons_of_mem _ late)

end Descriptors
