import Mathlib

/-!
Pipes between programs. A program sends chunk after chunk, and a send that fails may have put
an initial part of its chunk into the pipe; the next program reads what is there in any
pieces. The log of the sends says what was to be sent, what has arrived, and what is missing.
-/
namespace SendLog
variable {Item : Type}

/-- A chunk, and for a send that failed how much of it had been sent. -/
abbrev Send (Item : Type) := List Item × Option Nat

def entered : Send Item → List Item
  | (chunk, none) => chunk
  | (chunk, some cut) => chunk.take cut

def offered (sends : List (Send Item)) : List Item := (sends.map Prod.fst).flatten

def arrived (sends : List (Send Item)) : List Item := (sends.map entered).flatten

def whole : List (Send Item) → Nat
  | [] => 0
  | (chunk, none) :: sends => chunk.length + whole sends
  | (_, some _) :: sends => whole sends

/-- The items that failed sends have put into the pipe, and those that they have not. -/
def partly : List (Send Item) → Nat
  | [] => 0
  | (_, none) :: sends => partly sends
  | (chunk, some cut) :: sends => (chunk.take cut).length + partly sends

def missing : List (Send Item) → Nat
  | [] => 0
  | (_, none) :: sends => missing sends
  | (chunk, some cut) :: sends => (chunk.drop cut).length + missing sends

structure Pipe (Item : Type) where
  sends : List (Send Item)
  waiting : List Item
  deriving DecidableEq

namespace Pipe

def empty : Pipe Item := ⟨[], []⟩

def send (p : Pipe Item) (chunk : List Item) (cut : Option Nat) : Pipe Item where
  sends := p.sends ++ [(chunk, cut)]
  waiting := p.waiting ++ entered (chunk, cut)

def read [DecidableEq Item] (p : Pipe Item) (chunk : List Item) : Option (Pipe Item) :=
  if chunk <+: p.waiting then some { p with waiting := p.waiting.drop chunk.length } else none

end Pipe

variable {sends later : List (Send Item)} {chunk taken : List Item} {cut : Option Nat}
  {p q : Pipe Item}

@[simp] theorem arrived_nil : arrived ([] : List (Send Item)) = [] := rfl

@[simp] theorem offered_nil : offered ([] : List (Send Item)) = [] := rfl

@[simp] theorem arrived_cons (s : Send Item) : arrived (s :: sends) = entered s ++ arrived sends :=
  rfl

@[simp] theorem offered_cons (s : Send Item) : offered (s :: sends) = s.1 ++ offered sends := rfl

@[simp] theorem arrived_append : arrived (sends ++ later) = arrived sends ++ arrived later := by
  simp [arrived]

@[simp] theorem offered_append : offered (sends ++ later) = offered sends ++ offered later := by
  simp [offered]

theorem arrived_all (fine : ∀ s ∈ sends, s.2 = none) : arrived sends = offered sends := by
  induction sends with
  | nil => rfl
  | cons s sends ih =>
    obtain ⟨chunk, cut⟩ := s
    have here : cut = none := fine (chunk, cut) List.mem_cons_self
    subst here
    rw [arrived_cons, offered_cons, ih fun s member => fine s (List.mem_cons_of_mem _ member)]
    rfl

theorem arrived_length : (arrived sends).length = whole sends + partly sends := by
  induction sends with
  | nil => rfl
  | cons s sends ih =>
    obtain ⟨chunk, cut⟩ := s
    rw [arrived_cons, List.length_append, ih]
    cases cut with
    | none =>
      simp only [entered, whole, partly]
      omega
    | some cut =>
      simp only [entered, whole, partly]
      omega

theorem offered_length :
    (offered sends).length = whole sends + partly sends + missing sends := by
  induction sends with
  | nil => rfl
  | cons s sends ih =>
    obtain ⟨chunk, cut⟩ := s
    rw [offered_cons, List.length_append, ih]
    cases cut with
    | none =>
      simp only [whole, partly, missing]
      omega
    | some cut =>
      simp only [whole, partly, missing, List.length_take, List.length_drop]
      omega

theorem whole_append : whole (sends ++ later) = whole sends + whole later := by
  induction sends with
  | nil => simp [whole]
  | cons s sends ih =>
    obtain ⟨chunk, cut⟩ := s
    cases cut with
    | none =>
      simp only [List.cons_append, whole, ih]
      omega
    | some cut =>
      simp only [List.cons_append, whole, ih]

theorem nothing_missing (fine : ∀ s ∈ sends, s.2 = none) :
    partly sends = 0 ∧ missing sends = 0 := by
  induction sends with
  | nil => exact ⟨rfl, rfl⟩
  | cons s sends ih =>
    obtain ⟨chunk, cut⟩ := s
    have here : cut = none := fine (chunk, cut) List.mem_cons_self
    subst here
    exact ih fun s member => fine s (List.mem_cons_of_mem _ member)

/-- What has been read from a pipe, and what waits in it, is what has arrived there. -/
def Conveys (p : Pipe Item) (taken : List Item) : Prop := arrived p.sends = taken ++ p.waiting

theorem empty_conveys : Conveys (Pipe.empty : Pipe Item) [] := rfl

theorem send_conveys (conveys : Conveys p taken) (chunk : List Item) (cut : Option Nat) :
    Conveys (p.send chunk cut) taken := by
  rw [Conveys] at conveys ⊢
  simp only [Pipe.send, arrived_append, arrived_cons, arrived_nil, List.append_nil, conveys,
    List.append_assoc]

theorem read_conveys [DecidableEq Item] (conveys : Conveys p taken)
    (reads : p.read chunk = some q) : Conveys q (taken ++ chunk) ∧ q.sends = p.sends := by
  rw [Pipe.read, Option.ite_none_right_eq_some] at reads
  obtain ⟨⟨rest, front⟩, reads⟩ := reads
  cases reads
  refine ⟨?_, rfl⟩
  rw [Conveys] at conveys ⊢
  simp only [conveys, ← front, List.drop_left, List.append_assoc]

theorem conveys_length (conveys : Conveys p taken) :
    whole p.sends + partly p.sends = taken.length + p.waiting.length := by
  rw [← arrived_length, conveys, List.length_append]

end SendLog
