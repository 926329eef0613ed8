import MigrationTransport.Lib.DropOldestFifo
import MigrationTransport.TcpProxy.CircularQueue

/-!
A `CircularQueue` with any number of producers and consumers. Each body under the lock is
one action; a `get` that finds nothing parks on the condition, in order, until a `notify`
reaches it, and is then one of the notified until it takes the lock again and re-checks.
-/
namespace QueueClients

/-- `parked` are the waiters that nobody has notified, oldest first, `notified` those that
    have not run since. The histories: what left the queue and how, and what each `get`
    returned. -/
structure Clients (Client Item : Type) (maxsize : Nat) where
  queue : CircularQueue Item maxsize
  parked : List Client
  notified : List Client
  removed : List (Item × Fate)
  answers : List (Client × Option Item)
  deriving DecidableEq

inductive Act (Client Item : Type) where
  | put (item : Item)
  | close
  | get (c : Client)
  | resume (c : Client)
  deriving DecidableEq

variable {Client Item : Type} {maxsize : Nat}

def init : Clients Client Item maxsize where
  queue := .new
  parked := []
  notified := []
  removed := []
  answers := []

/-- What `deque.append` drops when the queue is open. -/
def evictedBy (q : CircularQueue Item maxsize) (item : Item) : List Item :=
  DropOldestFifo.overflow maxsize q.items item

/-- One pass of `get` through the `while` test, by a client that holds the lock. -/
def pass (s : Clients Client Item maxsize) (c : Client) : Clients Client Item maxsize :=
  match s.queue.get with
  | .wait => { s with parked := s.parked ++ [c] }
  | .none => { s with answers := s.answers ++ [(c, none)] }
  | .item item rest =>
    { s with
      queue := rest
      removed := s.removed ++ [(item, .taken)]
      answers := s.answers ++ [(c, some item)] }

variable [DecidableEq Client]

def step (s : Clients Client Item maxsize) :
    Act Client Item → Option (Clients Client Item maxsize)
  | .put item =>
    if s.queue.closed then some s
    else some { s with
      queue := s.queue.put item
      removed := s.removed ++ (evictedBy s.queue item).map (·, .evicted)
      parked := s.parked.tail
      notified := s.notified ++ s.parked.head?.toList }
  | .close =>
    some { s with
      queue := s.queue.close
      parked := []
      notified := s.notified ++ s.parked }
  | .get c => if c ∈ s.parked ∨ c ∈ s.notified then none else some (pass s c)
  | .resume c =>
    if c ∈ s.notified then some (pass { s with notified := s.notified.erase c } c) else none

/-- What one pass of a `get` does. -/
inductive Passed (s : Clients Client Item maxsize) (c : Client) :
    Clients Client Item maxsize → Prop where
  | waits (empty : s.queue.items = []) (opened : s.queue.closed = false) :
      Passed s c { s with parked := s.parked ++ [c] }
  | returnsNone (empty : s.queue.items = []) (closed : s.queue.closed = true) :
      Passed s c { s with answers := s.answers ++ [(c, none)] }
  | returns (item : Item) (rest : CircularQueue Item maxsize)
      (content : s.queue.items = item :: rest.items) (sameFlag : rest.closed = s.queue.closed) :
      Passed s c { s with
        queue := rest
        removed := s.removed ++ [(item, .taken)]
        answers := s.answers ++ [(c, some item)] }

omit [DecidableEq Client] in
theorem pass_effect (s : Clients Client Item maxsize) (c : Client) : Passed s c (pass s c) := by
  unfold pass
  split
  · rename_i got
    obtain ⟨empty, opened⟩ := CircularQueue.get_wait.mp got
    exact .waits empty opened
  · rename_i got
    obtain ⟨empty, closed⟩ := CircularQueue.get_none.mp got
    exact .returnsNone empty closed
  · rename_i item rest got
    obtain ⟨content, sameFlag⟩ := CircularQueue.get_item got
    exact .returns item rest content sameFlag

inductive Effect (s : Clients Client Item maxsize) :
    Act Client Item → Clients Client Item maxsize → Prop where
  | putClosed (item : Item) (closed : s.queue.closed = true) : Effect s (.put item) s
  | put (item : Item) (opened : s.queue.closed = false) : Effect s (.put item) { s with
      queue := s.queue.put item
      removed := s.removed ++ (evictedBy s.queue item).map (·, .evicted)
      parked := s.parked.tail
      notified := s.notified ++ s.parked.head?.toList }
  | close : Effect s .close { s with
      queue := s.queue.close
      parked := []
      notified := s.notified ++ s.parked }
  | get (c : Client) : Effect s (.get c) (pass s c)
  | resume (c : Client) (woken : c ∈ s.notified) :
      Effect s (.resume c) (pass { s with notified := s.notified.erase c } c)

theorem step_effect {s t : Clients Client Item maxsize} {a : Act Client Item}
    (stepped : step s a = some t) : Effect s a t := by
  cases a with
  | put item =>
    cases flag : s.queue.closed with
    | true =>
      simp only [step, flag, if_true, Option.some.injEq] at stepped
      exact stepped ▸ .putClosed item flag
    | false =>
      simp only [step, flag, Bool.false_eq_true, if_false, Option.some.injEq] at stepped
      exact stepped ▸ .put item flag
  | close =>
    simp only [step, Option.some.injEq] at stepped
    exact stepped ▸ .close
  | get c =>
    simp only [step, Option.ite_none_left_eq_some, Option.some.injEq] at stepped
    obtain ⟨-, rfl⟩ := stepped
    exact .get c
  | resume c =>
    simp only [step, Option.ite_none_right_eq_some, Option.some.injEq] at stepped
    obtain ⟨woken, rfl⟩ := stepped
    exact .resume c woken

/-- Where somebody is parked, each queued item has a wake-up on its way. -/
def Awake (s : Clients Client Item maxsize) : Prop :=
  s.parked ≠ [] → s.queue.closed = false ∧ s.queue.items.length ≤ s.notified.length

theorem put_grows (q : CircularQueue Item maxsize) (item : Item) :
    (q.put item).items.length ≤ q.items.length + 1 := by
  unfold CircularQueue.put
  split
  · exact Nat.le_succ _
  · simp only [CircularQueue.items, BoundedDeque.append, List.length_drop, List.length_append,
      List.length_singleton]
    omega

omit [DecidableEq Client] in
/-- A client that is about to look may be one wake-up short, since it looks itself. -/
theorem pass_awake {s t : Clients Client Item maxsize} {c : Client} (passed : Passed s c t)
    (short : s.parked ≠ [] →
      s.queue.closed = false ∧ s.queue.items.length ≤ s.notified.length + 1) : Awake t := by
  cases passed with
  | waits empty opened =>
    intro _
    exact ⟨opened, by simp [empty]⟩
  | returnsNone empty closed =>
    intro waiting
    obtain ⟨opened, -⟩ := short waiting
    simp [closed] at opened
  | returns item rest content sameFlag =>
    intro waiting
    obtain ⟨opened, enough⟩ := short waiting
    rw [content, List.length_cons] at enough
    exact ⟨sameFlag.trans opened, by simpa using enough⟩

theorem step_awake {s t : Clients Client Item maxsize} {a : Act Client Item} (awake : Awake s)
    (stepped : step s a = some t) : Awake t := by
  cases step_effect stepped with
  | putClosed item closed => exact awake
  | put item opened =>
    intro waiting
    obtain ⟨first, rest, content⟩ : ∃ first rest, s.parked = first :: rest := by
      apply List.exists_cons_of_ne_nil
      intro nobody
      simp [nobody] at waiting
    obtain ⟨-, enough⟩ := awake (by simp [content])
    have grown := put_grows s.queue item
    simp only [content, List.head?_cons, Option.toList_some, List.length_append,
      List.length_singleton, CircularQueue.put_closed]
    exact ⟨opened, by omega⟩
  | close => exact fun waiting => absurd rfl waiting
  | get c =>
    apply pass_awake (pass_effect s c)
    intro waiting
    obtain ⟨opened, enough⟩ := awake waiting
    exact ⟨opened, by omega⟩
  | resume c woken =>
    apply pass_awake (pass_effect _ c)
    intro waiting
    obtain ⟨opened, enough⟩ := awake waiting
    have fewer := List.length_erase_of_mem woken
    have positive := List.length_pos_of_mem woken
    exact ⟨opened, by simp only [fewer]; omega⟩

theorem no_lost_wakeup {acts : List (Act Client Item)} {s : Clients Client Item maxsize}
    (reached : Runs.run step init acts = some s) :
    (s.parked ≠ [] → s.queue.closed = false ∧ s.queue.items.length ≤ s.notified.length) ∧
      ¬ (s.parked ≠ [] ∧ s.notified = [] ∧ (s.queue.items ≠ [] ∨ s.queue.closed = true)) := by
  have start : Awake (init : Clients Client Item maxsize) := fun waiting => absurd rfl waiting
  have awake := Runs.invariant_run Awake (fun _ _ _ => step_awake) start reached
  refine ⟨awake, ?_⟩
  rintro ⟨waiting, nobody, filled | closed⟩
  · obtain ⟨-, enough⟩ := awake waiting
    rw [nobody, List.length_nil, Nat.le_zero, List.length_eq_zero_iff] at enough
    exact filled enough
  · obtain ⟨opened, -⟩ := awake waiting
    simp [closed] at opened

/-- A fresh `get` takes the item for which the first client was woken. -/
theorem no_lost_wakeup_stolen : ∃ s : Clients Nat Nat 2,
    Runs.run step init [.get 1, .get 2, .put 7, .get 3, .resume 1] = some s ∧
      s.parked = [2, 1] ∧ s.notified = [] ∧ s.queue.items = [] := by
  obtain ⟨s, reached, waiting, nobody⟩ : ∃ s : Clients Nat Nat 2,
      Runs.run step init [.get 1, .get 2, .put 7, .get 3, .resume 1] = some s ∧
        s.parked = [2, 1] ∧ s.notified = [] := Runs.reaches (by decide)
  obtain ⟨-, enough⟩ := (no_lost_wakeup reached).1 (by simp [waiting])
  rw [nobody, List.length_nil, Nat.le_zero, List.length_eq_zero_iff] at enough
  exact ⟨s, reached, waiting, nobody, enough⟩

end QueueClients
