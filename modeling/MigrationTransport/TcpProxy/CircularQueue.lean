import MigrationTransport.Lib.BoundedDeque

/-!
`CircularQueue` of the TCP proxy: a `deque(maxlen=maxsize)` and a closed flag. The
bodies of `put`, `get` and `close` run under the condition's lock without awaiting,
so each is one function here; only the wait inside `get` gives up control.
-/
structure CircularQueue (Item : Type) (maxsize : Nat) where
  queue : BoundedDeque Item maxsize
  closed : Bool
  deriving DecidableEq

namespace CircularQueue
variable {Item : Type} {maxsize : Nat}

def new : CircularQueue Item maxsize := ⟨.empty, false⟩

def items (q : CircularQueue Item maxsize) : List Item := q.queue.items

def put (q : CircularQueue Item maxsize) (item : Item) : CircularQueue Item maxsize :=
  if q.closed then q else { q with queue := q.queue.append item }

/-- What one pass of `get` does with the queue it finds. `wait` is the body of the
    `while` loop, `none` the value returned from a queue that is closed and empty. -/
inductive Got (Item : Type) (maxsize : Nat) where
  | wait
  | none
  | item (item : Item) (rest : CircularQueue Item maxsize)
  deriving DecidableEq

def get (q : CircularQueue Item maxsize) : Got Item maxsize :=
  match q.queue.popleft with
  | some (item, rest) => .item item { q with queue := rest }
  | .none => if q.closed then .none else .wait

def close (q : CircularQueue Item maxsize) : CircularQueue Item maxsize :=
  { q with closed := true }

@[simp] theorem new_items : (new : CircularQueue Item maxsize).items = [] := rfl
@[simp] theorem new_closed : (new : CircularQueue Item maxsize).closed = false := rfl
@[simp] theorem close_items (q : CircularQueue Item maxsize) : q.close.items = q.items := rfl
@[simp] theorem close_closed (q : CircularQueue Item maxsize) : q.close.closed = true := rfl

@[simp] theorem put_closed (q : CircularQueue Item maxsize) (item : Item) :
    (q.put item).closed = q.closed := by
  unfold put
  split <;> rfl

theorem put_with_room {q : CircularQueue Item maxsize} (opened : q.closed = false)
    (room : q.items.length < maxsize) (item : Item) : (q.put item).items = q.items ++ [item] := by
  simp [put, opened, items, BoundedDeque.append_with_room room]

theorem put_when_full {q : CircularQueue Item maxsize} {oldest : Item} {rest : List Item}
    (opened : q.closed = false) (content : q.items = oldest :: rest)
    (full : q.items.length = maxsize) (item : Item) : (q.put item).items = rest ++ [item] := by
  simp [put, opened, items, BoundedDeque.append_when_full content full]

theorem get_wait {q : CircularQueue Item maxsize} :
    q.get = .wait ↔ q.items = [] ∧ q.closed = false := by
  unfold get
  split
  · rename_i item rest popped
    simp [items, BoundedDeque.popleft_some popped]
  · rename_i empty
    simp [items, BoundedDeque.popleft_none.mp empty]

theorem get_none {q : CircularQueue Item maxsize} :
    q.get = .none ↔ q.items = [] ∧ q.closed = true := by
  unfold get
  split
  · rename_i item rest popped
    simp [items, BoundedDeque.popleft_some popped]
  · rename_i empty
    simp [items, BoundedDeque.popleft_none.mp empty]

theorem get_item {q rest : CircularQueue Item maxsize} {item : Item}
    (got : q.get = .item item rest) : q.items = item :: rest.items ∧ rest.closed = q.closed := by
  unfold get at got
  split at got
  · rename_i popped
    simp only [Got.item.injEq] at got
    obtain ⟨rfl, rfl⟩ := got
    exact ⟨BoundedDeque.popleft_some popped, rfl⟩
  · split at got <;> simp at got

end CircularQueue
