import MigrationTransport.TcpProxy.QueueClients

/-!
`CircularQueue` with its producers and consumers is a bounded FIFO that drops its oldest
item. Each action of a client is seen there as one move or as none, so that what was put
before `close` splits, in order, into what was returned, what was evicted and the content.
-/
namespace FifoRefinement
open QueueClients
open DropOldestFifo hiding step
variable {Client Item : Type} {maxsize : Nat}

def view (s : Clients Client Item maxsize) : DropOldestFifo Item maxsize :=
  ⟨s.removed, s.queue.items, s.queue.queue.bounded⟩

def acceptedItems : List (Act Client Item) → List Item
  | [] => []
  | .put item :: rest => item :: acceptedItems rest
  | .close :: _ => []
  | .get _ :: rest => acceptedItems rest
  | .resume _ :: rest => acceptedItems rest

theorem view_put {s t : Clients Client Item maxsize} {item : Item}
    (opened : s.queue.closed = false) (queue : t.queue = s.queue.put item)
    (removed : t.removed = s.removed ++ (evictedBy s.queue item).map (·, .evicted)) :
    view t = (view s).accept item := by
  apply DropOldestFifo.ext
  · exact removed
  · simp only [view, queue, CircularQueue.put, opened, Bool.false_eq_true, if_false]
    rfl

theorem passed_view {s t : Clients Client Item maxsize} {c : Client} (passed : Passed s c t) :
    (view t = view s ∧ (t.answers = s.answers ∨ t.answers = s.answers ++ [(c, none)])) ∨
      ∃ item, (view s).take = some (item, view t) ∧
        t.answers = s.answers ++ [(c, some item)] := by
  cases passed with
  | waits empty opened => exact .inl ⟨rfl, .inl rfl⟩
  | returnsNone empty closed => exact .inl ⟨rfl, .inr rfl⟩
  | returns item rest content sameFlag =>
    refine .inr ⟨item, ?_, rfl⟩
    simp only [view, content, take]

theorem accept_evicts {s t : Clients Client Item maxsize} {item : Item}
    (accepted : view t = (view s).accept item) :
    fated .evicted t.removed =
      fated .evicted s.removed ++ overflow maxsize s.queue.items item := by
  have removed : t.removed = ((view s).accept item).removed := by rw [← accepted]; rfl
  rw [removed, DropOldestFifo.accept, fated_append, fated_same]
  rfl

variable [DecidableEq Client]

/-- The client whose `get` looks at the queue, and the state in which it does. -/
theorem step_looks {s t : Clients Client Item maxsize} {a : Act Client Item} {c : Client}
    (looks : a = .get c ∨ a = .resume c) (stepped : step s a = some t) :
    ∃ u : Clients Client Item maxsize, Passed u c t ∧ u.queue = s.queue ∧
      u.removed = s.removed ∧ u.answers = s.answers := by
  rcases looks with rfl | rfl
  · cases step_effect stepped with
    | get c => exact ⟨s, pass_effect s c, rfl, rfl, rfl⟩
  · cases step_effect stepped with
    | resume c woken => exact ⟨_, pass_effect _ c, rfl, rfl, rfl⟩

theorem looks_view {s t : Clients Client Item maxsize} {a : Act Client Item} {c : Client}
    (looks : a = .get c ∨ a = .resume c) (stepped : step s a = some t) :
    (view t = view s ∧ (t.answers = s.answers ∨ t.answers = s.answers ++ [(c, none)])) ∨
      ∃ item, (view s).take = some (item, view t) ∧
        t.answers = s.answers ++ [(c, some item)] := by
  obtain ⟨u, passed, queue, removed, answers⟩ := step_looks looks stepped
  have same : view u = view s := DropOldestFifo.ext removed (by simp only [view, queue])
  rw [← same, ← answers]
  exact passed_view passed

inductive Seen (s t : Clients Client Item maxsize) : Act Client Item → Prop where
  | ignored (item : Item) (closed : s.queue.closed = true) (same : t = s) :
      Seen s t (.put item)
  | accepts (item : Item) (opened : s.queue.closed = false)
      (accepted : view t = (view s).accept item) (still : t.queue.closed = false)
      (answers : t.answers = s.answers) : Seen s t (.put item)
  | closes (same : view t = view s) (closed : t.queue.closed = true)
      (answers : t.answers = s.answers) : Seen s t .close
  | nothing (a : Act Client Item) (c : Client) (looks : a = .get c ∨ a = .resume c)
      (same : view t = view s) (flag : t.queue.closed = s.queue.closed)
      (answers : t.answers = s.answers ∨ t.answers = s.answers ++ [(c, none)]) : Seen s t a
  | takes (a : Act Client Item) (c : Client) (looks : a = .get c ∨ a = .resume c) (item : Item)
      (took : (view s).take = some (item, view t)) (flag : t.queue.closed = s.queue.closed)
      (answers : t.answers = s.answers ++ [(c, some item)]) : Seen s t a

theorem looks_closed {s t : Clients Client Item maxsize} {a : Act Client Item} {c : Client}
    (looks : a = .get c ∨ a = .resume c) (stepped : step s a = some t) :
    t.queue.closed = s.queue.closed := by
  obtain ⟨u, passed, queue, -, -⟩ := step_looks looks stepped
  rw [← queue]
  cases passed with
  | returns item rest content sameFlag => exact sameFlag
  | _ => rfl

theorem looks_seen {s t : Clients Client Item maxsize} {a : Act Client Item} {c : Client}
    (looks : a = .get c ∨ a = .resume c) (stepped : step s a = some t) : Seen s t a := by
  have flag := looks_closed looks stepped
  rcases looks_view looks stepped with ⟨same, answers⟩ | ⟨item, took, answers⟩
  · exact .nothing a c looks same flag answers
  · exact .takes a c looks item took flag answers

theorem step_seen {s t : Clients Client Item maxsize} {a : Act Client Item}
    (stepped : step s a = some t) : Seen s t a := by
  cases a with
  | put item =>
    cases step_effect stepped with
    | putClosed _ closed => exact .ignored item closed rfl
    | put _ opened =>
      have still : (s.queue.put item).closed = false := by simp [opened]
      exact .accepts item opened (view_put opened rfl rfl) still rfl
  | close =>
    cases step_effect stepped with
    | close => exact .closes rfl rfl rfl
  | get c => exact looks_seen (.inl rfl) stepped
  | resume c => exact looks_seen (.inr rfl) stepped

theorem step_matched {s t : Clients Client Item maxsize} {a : Act Client Item}
    (stepped : step s a = some t) :
    ∃ moves, Runs.run DropOldestFifo.step (view s) moves = some (view t) := by
  cases step_seen stepped with
  | ignored item closed same => exact ⟨[], by simp [same]⟩
  | accepts item opened accepted => exact ⟨[.accept item], by simp [DropOldestFifo.step, accepted]⟩
  | closes same => exact ⟨[], by simp [same]⟩
  | nothing a c looks same => exact ⟨[], by simp [same]⟩
  | takes a c looks item took => exact ⟨[.take], by simp [DropOldestFifo.step, took]⟩

theorem run_accepted {s t : Clients Client Item maxsize} {acts : List (Act Client Item)}
    (reached : Runs.run step s acts = some t) :
    (view t).accepted =
      (view s).accepted ++ if s.queue.closed then [] else acceptedItems acts := by
  induction acts generalizing s with
  | nil =>
    rw [Runs.run_nil.mp reached]
    simp [acceptedItems]
  | cons a acts ih =>
    obtain ⟨u, first, later⟩ := Runs.run_cons.mp reached
    rw [ih later]
    cases step_seen first with
    | ignored item closed same => simp [same, closed]
    | accepts item opened accepted still =>
      simp [accepted, accepted_accept, opened, still, acceptedItems]
    | closes same closed => simp [same, closed, acceptedItems]
    | nothing a c looks same flag =>
      rcases looks with rfl | rfl <;> simp [same, flag, acceptedItems]
    | takes a c looks item took flag =>
      rcases looks with rfl | rfl <;> simp [accepted_take took, flag, acceptedItems]

/-- Every `get` that returns an item takes it from the FIFO, and no other step does. -/
theorem step_answers {s t : Clients Client Item maxsize} {a : Act Client Item}
    (answered : s.answers.filterMap Prod.snd = fated .taken s.removed)
    (stepped : step s a = some t) : t.answers.filterMap Prod.snd = fated .taken t.removed := by
  cases step_seen stepped with
  | ignored item closed same => rwa [same]
  | accepts item opened accepted still answers =>
    have removed : t.removed = ((view s).accept item).removed := by rw [← accepted]; rfl
    have spared : fated .taken ((overflow maxsize (view s).content item).map (·, .evicted)) = [] :=
      fated_other (by decide) _
    rw [answers, answered, removed, DropOldestFifo.accept, fated_append, spared, List.append_nil]
    rfl
  | closes same closed answers =>
    have removed : t.removed = s.removed := congrArg DropOldestFifo.removed same
    rwa [answers, removed]
  | nothing a c looks same flag answers =>
    have removed : t.removed = s.removed := congrArg DropOldestFifo.removed same
    rcases answers with answers | answers
    · rwa [answers, removed]
    · rw [answers, removed, List.filterMap_append, answered]
      simp
  | takes a c looks item took flag answers =>
    obtain ⟨-, removed⟩ := take_some took
    have removed : t.removed = s.removed ++ [(item, .taken)] := removed
    rw [answers, removed, List.filterMap_append, answered, fated_append]
    rfl

def Overflows (s : Clients Client Item maxsize) (a : Act Client Item) : Prop :=
  (∃ item, a = .put item) ∧ s.queue.closed = false ∧ s.queue.items.length = maxsize

theorem step_evicts {s t : Clients Client Item maxsize} {a : Act Client Item}
    (overflows : Overflows s a) (positive : 1 ≤ maxsize) (stepped : step s a = some t) :
    ∃ oldest, s.queue.items.head? = some oldest ∧
      fated .evicted t.removed = fated .evicted s.removed ++ [oldest] := by
  obtain ⟨⟨item, rfl⟩, opened, full⟩ := overflows
  cases step_seen stepped with
  | ignored _ closed => simp [opened] at closed
  | accepts _ _ accepted =>
    have evicts := accept_evicts accepted
    cases content : s.queue.items with
    | nil =>
      rw [content, List.length_nil] at full
      omega
    | cons oldest rest =>
      rw [overflow_full positive full, content] at evicts
      exact ⟨oldest, rfl, evicts⟩
  | nothing _ c looks => simp at looks
  | takes _ c looks => simp at looks

theorem step_spares {s t : Clients Client Item maxsize} {a : Act Client Item}
    (room : ¬ Overflows s a) (stepped : step s a = some t) :
    fated .evicted t.removed = fated .evicted s.removed := by
  cases step_seen stepped with
  | ignored item closed same => rw [same]
  | accepts item opened accepted =>
    have bounded : s.queue.items.length ≤ maxsize := s.queue.queue.bounded
    have notFull : s.queue.items.length ≠ maxsize := fun full => room ⟨⟨item, rfl⟩, opened, full⟩
    rw [accept_evicts accepted, overflow_room (by omega), List.append_nil]
  | closes same =>
    have removed : t.removed = s.removed := congrArg DropOldestFifo.removed same
    rw [removed]
  | nothing a c looks same =>
    have removed : t.removed = s.removed := congrArg DropOldestFifo.removed same
    rw [removed]
  | takes a c looks item took =>
    obtain ⟨-, removed⟩ := take_some took
    have removed : t.removed = s.removed ++ [(item, .taken)] := removed
    rw [removed, fated_append]
    exact List.append_nil _

theorem returns_none {s t : Clients Client Item maxsize} {a : Act Client Item} {c : Client}
    (looks : a = .get c ∨ a = .resume c) (stepped : step s a = some t) :
    t.answers = s.answers ++ [(c, none)] ↔ s.queue.closed = true ∧ s.queue.items = [] := by
  obtain ⟨u, passed, queue, -, answers⟩ := step_looks looks stepped
  rw [← queue, ← answers]
  cases passed with
  | waits empty opened => simp [opened]
  | returnsNone empty closed => simp [empty, closed]
  | returns item rest content => simp [content]

theorem circular_queue_drops_oldest (positive : 1 ≤ maxsize) {acts : List (Act Client Item)}
    {s : Clients Client Item maxsize} (reached : Runs.run step init acts = some s) :
    (∃ moves, Runs.run DropOldestFifo.step .empty moves = some (view s)) ∧
    s.removed.map Prod.fst ++ s.queue.items = acceptedItems acts ∧
    s.answers.filterMap Prod.snd = fated .taken s.removed ∧
    (fated .taken s.removed).length + (fated .evicted s.removed).length +
      s.queue.items.length = (acceptedItems acts).length ∧
    (fated .taken s.removed ++ s.queue.items).Sublist (acceptedItems acts) ∧
    s.queue.items.length ≤ maxsize ∧
    (∀ a t, step s a = some t →
      (Overflows s a → ∃ oldest, s.queue.items.head? = some oldest ∧
        fated .evicted t.removed = fated .evicted s.removed ++ [oldest]) ∧
      (¬ Overflows s a → fated .evicted t.removed = fated .evicted s.removed)) ∧
    (∀ item t, step s (.put item) = some t → s.queue.closed = true → t = s) ∧
    (∀ a t c, step s a = some t → a = .get c ∨ a = .resume c →
      (t.answers = s.answers ++ [(c, none)] ↔
        s.queue.closed = true ∧ s.queue.items = [])) := by
  have split : s.removed.map Prod.fst ++ s.queue.items = acceptedItems acts := run_accepted reached
  refine ⟨?_, split, ?_, ?_, ?_, s.queue.queue.bounded, ?_, ?_, ?_⟩
  · exact Runs.refines view (fun _ _ _ => step_matched) reached
  · exact Runs.invariant_run (fun s => s.answers.filterMap Prod.snd = fated .taken s.removed)
      (fun _ _ _ => step_answers) rfl reached
  · rw [← split, fated_counts, List.length_append, List.length_map]
  · rw [← split]
    exact fated_ordered s.removed s.queue.items
  · intro a t stepped
    exact ⟨fun overflows => step_evicts overflows positive stepped,
      fun room => step_spares room stepped⟩
  · intro item t stepped closed
    cases step_seen stepped with
    | ignored _ _ same => exact same
    | accepts _ opened => simp [closed] at opened
    | nothing _ c looks => simp at looks
    | takes _ c looks => simp at looks
  · intro a t c stepped looks
    exact returns_none looks stepped

theorem circular_queue_drops_oldest_first : ∃ s : Clients Nat Nat 2,
    Runs.run step init [.put 5, .put 6, .put 7, .get 1, .close, .put 8] = some s ∧
      s.queue.items = [7] ∧ s.removed.map Prod.fst ++ s.queue.items = [5, 6, 7] := by
  obtain ⟨s, reached, content⟩ : ∃ s : Clients Nat Nat 2,
      Runs.run step init [.put 5, .put 6, .put 7, .get 1, .close, .put 8] = some s ∧
        s.queue.items = [7] := Runs.reaches (by decide)
  obtain ⟨-, split, -⟩ := circular_queue_drops_oldest (by decide : 1 ≤ 2) reached
  exact ⟨s, reached, content, split⟩

end FifoRefinement
