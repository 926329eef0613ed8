import MigrationTransport.ReuseAddr.Dialogue

/-!
`start_server` of `s1.py` and `s2.py` and `start_client` of `c1.py` and `c2.py`, all four at one
port. The listening sockets have `SO_REUSEADDR`: a socket may bind to the port, and may listen
on it, unless another is listening there. `s1.py` closes its listening socket as soon as it has a
client, and `s2.py` keeps its own.
-/
namespace PortReuse
open Dialogue (ClientScript ServerScript Setup Exact)

/-- `accepted` is before the thread runs, and `closing` is an exit that has not stopped the
    thread yet. -/
inductive Main where
  | starting
  | bound
  | listening
  | accepted
  | serving
  | closing
  | done
  deriving DecidableEq

inductive Peer where
  | idle
  | connected (s : ServerScript)
  | refused
  deriving DecidableEq

/-- `queue` are the connections that the kernel has made and the server has not accepted, and
    `conn` is the client of the one that it has accepted. -/
structure Host where
  main : ServerScript → Main
  queue : ServerScript → List ClientScript
  conn : ServerScript → Option ClientScript
  peer : ClientScript → Peer
  dialogue : ClientScript → Dialogue.System

/-- `start` is the start of the thread, with the `close` of `s1.py` before it, `finish` the end
    of `start_server`, and `interrupt` a `KeyboardInterrupt` or a call that raises. -/
inductive Act where
  | bind (s : ServerScript)
  | listen (s : ServerScript)
  | accept (s : ServerScript)
  | start (s : ServerScript)
  | finish (s : ServerScript)
  | interrupt (s : ServerScript)
  | connect (c : ClientScript)
  | talk (c : ClientScript) (a : Dialogue.Act)
  deriving DecidableEq

def Main.listens : Main → ServerScript → Bool
  | .listening, _ | .accepted, _ => true
  | .serving, .s2 | .closing, .s2 => true
  | .serving, .s1 | .closing, .s1 => false
  | .starting, _ | .bound, _ | .done, _ => false

def listener (h : Host) : Option ServerScript :=
  if (h.main .s1).listens .s1 then some .s1
  else if (h.main .s2).listens .s2 then some .s2
  else none

/-- A connection that was not accepted is reset when the listening socket is closed. -/
def Host.move (h : Host) (s : ServerScript) (main : Main) : Host :=
  { h with
    main := Function.update h.main s main
    queue := if main.listens s then h.queue else Function.update h.queue s [] }

def init : Host where
  main := fun _ => .starting
  queue := fun _ => []
  conn := fun _ => none
  peer := fun _ => .idle
  dialogue := Dialogue.start

def bind (h : Host) (s : ServerScript) : Option Host :=
  if h.main s = .starting then
    some (h.move s (if listener h = none then .bound else .done))
  else none

def listen (h : Host) (s : ServerScript) : Option Host :=
  if h.main s = .bound then
    some (h.move s (if listener h = none then .listening else .done))
  else none

def accept (h : Host) (s : ServerScript) : Option Host :=
  if h.main s = .listening then
    match h.queue s with
    | c :: rest =>
      some { h with
        main := Function.update h.main s .accepted
        queue := Function.update h.queue s rest
        conn := Function.update h.conn s (some c) }
    | [] => none
  else none

def finish (h : Host) (s : ServerScript) : Option Host :=
  if h.main s = .serving ∨ h.main s = .closing then
    (h.conn s).bind fun c =>
      if (h.dialogue c).server.running then none else some (h.move s .done)
  else none

def interrupt (h : Host) (s : ServerScript) : Option Host :=
  match h.main s with
  | .starting | .bound | .listening => some (h.move s .done)
  | .accepted | .serving => some (h.move s .closing)
  | .closing | .done => none

def connect (h : Host) (c : ClientScript) : Option Host :=
  if h.peer c = .idle then
    match listener h with
    | some s =>
      some { h with
        peer := Function.update h.peer c (.connected s)
        queue := Function.update h.queue s (h.queue s ++ [c]) }
    | none => some { h with peer := Function.update h.peer c .refused }
  else none

/-- The thread of a server takes steps only while it runs, and it is stopped by an exit. -/
def MayStep (h : Host) (s : ServerScript) (c : ClientScript) (a : Dialogue.Act) : Prop :=
  Dialogue.ofThread a = true →
    h.conn s = some c ∧ (h.main s = .serving ∨ h.main s = .closing ∧ a = .serverRaises)

instance (h : Host) (s : ServerScript) (c : ClientScript) (a : Dialogue.Act) :
    Decidable (MayStep h s c a) :=
  inferInstanceAs (Decidable (_ → _))

section Room
variable (room : Nat) (positive : 0 < room)

def talk (h : Host) (c : ClientScript) (a : Dialogue.Act) : Option Host :=
  match h.peer c with
  | .connected s =>
    if MayStep h s c a then
      (Dialogue.step ⟨c, s, room, positive⟩ (h.dialogue c) a).map fun dialogue =>
        { h with dialogue := Function.update h.dialogue c dialogue }
    else none
  | .idle | .refused => none

def step (h : Host) : Act → Option Host
  | .bind s => bind h s
  | .listen s => listen h s
  | .accept s => accept h s
  | .start s => if h.main s = .accepted then some (h.move s .serving) else none
  | .finish s => finish h s
  | .interrupt s => interrupt h s
  | .connect c => connect h c
  | .talk c a => talk room positive h c a

end Room

def talks (c : ClientScript) : Act → Option Dialogue.Act
  | .talk d a => if d = c then some a else none
  | _ => none

def Untouched (d : Dialogue.System) : Prop :=
  d.server = ReuseAddr.init ∧ d.stage = .listening ∧ d.toClient = [] ∧ d.client.shown = []

structure Inv (h : Host) : Prop where
  one : ∀ s s', (h.main s).listens s = true → (h.main s').listens s' = true → s = s'
  served : ∀ s c, h.conn s = some c → h.peer c = .connected s
  early : ∀ s, h.main s = .starting ∨ h.main s = .bound ∨ h.main s = .listening → h.conn s = none
  queued : ∀ s, ∀ c ∈ h.queue s, h.peer c = .connected s ∧ h.conn s ≠ some c
  closed : ∀ s, (h.main s).listens s = false → h.queue s = []
  nodup : ∀ s, (h.queue s).Nodup
  waiting : ∀ c, (∀ s, h.conn s ≠ some c) → Untouched (h.dialogue c)

variable {room : Nat} {positive : 0 < room} {h k : Host} {s r : ServerScript}
  {c d : ClientScript} {a : Act} {acts : List Act} {main : Main}

theorem listener_none (nobody : listener h = none) (s : ServerScript) :
    (h.main s).listens s = false := by
  unfold listener at nobody
  split at nobody
  · cases nobody
  · split at nobody
    · cases nobody
    · cases s with
      | s1 => exact Bool.eq_false_iff.mpr ‹_›
      | s2 => exact Bool.eq_false_iff.mpr ‹_›

theorem listener_some (found : listener h = some s) : (h.main s).listens s = true := by
  unfold listener at found
  split at found
  · cases found
    assumption
  · split at found
    · cases found
      assumption
    · cases found

theorem init_inv : Inv init where
  one := by
    intro s s' here
    cases here
  served := by
    intro s c here
    cases here
  early := fun _ _ => rfl
  queued := by
    intro s c member
    cases member
  closed := fun _ _ => rfl
  nodup := fun _ => List.nodup_nil
  waiting := fun _ _ => ⟨rfl, rfl, rfl, rfl⟩

theorem move_queue (h : Host) (s r : ServerScript) (main : Main) :
    (h.move s main).queue r = if main.listens s = false ∧ r = s then [] else h.queue r := by
  unfold Host.move
  dsimp only
  cases main.listens s with
  | true => simp
  | false =>
    rw [if_neg Bool.false_ne_true]
    by_cases same : r = s
    · subst same
      simp
    · simp [same]

theorem move_inv (inv : Inv h)
    (opens : main.listens s = true → (h.main s).listens s = true ∨ listener h = none)
    (early : main = .starting ∨ main = .bound ∨ main = .listening → h.conn s = none) :
    Inv (h.move s main) := by
  have others : ∀ r, r ≠ s → (h.move s main).main r = h.main r := by
    intro r other
    unfold Host.move
    exact Function.update_of_ne other _ _
  have here : (h.move s main).main s = main := by
    unfold Host.move
    exact Function.update_self _ _ _
  have alone : main.listens s = true → ∀ r, (h.main r).listens r = true → r = s := by
    intro now r listens
    rcases opens now with before | nobody
    · exact inv.one r s listens before
    · rw [listener_none nobody r] at listens
      cases listens
  have sub : ∀ r, ∀ c ∈ (h.move s main).queue r, c ∈ h.queue r := by
    intro r c member
    rw [move_queue] at member
    split at member
    · cases member
    · exact member
  refine ⟨?_, inv.served, ?_, fun r c member => inv.queued r c (sub r c member), ?_, ?_,
    inv.waiting⟩
  · intro r r' first second
    by_cases same : r = s
    · by_cases same' : r' = s
      · rw [same, same']
      · rw [others r' same'] at second
        rw [same, here] at first
        rw [same, alone first r' second]
    · rw [others r same] at first
      by_cases same' : r' = s
      · rw [same', here] at second
        rw [same', alone second r first]
      · rw [others r' same'] at second
        exact inv.one r r' first second
  · intro r phase
    by_cases same : r = s
    · subst same
      rw [here] at phase
      exact early phase
    · rw [others r same] at phase
      exact inv.early r phase
  · intro r shut
    rw [move_queue]
    by_cases same : r = s
    · subst same
      rw [here] at shut
      rw [if_pos ⟨shut, rfl⟩]
    · rw [others r same] at shut
      rw [if_neg (fun both => same both.2)]
      exact inv.closed r shut
  · intro r
    rw [move_queue]
    split
    · exact List.nodup_nil
    · exact inv.nodup r

theorem accept_inv (inv : Inv h) (stepped : accept h s = some k) : Inv k := by
  obtain ⟨here, stepped⟩ := Option.ite_none_right_eq_some.mp stepped
  split at stepped
  case h_2 => cases stepped
  case h_1 c rest waiting =>
    cases stepped
    have listens : (h.main s).listens s = true := by rw [here]; rfl
    have unserved := inv.early s (.inr (.inr here))
    have unique := inv.nodup s
    rw [waiting, List.nodup_cons] at unique
    have listensOld : ∀ r, (Function.update h.main s .accepted r).listens r = true →
        (h.main r).listens r = true := by
      intro r now
      by_cases same : r = s
      · rw [same]
        exact listens
      · rw [Function.update_of_ne same] at now
        exact now
    refine ⟨?_, ?_, ?_, ?_, ?_, ?_, ?_⟩
    · intro r r' first second
      exact inv.one r r' (listensOld r first) (listensOld r' second)
    · intro r d has
      by_cases same : r = s
      · subst same
        dsimp only at has
        rw [Function.update_self] at has
        cases has
        exact (inv.queued r c (by simp [waiting])).1
      · dsimp only at has
        rw [Function.update_of_ne same] at has
        exact inv.served r d has
    · intro r phase
      dsimp only at phase ⊢
      by_cases same : r = s
      · subst same
        rw [Function.update_self] at phase
        simp at phase
      · rw [Function.update_of_ne same] at phase ⊢
        exact inv.early r phase
    · intro r d member
      dsimp only at member ⊢
      by_cases same : r = s
      · subst same
        rw [Function.update_self] at member ⊢
        refine ⟨(inv.queued r d (by simp [waiting, member])).1, ?_⟩
        rintro ⟨⟩
        exact unique.1 member
      · rw [Function.update_of_ne same] at member ⊢
        exact inv.queued r d member
    · intro r shut
      dsimp only at shut ⊢
      by_cases same : r = s
      · subst same
        rw [Function.update_self] at shut
        cases shut
      · rw [Function.update_of_ne same] at shut ⊢
        exact inv.closed r shut
    · intro r
      dsimp only
      by_cases same : r = s
      · subst same
        rw [Function.update_self]
        exact unique.2
      · rw [Function.update_of_ne same]
        exact inv.nodup r
    · intro d none
      apply inv.waiting d
      intro r
      by_cases same : r = s
      · rw [same, unserved]
        simp
      · have kept := none r
        dsimp only at kept
        rw [Function.update_of_ne same] at kept
        exact kept

theorem connect_inv (inv : Inv h) (stepped : connect h c = some k) : Inv k := by
  obtain ⟨here, stepped⟩ := Option.ite_none_right_eq_some.mp stepped
  have fresh : ∀ s, h.conn s ≠ some c := by
    intro s has
    have known := inv.served s c has
    rw [here] at known
    cases known
  have known : ∀ {r d peer}, h.peer d = .connected r →
      Function.update h.peer c peer d = .connected r := by
    intro r d peer before
    rw [Function.update_of_ne ?_]
    · exact before
    · rintro rfl
      rw [here] at before
      cases before
  split at stepped
  case h_1 s found =>
    cases stepped
    have listens := listener_some found
    refine ⟨inv.one, fun r d has => known (inv.served r d has), inv.early, ?_, ?_, ?_,
      inv.waiting⟩
    · intro r d member
      dsimp only at member ⊢
      by_cases same : r = s
      · subst same
        rw [Function.update_self, List.mem_append, List.mem_singleton] at member
        rcases member with before | rfl
        · obtain ⟨before, unserved⟩ := inv.queued r d before
          exact ⟨known before, unserved⟩
        · exact ⟨Function.update_self _ _ _, fresh r⟩
      · rw [Function.update_of_ne same] at member
        obtain ⟨before, unserved⟩ := inv.queued r d member
        exact ⟨known before, unserved⟩
    · intro r shut
      dsimp only at shut ⊢
      rw [Function.update_of_ne ?_]
      · exact inv.closed r shut
      · rintro rfl
        rw [listens] at shut
        cases shut
    · intro r
      dsimp only
      by_cases same : r = s
      · subst same
        rw [Function.update_self]
        refine List.Nodup.append (inv.nodup r) (List.nodup_singleton c) ?_
        rw [List.disjoint_singleton]
        intro member
        have before := (inv.queued r c member).1
        rw [here] at before
        cases before
      · rw [Function.update_of_ne same]
        exact inv.nodup r
  case h_2 nobody =>
    cases stepped
    refine ⟨inv.one, fun r d has => known (inv.served r d has), inv.early, ?_, inv.closed,
      inv.nodup, inv.waiting⟩
    intro r d member
    obtain ⟨before, unserved⟩ := inv.queued r d member
    exact ⟨known before, unserved⟩

theorem untouched_step {setup : Setup} {p q : Dialogue.System} {a : Dialogue.Act}
    (untouched : Untouched p) (ours : Dialogue.ofThread a = false)
    (stepped : Dialogue.step setup p a = some q) : Untouched q := by
  obtain ⟨server, stage, toClient, shown⟩ := untouched
  have same : q.server = p.server := Dialogue.client_frame ours stepped
  refine ⟨same.trans server, ?_⟩
  cases a with
  | hear n | reply n | hearEmpty | serverRaises => cases ours
  | send n =>
    change Dialogue.send setup.room p n = some q at stepped
    unfold Dialogue.send at stepped
    split at stepped
    case h_1 =>
      obtain ⟨-, stepped⟩ := Option.ite_none_right_eq_some.mp stepped
      cases stepped
      exact ⟨stage, toClient, shown⟩
    all_goals cases stepped
  | receive n =>
    obtain ⟨⟨-, positive, -, fits⟩, -⟩ := Option.ite_none_right_eq_some.mp stepped
    rw [toClient, List.length_nil] at fits
    omega
  | receiveEmpty =>
    obtain ⟨⟨-, -, closed⟩, -⟩ := Option.ite_none_right_eq_some.mp stepped
    rw [server] at closed
    cases closed
  | wake | clientStops =>
    obtain ⟨-, stepped⟩ := Option.ite_none_right_eq_some.mp stepped
    cases stepped
    exact ⟨stage, toClient, shown⟩

theorem talk_effect {a : Dialogue.Act} (stepped : talk room positive h c a = some k) :
    ∃ s q, h.peer c = .connected s ∧ MayStep h s c a ∧
      Dialogue.step ⟨c, s, room, positive⟩ (h.dialogue c) a = some q ∧
      k = { h with dialogue := Function.update h.dialogue c q } := by
  unfold talk at stepped
  split at stepped
  case h_1 s connected =>
    obtain ⟨may, stepped⟩ := Option.ite_none_right_eq_some.mp stepped
    obtain ⟨q, moved, rfl⟩ := Option.map_eq_some_iff.mp stepped
    exact ⟨s, q, connected, may, moved, rfl⟩
  all_goals cases stepped

theorem talk_inv {a : Dialogue.Act} (inv : Inv h) (stepped : talk room positive h c a = some k) :
    Inv k := by
  obtain ⟨s, q, -, may, moved, rfl⟩ := talk_effect stepped
  refine ⟨inv.one, inv.served, inv.early, inv.queued, inv.closed, inv.nodup, ?_⟩
  intro d unserved
  dsimp only
  by_cases same : d = c
  · subst same
    rw [Function.update_self]
    cases ours : Dialogue.ofThread a with
    | true => exact absurd (may ours).1 (unserved s)
    | false => exact untouched_step (inv.waiting d unserved) ours moved
  · rw [Function.update_of_ne same]
    exact inv.waiting d unserved

theorem interrupt_inv (inv : Inv h) (stepped : interrupt h s = some k) : Inv k := by
  unfold interrupt at stepped
  split at stepped
  case h_1 | h_2 | h_3 =>
    cases stepped
    exact move_inv inv (by intro opens; cases opens) (by simp)
  case h_4 here | h_5 here =>
    cases stepped
    refine move_inv inv ?_ (by simp)
    intro opens
    cases s with
    | s1 => cases opens
    | s2 => exact .inl (by rw [here]; rfl)
  all_goals cases stepped

theorem step_inv (inv : Inv h) (stepped : step room positive h a = some k) : Inv k := by
  cases a with
  | bind s =>
    obtain ⟨here, stepped⟩ := Option.ite_none_right_eq_some.mp stepped
    cases stepped
    refine move_inv inv ?_ (fun _ => inv.early s (.inl here))
    intro opens
    split at opens <;> cases opens
  | listen s =>
    obtain ⟨here, stepped⟩ := Option.ite_none_right_eq_some.mp stepped
    cases stepped
    refine move_inv inv ?_ (fun _ => inv.early s (.inr (.inl here)))
    intro opens
    split at opens
    case isTrue nobody => exact .inr nobody
    case isFalse => cases opens
  | accept s => exact accept_inv inv stepped
  | start s =>
    obtain ⟨here, stepped⟩ := Option.ite_none_right_eq_some.mp stepped
    cases stepped
    exact move_inv inv (fun _ => .inl (by rw [here]; rfl)) (by simp)
  | finish s =>
    obtain ⟨-, stepped⟩ := Option.ite_none_right_eq_some.mp stepped
    obtain ⟨c, -, stepped⟩ := Option.bind_eq_some_iff.mp stepped
    obtain ⟨-, stepped⟩ := Option.ite_none_left_eq_some.mp stepped
    cases stepped
    exact move_inv inv (by intro opens; cases opens) (by simp)
  | interrupt s => exact interrupt_inv inv stepped
  | connect c => exact connect_inv inv stepped
  | talk c a => exact talk_inv inv stepped

theorem reached_inv (reached : Runs.run (step room positive) init acts = some h) : Inv h :=
  Runs.invariant_run Inv (fun _ _ _ inv stepped => step_inv inv stepped) init_inv reached

/-- Only a step of a connection changes it, and only `connect` makes one. -/
theorem frame (stepped : step room positive h a = some k) (silent : talks c a = none) :
    k.dialogue c = h.dialogue c ∧ (k.peer c = h.peer c ∨ h.peer c = .idle) := by
  cases a with
  | bind s | listen s | start s =>
    obtain ⟨-, stepped⟩ := Option.ite_none_right_eq_some.mp stepped
    cases stepped
    exact ⟨rfl, .inl rfl⟩
  | accept s =>
    obtain ⟨-, stepped⟩ := Option.ite_none_right_eq_some.mp stepped
    split at stepped
    case h_1 =>
      cases stepped
      exact ⟨rfl, .inl rfl⟩
    case h_2 => cases stepped
  | finish s =>
    obtain ⟨-, stepped⟩ := Option.ite_none_right_eq_some.mp stepped
    obtain ⟨d, -, stepped⟩ := Option.bind_eq_some_iff.mp stepped
    obtain ⟨-, stepped⟩ := Option.ite_none_left_eq_some.mp stepped
    cases stepped
    exact ⟨rfl, .inl rfl⟩
  | interrupt s =>
    change interrupt h s = some k at stepped
    unfold interrupt at stepped
    split at stepped
    case h_1 | h_2 | h_3 | h_4 | h_5 =>
      cases stepped
      exact ⟨rfl, .inl rfl⟩
    all_goals cases stepped
  | connect d =>
    obtain ⟨here, stepped⟩ := Option.ite_none_right_eq_some.mp stepped
    have peers : ∀ peer, Function.update h.peer d peer c = h.peer c ∨ h.peer c = .idle := by
      intro peer
      by_cases same : c = d
      · exact .inr (same ▸ here)
      · exact .inl (Function.update_of_ne same _ _)
    split at stepped
    case h_1 s found =>
      cases stepped
      exact ⟨rfl, peers _⟩
    case h_2 =>
      cases stepped
      exact ⟨rfl, peers _⟩
  | talk d a =>
    obtain ⟨s, q, -, -, -, rfl⟩ := talk_effect stepped
    have other : c ≠ d := by
      rintro rfl
      simp [talks] at silent
    exact ⟨Function.update_of_ne other _ _, .inl rfl⟩

/-- A connection has taken its own steps and no others, since it was made. -/
def Own (room : Nat) (positive : 0 < room) (c : ClientScript) (own : List Dialogue.Act)
    (h : Host) : Prop :=
  (∀ s, h.peer c = .connected s → Runs.run (Dialogue.step ⟨c, s, room, positive⟩)
    (Dialogue.start c) own = some (h.dialogue c)) ∧
  ((∀ s, h.peer c ≠ .connected s) → own = [] ∧ h.dialogue c = Dialogue.start c)

theorem step_own {own : List Dialogue.Act} (kept : Own room positive c own h)
    (stepped : step room positive h a = some k) :
    Own room positive c (own ++ (talks c a).toList) k := by
  obtain ⟨ran, early⟩ := kept
  cases shown : talks c a with
  | none =>
    obtain ⟨sameDialogue, samePeer⟩ := frame stepped shown
    rw [Option.toList_none, List.append_nil, Own, sameDialogue]
    rcases samePeer with same | idle
    · rw [same]
      exact ⟨ran, early⟩
    · obtain ⟨nothing, fresh⟩ := early (by simp [idle])
      refine ⟨fun s _ => ?_, fun _ => ⟨nothing, fresh⟩⟩
      rw [nothing, fresh]
      exact Runs.run_nil.mpr rfl
  | some own' =>
    cases a with
    | talk d a =>
      obtain ⟨same, label⟩ := Option.ite_none_right_eq_some.mp shown
      cases label
      subst same
      obtain ⟨s, q, connected, -, moved, rfl⟩ := talk_effect stepped
      refine ⟨?_, fun apart => absurd connected (apart s)⟩
      intro r here
      rw [connected] at here
      cases here
      dsimp only
      rw [Function.update_self]
      exact Runs.run_append.mpr ⟨h.dialogue d, ran s connected, by simp [moved]⟩
    | bind s | listen s | accept s | start s | finish s | interrupt s | connect d => cases shown

theorem reached_own (c : ClientScript)
    (reached : Runs.run (step room positive) init acts = some h) :
    Own room positive c (acts.filterMap (talks c)) h := by
  have fresh : Own room positive c [] init := by
    refine ⟨?_, fun _ => ⟨rfl, rfl⟩⟩
    intro s connected
    cases connected
  exact Runs.invariant_shown (talks c) (Own room positive c)
    (fun _ _ _ _ kept stepped => step_own kept stepped) fresh reached

/-- The port is handed on while the connections stay: there is one listening socket at most,
    each server has the client that it accepted, and each client that a server has accepted
    shows that server's echoes of its own messages, whatever the others do. -/
structure Reused (room : Nat) (positive : 0 < room) (acts : List Act) (h : Host) : Prop where
  one : ∀ s r, (h.main s).listens s = true → (h.main r).listens r = true → s = r
  freed : h.conn .s1 ≠ none → h.main .s1 ≠ .accepted → listener h ≠ some .s1
  served : ∀ s c, h.conn s = some c → h.peer c = .connected s
  echoes : ∀ s c, h.peer c = .connected s →
    Exact ⟨c, s, room, positive⟩ (acts.filterMap (talks c)) (h.dialogue c)
  answered : ∀ c, (h.dialogue c).client.shown ≠ [] → ∃ s, h.conn s = some c

theorem port_reused (room : Nat) (positive : 0 < room)
    (reached : Runs.run (step room positive) init acts = some h) :
    Reused room positive acts h := by
  have inv := reached_inv reached
  refine ⟨inv.one, ?_, inv.served, ?_, ?_⟩
  · intro has past found
    have listens := listener_some found
    have early := inv.early .s1
    cases phase : h.main .s1 with
    | accepted => exact past phase
    | starting => exact has (early (.inl phase))
    | bound => exact has (early (.inr (.inl phase)))
    | listening => exact has (early (.inr (.inr phase)))
    | serving | closing | done =>
      rw [phase] at listens
      cases listens
  · intro s c connected
    have ran := (reached_own c reached).1 s connected
    exact Dialogue.reached_exact ran
  · intro c shows
    by_contra unserved
    have untouched := inv.waiting c (fun s has => unserved ⟨s, has⟩)
    exact shows untouched.2.2.2

def turn (c : ClientScript) : List Act :=
  [.talk c (.send 12), .talk c (.hear 12), .talk c (.reply 21), .talk c (.receive 21)]

def takes (s : ServerScript) (c : ClientScript) : List Act :=
  [.bind s, .listen s, .connect c, .accept s, .start s]

/-- `s1.py` takes `c1.py`, then `s2.py` takes the port and `c2.py`, and both go on. -/
def handedOn : List Act :=
  takes .s1 .c1 ++ turn .c1 ++ takes .s2 .c2 ++ turn .c2 ++ [.talk .c1 .wake]

theorem roomy : 0 < 1024 := by decide

theorem port_reused_both : ∃ h, Runs.run (step 1024 roomy) init handedOn = some h ∧
    h.conn .s1 = some .c1 ∧ h.conn .s2 = some .c2 ∧
    (h.dialogue .c1).client.shown = ["S1 Echo: C1 message 1"] ∧
    (h.dialogue .c2).client.shown = ["S2 Echo: C2 message 1"] ∧
    Reused 1024 roomy handedOn h := by
  obtain ⟨h, reached, goal⟩ : ∃ h, Runs.run (step 1024 roomy) init handedOn = some h ∧
      h.conn .s1 = some .c1 ∧ h.conn .s2 = some .c2 ∧
      (h.dialogue .c1).client.shown = ["S1 Echo: C1 message 1"] ∧
      (h.dialogue .c2).client.shown = ["S2 Echo: C2 message 1"] :=
    Runs.reaches (by decide +kernel)
  obtain ⟨first, second, one, two⟩ := goal
  exact ⟨h, reached, first, second, one, two, port_reused 1024 roomy reached⟩

end PortReuse
