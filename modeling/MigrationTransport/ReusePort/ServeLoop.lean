import MigrationTransport.Lib.Descriptors

/-!
One `tcp-server` process, call by call: its start, and its loop, which accepts a connection,
reads once, answers, and closes it before the next. Each call works or fails, and a signal may
end the process anywhere (a `send` to a connection that is gone raises `SIGPIPE`).
-/
namespace ServeLoop
open Descriptors Table
variable {Conn : Type}

inductive Object (Conn : Type) where
  | inherited (n : Nat)
  | server
  | program
  | map
  | client (c : Conn)
  deriving DecidableEq

/-- The call that comes next, with what it is called on. `fd` is `server_fd`, `none` where
    `socket` has returned -1, which `main` does not test for. -/
inductive Pc (Conn : Type) where
  | socket
  | reuseAddr (fd : Option Nat)
  | reusePort (fd : Nat)
  | bind (fd : Nat)
  | listen (fd : Nat)
  | getProgram (fd : Nat)
  | attach (fd prog : Nat)
  | closeProgram (fd prog : Nat)
  | getMap (fd : Nat)
  | lookupElem (fd map : Nat)
  | updateElem (fd map : Nat)
  | closeMap (fd map : Nat)
  | accept (fd : Nat)
  | read (fd client : Nat) (c : Conn)
  | send (fd client : Nat) (c : Conn)
  | exited
  deriving DecidableEq

/-- `backlog` has the connections that wait in the listening socket, `arrived` all that came. -/
structure Process (Conn : Type) where
  table : Table (Object Conn)
  pc : Pc Conn
  arrived : List Conn
  backlog : List Conn
  accepted : List Conn
  answered : List Conn
  closed : List Conn
  deriving DecidableEq

def init (base : Table (Object Conn)) : Process Conn where
  table := base
  pc := .socket
  arrived := []
  backlog := []
  accepted := []
  answered := []
  closed := []

/-- `read` works if it returns at least one byte. -/
inductive Act (Conn : Type) where
  | works
  | fails
  | killed
  | arrives (c : Conn)
  deriving DecidableEq

/-- The end of the process closes what it has open, whether or not it called `close`. -/
def exits (p : Process Conn) : Process Conn :=
  { p with table := empty, pc := .exited, backlog := [] }

def closeClient (p : Process Conn) (fd client : Nat) (c : Conn) : Process Conn :=
  { p with table := p.table.close client, pc := .accept fd, closed := p.closed ++ [c] }

def listening : Pc Conn → Bool
  | .getProgram _ | .attach _ _ | .closeProgram _ _ | .getMap _ | .lookupElem _ _
  | .updateElem _ _ | .closeMap _ _ | .accept _ | .read _ _ _ | .send _ _ _ => true
  | _ => false

def closeProgram (p : Process Conn) (fd prog : Nat) : Process Conn :=
  { p with table := p.table.close prog, pc := .getMap fd }

/-- `close(map_fd)` at the end of `update_bpf_map_pinned`. -/
def closeMap (p : Process Conn) (fd map : Nat) : Process Conn :=
  { p with table := p.table.close map, pc := .accept fd }

def works (p : Process Conn) : Option (Process Conn) :=
  match p.pc with
  | .socket =>
    -- `if (server_fd == 0)`: descriptor 0 counts as a failure
    if p.table.lowest = 0 then some (exits p)
    else some { p with table := p.table.install .server, pc := .reuseAddr (some p.table.lowest) }
  | .reuseAddr (some fd) => some { p with pc := .reusePort fd }
  | .reuseAddr none => none
  | .reusePort fd => some { p with pc := .bind fd }
  | .bind fd => some { p with pc := .listen fd }
  | .listen fd => some { p with pc := .getProgram fd }
  | .getProgram fd =>
    some { p with table := p.table.install .program, pc := .attach fd p.table.lowest }
  | .attach fd prog => some { p with pc := .closeProgram fd prog }
  | .closeProgram fd prog => some (closeProgram p fd prog)
  | .getMap fd => some { p with table := p.table.install .map, pc := .lookupElem fd p.table.lowest }
  | .lookupElem fd map => some { p with pc := .updateElem fd map }
  | .updateElem fd map => some { p with pc := .closeMap fd map }
  | .closeMap fd map => some (closeMap p fd map)
  | .accept fd =>
    match p.backlog with
    | [] => none
    | c :: rest =>
      some { p with
        table := p.table.install (.client c)
        pc := .read fd p.table.lowest c
        backlog := rest
        accepted := p.accepted ++ [c] }
  | .read fd client c => some { p with pc := .send fd client c }
  | .send fd client c => some (closeClient { p with answered := p.answered ++ [c] } fd client c)
  | .exited => none

def fails (p : Process Conn) : Option (Process Conn) :=
  match p.pc with
  | .socket => some { p with pc := .reuseAddr none }
  | .reuseAddr _ | .reusePort _ | .bind _ | .listen _ | .getProgram _ | .attach _ _ =>
    some (exits p)
  -- a map that cannot be opened or updated is only warned about
  | .getMap fd => some { p with pc := .accept fd }
  | .lookupElem fd map => some { p with pc := .updateElem fd map }
  | .updateElem fd map => some { p with pc := .closeMap fd map }
  -- a `close` that reports an error has freed the number all the same
  | .closeProgram fd prog => some (closeProgram p fd prog)
  | .closeMap fd map => some (closeMap p fd map)
  | .accept _ => some p
  | .read fd client c | .send fd client c => some (closeClient p fd client c)
  | .exited => none

def step (p : Process Conn) : Act Conn → Option (Process Conn)
  | .works => works p
  | .fails => fails p
  | .killed =>
    match p.pc with
    | .exited => none
    | _ => some (exits p)
  | .arrives c =>
    if listening p.pc then
      some { p with backlog := p.backlog ++ [c], arrived := p.arrived ++ [c] }
    else none

def opened : Pc Conn → List (Nat × Object Conn)
  | .socket | .reuseAddr none | .exited => []
  | .reuseAddr (some fd) | .reusePort fd | .bind fd | .listen fd | .getProgram fd | .getMap fd
  | .accept fd => [(fd, .server)]
  | .attach fd prog | .closeProgram fd prog => [(prog, .program), (fd, .server)]
  | .lookupElem fd map | .updateElem fd map | .closeMap fd map => [(map, .map), (fd, .server)]
  | .read fd client c | .send fd client c => [(client, .client c), (fd, .server)]

def inHand : Pc Conn → List Conn
  | .read _ _ c | .send _ _ c => [c]
  | _ => []

structure Tidy (base : Table (Object Conn)) (p : Process Conn) : Prop where
  table : Extends base (opened p.pc) p.table
  arrived : p.arrived = p.accepted ++ p.backlog
  turn : p.accepted = p.closed ++ inHand p.pc
  answered : p.answered.Sublist p.closed

/-- What is left of a process: it had closed all that it accepted, but for one at most. -/
structure Ended (p : Process Conn) : Prop where
  exited : p.pc = .exited
  table : p.table = empty
  arrived : p.accepted <+: p.arrived
  turn : ∃ c, p.accepted = p.closed ++ c ∧ c.length ≤ 1
  answered : p.answered.Sublist p.closed

variable {base : Table (Object Conn)} {p q : Process Conn} {a : Act Conn} {acts : List (Act Conn)}

theorem init_tidy (base : Table (Object Conn)) : Tidy base (init base) :=
  ⟨extends_nil, rfl, rfl, List.Sublist.refl _⟩

theorem inHand_short (pc : Pc Conn) : (inHand pc).length ≤ 1 := by
  cases pc <;> simp [inHand]

theorem exits_ended (tidy : Tidy base p) : Ended (exits p) where
  exited := rfl
  table := rfl
  arrived := ⟨p.backlog, tidy.arrived.symm⟩
  turn := ⟨inHand p.pc, tidy.turn, inHand_short p.pc⟩
  answered := tidy.answered

/-- On to a call that has the same open, and no connection in hand. -/
theorem goes_on (tidy : Tidy base p) {pc : Pc Conn} (same : opened pc = opened p.pc)
    (hand : inHand pc = inHand p.pc) : Tidy base { p with pc := pc } := by
  obtain ⟨table, arrived, turn, answered⟩ := tidy
  rw [← same] at table
  rw [← hand] at turn
  exact ⟨table, arrived, turn, answered⟩

theorem opens (tidy : Tidy base p) {o : Object Conn} {pc : Pc Conn}
    (more : opened pc = (p.table.lowest, o) :: opened p.pc) (hand : inHand pc = inHand p.pc) :
    Tidy base { p with table := p.table.install o, pc := pc } := by
  obtain ⟨table, arrived, turn, answered⟩ := tidy
  have installed := table.install o
  rw [← more] at installed
  rw [← hand] at turn
  exact ⟨installed, arrived, turn, answered⟩

theorem closes (tidy : Tidy base p) {fd : Nat} {o : Object Conn} {pc : Pc Conn}
    (less : opened p.pc = (fd, o) :: opened pc) (hand : inHand pc = inHand p.pc) :
    Tidy base { p with table := p.table.close fd, pc := pc } := by
  obtain ⟨table, arrived, turn, answered⟩ := tidy
  rw [less] at table
  rw [← hand] at turn
  exact ⟨Extends.close [] table, arrived, turn, answered⟩

theorem closeClient_tidy (tidy : Tidy base p) {fd client : Nat} {c : Conn}
    (serving : opened p.pc = [(client, .client c), (fd, .server)]) (hand : inHand p.pc = [c])
    {answered : List Conn} (just : answered.Sublist (p.closed ++ [c])) :
    Tidy base (closeClient { p with answered := answered } fd client c) := by
  obtain ⟨table, arrived, turn, -⟩ := tidy
  rw [serving] at table
  rw [hand] at turn
  exact ⟨Extends.close [] table, arrived, by simp [closeClient, inHand, turn], just⟩

theorem works_tidy (tidy : Tidy base p) (worked : works p = some q) : Tidy base q ∨ Ended q := by
  rw [works] at worked
  split at worked
  case h_1 pc =>
    split at worked
    case isTrue =>
      cases worked
      exact .inr (exits_ended tidy)
    case isFalse =>
      cases worked
      exact .inl (opens tidy (by simp [opened, pc]) (by simp [inHand, pc]))
  case h_7 fd pc | h_10 fd pc =>
    cases worked
    exact .inl (opens tidy (by simp [opened, pc]) (by simp [inHand, pc]))
  case h_9 fd prog pc =>
    cases worked
    exact .inl (closes tidy (by simp [opened, pc]; rfl) (by simp [inHand, pc]))
  case h_13 fd map pc =>
    cases worked
    exact .inl (closes tidy (by simp [opened, pc]; rfl) (by simp [inHand, pc]))
  case h_14 fd pc =>
    split at worked
    case h_1 => cases worked
    case h_2 c rest waiting =>
      cases worked
      obtain ⟨table, arrived, turn, answered⟩ := tidy
      have installed := table.install (.client c)
      rw [pc] at installed turn
      refine .inl ⟨installed, ?_, ?_, answered⟩
      · simp [arrived, waiting]
      · simpa [inHand] using turn
  case h_16 fd client c pc =>
    cases worked
    left
    apply closeClient_tidy tidy
    · simp [opened, pc]
    · simp [inHand, pc]
    · exact tidy.answered.append (List.Sublist.refl _)
  case h_2 pc | h_4 pc | h_5 pc | h_6 pc | h_8 pc | h_11 pc | h_12 pc | h_15 pc =>
    cases worked
    exact .inl (goes_on tidy (by simp [opened, pc]) (by simp [inHand, pc]))
  all_goals cases worked

theorem fails_tidy (tidy : Tidy base p) (failed : fails p = some q) : Tidy base q ∨ Ended q := by
  rw [fails] at failed
  split at failed
  case h_2 | h_3 | h_4 | h_5 | h_6 | h_7 =>
    cases failed
    exact .inr (exits_ended tidy)
  case h_1 pc | h_8 pc | h_9 pc | h_10 pc =>
    cases failed
    exact .inl (goes_on tidy (by simp [opened, pc]) (by simp [inHand, pc]))
  case h_11 pc | h_12 pc =>
    cases failed
    exact .inl (closes tidy (by simp [opened, pc]; rfl) (by simp [inHand, pc]))
  case h_13 =>
    cases failed
    exact .inl tidy
  case h_14 pc | h_15 pc =>
    cases failed
    left
    apply closeClient_tidy tidy
    · simp [opened, pc]
    · simp [inHand, pc]
    · exact tidy.answered.trans (List.sublist_append_left _ _)
  all_goals cases failed

theorem ended_stays (ended : Ended p) : step p a = none := by
  cases a <;> simp [step, works, fails, ended.exited, listening]

theorem step_tidy (tidy : Tidy base p) (stepped : step p a = some q) :
    Tidy base q ∨ Ended q := by
  cases a with
  | works => exact works_tidy tidy stepped
  | fails => exact fails_tidy tidy stepped
  | killed =>
    simp only [step] at stepped
    split at stepped
    case h_1 => cases stepped
    case h_2 =>
      cases stepped
      exact .inr (exits_ended tidy)
  | arrives c =>
    obtain ⟨-, same⟩ := Option.ite_none_right_eq_some.mp stepped
    cases same
    obtain ⟨table, arrived, turn, answered⟩ := tidy
    exact .inl ⟨table, by simp [arrived], turn, answered⟩

end ServeLoop
