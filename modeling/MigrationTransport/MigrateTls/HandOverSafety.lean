import MigrationTransport.Lib.Ranking
import MigrationTransport.MigrateTls.HandOver

/-!
What the TLS program has open where it stands, whatever it inherited, and what of its
connections gets to the script and to QEMU: nothing of a connection whose handshake failed,
and nothing but the one whose handshake was completed.
-/
namespace HandOver
open Descriptors

variable {p : Program} {base : Table Object} {t u : Tls} {s q : System} {a : TlsAct}

def Tls.current (t : Tls) : Object := .connection (t.connections - 1)

def sdOpen (o : Object) : Option Nat → List (Nat × Object)
  | none => []
  | some sd => [(sd, o)]

def prepareOpen (o : Object) (sd : Nat) : PrepareAt → List (Nat × Object)
  | .socket | .closeFile => [(sd, o)]
  | .connect sockFd | .sendFd sockFd | .recv sockFd | .closeSock sockFd =>
    [(sockFd, .sockFd), (sd, o)]

def Undecided (t : Tls) : Prop := t.completed = none ∧ t.shut = []

def Completed (t : Tls) : Prop := t.completed = some t.current ∧ t.shut = []

def TidyAt (p : Program) (base : Table Object) (t : Tls) : TlsPc → Prop
  | .socket | .accept => Undecided t ∧ Extends base [] t.table
  | .connect sd | .handshake sd => Undecided t ∧ Extends base (sdOpen t.current sd) t.table
  | .prepare sd at_ => Completed t ∧ Extends base (prepareOpen t.current sd at_) t.table
  | .shutdown sd => p = .client ∧
      (Undecided t ∧ Extends base (sdOpen t.current sd) t.table ∨
        Completed t ∧ Extends base [] t.table ∧ lookupAt base sd = none)
  | .close sd =>
    match p with
    | .server => Undecided t ∧ Extends base (sdOpen t.current sd) t.table
    | .client => t.completed = none ∧ Extends base (sdOpen t.current sd) t.table ∨
        Completed t ∧ Extends base [] t.table
  | .closeListener => Completed t ∧ Extends base [] t.table
  | .exited => (t.completed = none ∨ Completed t) ∧ t.table = .empty

def Tidy (p : Program) (base : Table Object) (t : Tls) : Prop := TidyAt p base t t.pc

theorem opens_extends (held : Extends base [] t.table) :
    Extends base (sdOpen t.opens.current (some t.table.lowest)) t.opens.table :=
  held.install (.connection t.connections)

theorem close_extends {o : Object} {sd : Option Nat} {table : Table Object}
    (held : Extends base (sdOpen o sd) table) : Extends base [] (closeAt table sd) := by
  cases sd with
  | none => exact held
  | some sd => exact Extends.close [] held

theorem lookupAt_unchanged {table : Table Object} (held : Extends base [] table)
    (sd : Option Nat) : lookupAt table sd = lookupAt base sd := by
  cases sd with
  | none => rfl
  | some sd => exact held.unchanged sd

theorem main_tidy {pc : TlsPc} (at_ : t.pc = pc) (tidy : TidyAt p base t pc)
    (stepped : mainStep p t pc a = some u) : Tidy p base u := by
  unfold mainStep at stepped
  split at stepped
  · cases stepped
    exact ⟨tidy.1, opens_extends tidy.2⟩
  · cases stepped
    exact tidy
  · cases stepped
    exact tidy
  · cases stepped
    exact ⟨.inl tidy.1.1, rfl⟩
  · cases stepped
    exact ⟨tidy.1, opens_extends tidy.2⟩
  · cases stepped
    exact tidy
  · cases stepped
    rw [Tidy, at_]
    exact tidy
  · rename_i sd
    obtain ⟨o, found, rfl⟩ := Option.map_eq_some_iff.mp stepped
    obtain ⟨⟨-, unshut⟩, held⟩ := tidy
    have same : o = t.current := by
      have here := held.lookup (List.mem_singleton.mpr rfl)
      rw [found] at here
      exact Option.some.inj here
    subst same
    exact ⟨⟨rfl, unshut⟩, held⟩
  · cases p with
    | server =>
      cases stepped
      exact tidy
    | client =>
      cases stepped
      exact ⟨rfl, .inl tidy⟩
  · obtain ⟨rfl, ⟨⟨unfinished, -⟩, held⟩ | ⟨⟨finished, unshut⟩, held, vacant⟩⟩ := tidy
    · cases stepped
      exact .inl ⟨unfinished, held⟩
    · cases stepped
      have absent := (lookupAt_unchanged held _).trans vacant
      refine .inr ⟨⟨finished, ?_⟩, held⟩
      simp [unshut, absent]
  · cases p with
    | server =>
      cases stepped
      exact ⟨tidy.1, close_extends tidy.2⟩
    | client =>
      cases stepped
      exact ⟨tidy.imp And.left And.left, rfl⟩
  · cases stepped
    exact ⟨.inr tidy.1, rfl⟩
  · cases stepped

theorem prepare_tidy {sd : Nat} {at_ : PrepareAt} (tidy : TidyAt p base s.tls (.prepare sd at_))
    (stepped : prepareStep p s sd at_ a = some q) : Tidy p base q.tls := by
  obtain ⟨completed, held⟩ := tidy
  unfold prepareStep at stepped
  split at stepped
  · cases stepped
    exact ⟨completed, held.install .sockFd⟩
  · cases stepped
    exact ⟨.inr completed, rfl⟩
  · obtain ⟨-, stepped⟩ := Option.ite_none_right_eq_some.mp stepped
    cases stepped
    exact ⟨completed, held⟩
  · cases stepped
    exact ⟨.inr completed, rfl⟩
  · cases stepped
    exact ⟨.inr completed, rfl⟩
  · obtain ⟨-, stepped⟩ := Option.ite_none_right_eq_some.mp stepped
    obtain ⟨o, -, rfl⟩ := Option.map_eq_some_iff.mp stepped
    exact ⟨completed, held⟩
  · obtain ⟨-, stepped⟩ := Option.ite_none_right_eq_some.mp stepped
    cases stepped
    exact ⟨completed, held⟩
  · cases stepped
    exact ⟨completed, held⟩
  · cases stepped
    exact ⟨completed, Extends.close [] held⟩
  · cases stepped
    have back := Extends.close [] held
    have vacant : base.lookup sd = none := held.free sd (by simp [prepareOpen])
    cases p with
    | server => exact ⟨completed, back⟩
    | client => exact ⟨rfl, .inr ⟨completed, back, vacant⟩⟩
  · cases stepped

theorem tls_tidy (tidy : Tidy p base s.tls) (stepped : tlsStep p s a = some q) :
    Tidy p base q.tls := by
  unfold tlsStep at stepped
  split at stepped
  · rename_i sd at_ here
    rw [Tidy, here] at tidy
    exact prepare_tidy tidy stepped
  · obtain ⟨t, moved, rfl⟩ := Option.map_eq_some_iff.mp stepped
    exact main_tidy rfl tidy moved

/-- What a step of the TLS program leaves as it is, and what it may add. -/
structure TlsFrame (s q : System) : Prop where
  script : q.script = s.script
  toQemu : q.toQemu = s.toQemu
  qemu : q.qemu = s.qemu
  completed : ∀ o, s.tls.completed = some o → q.tls.completed = some o
  message : q.message = s.message ∨
    ∃ o, q.message = s.message ++ [o] ∧ q.tls.completed = some o

theorem main_completed {pc : TlsPc} {o : Object} (at_ : t.pc = pc) (tidy : TidyAt p base t pc)
    (stepped : mainStep p t pc a = some u) (finished : t.completed = some o) :
    u.completed = some o := by
  unfold mainStep at stepped
  split at stepped
  case h_8 =>
    obtain ⟨⟨unfinished, -⟩, -⟩ := tidy
    rw [unfinished] at finished
    cases finished
  case h_9 | h_11 =>
    cases p with
    | server =>
      cases stepped
      exact finished
    | client =>
      cases stepped
      exact finished
  all_goals cases stepped
  all_goals exact finished

theorem prepare_frame {sd : Nat} {at_ : PrepareAt} (tidy : TidyAt p base s.tls (.prepare sd at_))
    (stepped : prepareStep p s sd at_ a = some q) : TlsFrame s q := by
  obtain ⟨⟨finished, -⟩, held⟩ := tidy
  unfold prepareStep at stepped
  split at stepped
  case h_6 sockFd =>
    obtain ⟨-, stepped⟩ := Option.ite_none_right_eq_some.mp stepped
    obtain ⟨o, found, rfl⟩ := Option.map_eq_some_iff.mp stepped
    have same : o = s.tls.current := by
      have here : s.tls.table.lookup sd = some s.tls.current :=
        held.lookup (by simp [prepareOpen])
      rw [found] at here
      exact Option.some.inj here
    subst same
    exact ⟨rfl, rfl, rfl, fun _ done => done, .inr ⟨_, rfl, finished⟩⟩
  case h_3 | h_7 =>
    obtain ⟨-, stepped⟩ := Option.ite_none_right_eq_some.mp stepped
    cases stepped
    exact ⟨rfl, rfl, rfl, fun _ done => done, .inl rfl⟩
  all_goals cases stepped
  all_goals exact ⟨rfl, rfl, rfl, fun _ done => done, .inl rfl⟩

theorem tls_frame (tidy : Tidy p base s.tls) (stepped : tlsStep p s a = some q) :
    TlsFrame s q := by
  unfold tlsStep at stepped
  split at stepped
  · rename_i sd at_ here
    rw [Tidy, here] at tidy
    exact prepare_frame tidy stepped
  · obtain ⟨t, moved, rfl⟩ := Option.map_eq_some_iff.mp stepped
    exact ⟨rfl, rfl, rfl, fun o => main_completed rfl tidy moved, .inl rfl⟩

theorem tidy_genuine {o : Object} (tidy : Tidy p base t) (finished : t.completed = some o) :
    o = t.current ∧ o ∉ t.shut := by
  have settled : t.completed = none ∨ Completed t := by
    unfold Tidy TidyAt at tidy
    split at tidy
    case h_6 =>
      obtain ⟨-, ⟨⟨unfinished, -⟩, -⟩ | ⟨done, -⟩⟩ := tidy
      · exact .inl unfinished
      · exact .inr done
    case h_7 =>
      cases p with
      | server => exact .inl tidy.1.1
      | client => exact tidy.imp And.left And.left
    case h_5 | h_8 => exact .inr tidy.1
    case h_9 => exact tidy.1
    all_goals exact .inl tidy.1.1
  rcases settled with unfinished | ⟨done, unshut⟩
  · rw [unfinished] at finished
    cases finished
  · rw [done] at finished
    cases finished
    simp [unshut]

def Rightful (s : System) (o : Object) : Prop :=
  s.tls.completed = some o ∧ s.script.fd ≠ none ∨ o = .own ∧ s.script.fd = none

def Received (s : System) : Prop :=
  ∀ fd ∈ s.script.fd, ∃ k, s.tls.completed = some (.connection k) ∧
    s.script.table.lookup fd = some (.connection k)

def Unsent (s : System) : Prop := s.toQemu = [] ∧ ∀ o, s.qemu.Holds o → ∃ k, o = .inherited k

def ScriptAt (s : System) : ScriptPc → Prop
  | .accept sock => Unsent s ∧ s.script.fd = none ∧ s.script.table.lookup sock = some .sock
  | .recvmsg sock conn => Unsent s ∧ s.script.fd = none ∧
      s.script.table.lookup sock = some .sock ∧ s.script.table.lookup conn = some .conn
  | .closeConn sock conn => Unsent s ∧ Received s ∧
      s.script.table.lookup sock = some .sock ∧ s.script.table.lookup conn = some .conn
  | .closeSock sock => Unsent s ∧ Received s ∧ s.script.table.lookup sock = some .sock
  | .unlink | .main .connect => Unsent s ∧ Received s
  | .main .queryStatus | .main .setParameters => Unsent s ∧ Received s ∧
      ∀ fd ∈ s.script.qemp, s.script.table.lookup fd = some .monitor
  | .main .makeOwn => Unsent s ∧ s.script.fd = none
  | .main (.sendFdScm socket) => Unsent s ∧ Received s ∧
      (s.script.fd = some socket ∨
        s.script.fd = none ∧ ∀ o, s.script.table.lookup socket = some o → o = .own)
  | .main .getfd | .main .migrate | .main .disconnect | .exited => True

structure Proper (s : System) : Prop where
  message : ∀ o ∈ s.message, s.tls.completed = some o
  genuine : ∀ o, s.tls.completed = some o → ∃ k, o = .connection k
  holds : ∀ k, s.script.table.Holds (.connection k) → s.tls.completed = some (.connection k)
  stage : ScriptAt s s.script.pc
  toQemu : ∀ o ∈ s.toQemu, Rightful s o
  qemu : ∀ o, s.qemu.Holds o → (∃ k, o = .inherited k) ∨ Rightful s o

theorem script_at_kept {pc : ScriptPc} (script : q.script = s.script) (unsent : Unsent s → Unsent q)
    (completed : ∀ o, s.tls.completed = some o → q.tls.completed = some o)
    (stage : ScriptAt s pc) : ScriptAt q pc := by
  have received : Received s → Received q := by
    intro received fd member
    rw [script] at member
    obtain ⟨k, finished, found⟩ := received fd member
    exact ⟨k, completed _ finished, script ▸ found⟩
  unfold ScriptAt at stage ⊢
  simp only [script] at stage ⊢
  split at stage
  case h_3 | h_4 | h_7 | h_8 | h_10 => exact ⟨unsent stage.1, received stage.2.1, stage.2.2⟩
  case h_5 | h_6 => exact ⟨unsent stage.1, received stage.2⟩
  case h_11 | h_12 | h_13 | h_14 => trivial
  all_goals exact ⟨unsent stage.1, stage.2⟩

theorem tls_proper (proper : Proper s) (frame : TlsFrame s q)
    (genuine : ∀ o, q.tls.completed = some o → ∃ k, o = .connection k) : Proper q := by
  obtain ⟨script, toQemu, qemu, completed, message⟩ := frame
  have rightful : ∀ o, Rightful s o → Rightful q o := by
    rintro o (⟨finished, got⟩ | ⟨own, none⟩)
    · exact .inl ⟨completed o finished, script ▸ got⟩
    · exact .inr ⟨own, script ▸ none⟩
  refine ⟨?_, genuine, ?_, ?_, ?_, ?_⟩
  · rcases message with same | ⟨o, more, finished⟩
    · rw [same]
      exact fun o member => completed o (proper.message o member)
    · rw [more]
      intro r member
      rcases List.mem_append.mp member with early | late
      · exact completed r (proper.message r early)
      · rw [List.mem_singleton.mp late]
        exact finished
  · intro k held
    rw [script] at held
    exact completed _ (proper.holds k held)
  · rw [script]
    refine script_at_kept script ?_ completed proper.stage
    rw [Unsent, Unsent, toQemu, qemu]
    exact id
  · rw [toQemu]
    exact fun o member => rightful o (proper.toQemu o member)
  · rw [qemu]
    exact fun o held => (proper.qemu o held).imp_right (rightful o)

variable {b : ScriptAct}

theorem holds_connection {table : Table Object} {o : Object} {k : Nat} (other : o ≠ .connection k) :
    (table.install o).Holds (.connection k) → table.Holds (.connection k) := by
  intro held
  rcases holds_install.mp held with same | held
  · exact absurd same.symm other
  · exact held

/-- What a step of the script needs to keep that gives nothing to QEMU. -/
theorem script_proper (proper : Proper s) (tls : q.tls = s.tls)
    (message : ∀ o ∈ q.message, o ∈ s.message)
    (holds : ∀ k, q.script.table.Holds (.connection k) → s.tls.completed = some (.connection k))
    (given : q.toQemu = s.toQemu ∧ q.qemu = s.qemu) (fd : q.script.fd = s.script.fd ∨ Unsent s)
    (stage : ScriptAt q q.script.pc) : Proper q := by
  obtain ⟨sent, genuine, -, -, toQemu, qemu⟩ := proper
  obtain ⟨sameTo, sameQemu⟩ := given
  have rightful : ∀ o, q.script.fd = s.script.fd → Rightful s o → Rightful q o := by
    intro o same right
    rw [Rightful, tls, same]
    exact right
  refine ⟨?_, ?_, ?_, stage, ?_, ?_⟩
  · rw [tls]
    exact fun o member => sent o (message o member)
  · rw [tls]
    exact genuine
  · rw [tls]
    exact holds
  · rw [sameTo]
    intro o member
    rcases fd with same | ⟨empty, -⟩
    · exact rightful o same (toQemu o member)
    · simp [empty] at member
  · rw [sameQemu]
    intro o held
    rcases fd with same | ⟨-, only⟩
    · exact (qemu o held).imp_right (rightful o same)
    · exact .inl (only o held)

theorem lookup_install_lowest {table : Table Object} (o : Object) :
    (table.install o).lookup table.lowest = some o := by
  rw [lookup_install, if_pos rfl]

theorem not_holds_exit {k : Nat} {rest : Prop} :
    (Table.empty : Table Object).Holds (.connection k) →
    rest :=
  fun held => absurd held not_holds_empty

theorem received_kept (received : Received s) (tls : q.tls = s.tls)
    (fd : q.script.fd = s.script.fd) (kept : ∀ n k, s.script.table.lookup n = some (.connection k) →
      q.script.table.lookup n = some (.connection k)) : Received q := by
  intro n member
  rw [fd] at member
  obtain ⟨k, finished, found⟩ := received n member
  exact ⟨k, tls ▸ finished, kept n k found⟩

theorem receive_proper {pc : ScriptPc} (at_ : s.script.pc = pc) (proper : Proper s)
    (stepped : receiveFd s pc b = some q) : Proper q := by
  have holds := proper.holds
  have stage := proper.stage
  rw [at_] at stage
  unfold receiveFd at stepped
  split at stepped
  · obtain ⟨queued, stepped⟩ := Option.ite_none_right_eq_some.mp stepped
    cases stepped
    obtain ⟨unsent, none, sock⟩ := stage
    refine script_proper proper rfl (fun _ member => member) ?_ ⟨rfl, rfl⟩ (.inl rfl) ?_
    · exact fun k held => holds k (holds_connection (by simp) held)
    · exact ⟨unsent, none, lookup_install_kept sock, lookup_install_lowest _⟩
  · cases stepped
    exact script_proper proper rfl (by simp [System.hangUp]) (fun k => not_holds_exit) ⟨rfl, rfl⟩
      (.inl rfl) trivial
  · split at stepped
    · cases stepped
    · rename_i o later waiting
      cases stepped
      obtain ⟨unsent, none, sock, conn⟩ := stage
      have sent := proper.message o (by simp [waiting])
      obtain ⟨k, rfl⟩ := proper.genuine o sent
      refine script_proper proper rfl ?_ ?_ ⟨rfl, rfl⟩ (.inr unsent) ?_
      · intro o member
        rw [waiting]
        exact List.mem_cons_of_mem _ member
      · intro n held
        rcases holds_install.mp held with same | held
        · rw [same]
          exact sent
        · exact holds n held
      · refine ⟨unsent, ?_, lookup_install_kept sock, lookup_install_kept conn⟩
        intro fd member
        cases member
        exact ⟨k, sent, lookup_install_lowest _⟩
  · obtain ⟨-, stepped⟩ := Option.ite_none_right_eq_some.mp stepped
    cases stepped
    obtain ⟨unsent, none, sock, conn⟩ := stage
    refine script_proper proper rfl (fun _ member => member) holds ⟨rfl, rfl⟩ (.inl rfl)
      ⟨unsent, ?_, sock, conn⟩
    intro fd member
    rw [none] at member
    cases member
  · cases stepped
    obtain ⟨unsent, none, sock, conn⟩ := stage
    refine script_proper proper rfl (fun _ member => member) holds ⟨rfl, rfl⟩ (.inl rfl)
      ⟨unsent, ?_, sock, conn⟩
    intro fd member
    rw [none] at member
    cases member
  · cases stepped
    obtain ⟨unsent, fd, sock, conn⟩ := stage
    refine script_proper proper rfl (by simp [System.hangUp])
      (fun k held => holds k (holds_close held)) ⟨rfl, rfl⟩ (.inl rfl)
      ⟨unsent, ?_, lookup_close_kept sock conn (by simp)⟩
    exact received_kept fd rfl rfl fun n k found => lookup_close_kept found conn (by simp)
  · cases stepped
    obtain ⟨unsent, fd, sock⟩ := stage
    refine script_proper proper rfl (fun _ member => member)
      (fun k held => holds k (holds_close held)) ⟨rfl, rfl⟩ (.inl rfl) ⟨unsent, ?_⟩
    exact received_kept fd rfl rfl fun n k found => lookup_close_kept found sock (by simp)
  · cases stepped
    exact script_proper proper rfl (fun _ member => member) holds ⟨rfl, rfl⟩ (.inl rfl) stage
  · cases stepped
    exact script_proper proper rfl (fun _ member => member) (fun k => not_holds_exit) ⟨rfl, rfl⟩
      (.inl rfl) trivial
  · cases stepped

theorem disconnect_kept {fd k : Nat} (monitor : ∀ n ∈ s.script.qemp,
      s.script.table.lookup n = some .monitor)
    (found : s.script.table.lookup fd = some (.connection k)) :
    s.script.disconnect.table.lookup fd = some (.connection k) := by
  simp only [Script.disconnect]
  cases there : s.script.qemp with
  | none => exact found
  | some n => exact lookup_close_kept found (monitor n there) (by simp)

theorem disconnect_holds {o : Object} (held : s.script.disconnect.table.Holds o) :
    s.script.table.Holds o := by
  simp only [Script.disconnect] at held
  cases there : s.script.qemp with
  | none =>
    rw [there] at held
    exact held
  | some n =>
    rw [there] at held
    exact holds_close held

theorem main_proper {at_ : MainAt} (here : s.script.pc = .main at_) (proper : Proper s)
    (stepped : mainOf s at_ b = some q) : Proper q := by
  have holds := proper.holds
  have stage := proper.stage
  rw [here] at stage
  have all : ∀ o ∈ s.message, o ∈ s.message := fun _ member => member
  unfold mainOf at stepped
  split at stepped
  · cases stepped
    obtain ⟨unsent, fd⟩ := stage
    refine script_proper proper rfl all ?_ ⟨rfl, rfl⟩ (.inl rfl) ⟨unsent, ?_, ?_⟩
    · exact fun k held => holds k (holds_connection (by simp) held)
    · exact received_kept fd rfl rfl fun n k found => lookup_install_kept found
    · intro n member
      cases member
      exact lookup_install_lowest _
  · obtain ⟨-, stepped⟩ := Option.ite_none_right_eq_some.mp stepped
    cases stepped
    exact script_proper proper rfl all holds ⟨rfl, rfl⟩ (.inl rfl) stage
  · cases stepped
    obtain ⟨unsent, fd, monitor⟩ := stage
    refine script_proper proper rfl all (fun k held => holds k (disconnect_holds held)) ⟨rfl, rfl⟩
      (.inl rfl) ⟨unsent, ?_, ?_⟩
    · exact received_kept fd rfl rfl fun n k found => disconnect_kept monitor found
    · intro n member
      cases member
  · obtain ⟨-, stepped⟩ := Option.ite_none_right_eq_some.mp stepped
    obtain ⟨unsent, fd, -⟩ := stage
    split at stepped
    · rename_i got
      cases stepped
      exact script_proper proper rfl all holds ⟨rfl, rfl⟩ (.inl rfl) ⟨unsent, fd, .inl got⟩
    · rename_i none
      cases stepped
      exact script_proper proper rfl all holds ⟨rfl, rfl⟩ (.inl rfl) ⟨unsent, none⟩
  · rename_i collected
    cases stepped
    obtain ⟨unsent, none⟩ := stage
    refine script_proper proper rfl all ?_ ⟨rfl, rfl⟩ (.inl rfl) ⟨unsent, ?_, .inr ⟨none, ?_⟩⟩
    · intro k held
      apply holds k
      split at held
      · exact holds_connection (by simp) (holds_close held)
      · exact holds_connection (by simp) held
    · intro n member
      rw [Option.mem_def, none] at member
      cases member
    · intro o found
      split at found
      · rw [lookup_close, if_pos rfl] at found
        cases found
      · rw [lookup_install_lowest] at found
        exact (Option.some.inj found).symm
  · obtain ⟨-, stepped⟩ := Option.ite_none_right_eq_some.mp stepped
    obtain ⟨o, found, rfl⟩ := Option.map_eq_some_iff.mp stepped
    obtain ⟨-, fd, number⟩ := stage
    refine ⟨proper.message, proper.genuine, holds, trivial, ?_, proper.qemu⟩
    intro r member
    rcases List.mem_append.mp member with early | late
    · exact proper.toQemu r early
    · rw [List.mem_singleton.mp late]
      rcases number with got | ⟨none, only⟩
      · obtain ⟨k, finished, there⟩ := fd _ got
        rw [found] at there
        cases there
        exact .inl ⟨finished, by simp [got]⟩
      · exact .inr ⟨only o found, none⟩
  · obtain ⟨-, stepped⟩ := Option.ite_none_right_eq_some.mp stepped
    cases stepped
    exact script_proper proper rfl all holds ⟨rfl, rfl⟩ (.inl rfl) trivial
  · cases stepped
    exact script_proper proper rfl all (fun k held => holds k (disconnect_holds held)) ⟨rfl, rfl⟩
      (.inl rfl) trivial
  · obtain ⟨-, stepped⟩ := Option.ite_none_right_eq_some.mp stepped
    cases stepped
    exact script_proper proper rfl all holds ⟨rfl, rfl⟩ (.inl rfl) trivial
  · cases stepped
    exact script_proper proper rfl all (fun k held => holds k (disconnect_holds held)) ⟨rfl, rfl⟩
      (.inl rfl) trivial
  case h_11 | h_12 | h_13 | h_14 | h_15 =>
    cases stepped
    exact script_proper proper rfl all (fun k => not_holds_exit) ⟨rfl, rfl⟩ (.inl rfl) trivial
  · cases stepped

theorem script_step_proper (proper : Proper s) (stepped : scriptStep s b = some q) : Proper q := by
  unfold scriptStep at stepped
  split at stepped
  · rename_i at_ here
    exact main_proper here proper stepped
  · exact receive_proper rfl proper stepped

theorem qemu_takes_proper (proper : Proper s) (stepped : step p s .qemuTakes = some q) :
    Proper q := by
  simp only [step] at stepped
  split at stepped
  · cases stepped
  · rename_i o later waiting
    cases stepped
    have right := proper.toQemu o (by simp [waiting])
    have rest : ∀ r ∈ later, Rightful s r :=
      fun r member => proper.toQemu r (by simp [waiting, member])
    refine ⟨proper.message, proper.genuine, proper.holds, ?_, rest, ?_⟩
    · refine script_at_kept (s := s) rfl (fun unsent => ?_) (fun _ finished => finished)
        proper.stage
      rw [Unsent, waiting] at unsent
      cases unsent.1
    · intro r held
      rcases holds_install.mp held with rfl | held
      · exact .inr right
      · exact proper.qemu r held

theorem receive_tls {pc : ScriptPc} (stepped : receiveFd s pc b = some q) : q.tls = s.tls := by
  unfold receiveFd at stepped
  split at stepped
  case h_1 | h_4 =>
    obtain ⟨-, stepped⟩ := Option.ite_none_right_eq_some.mp stepped
    cases stepped
    rfl
  case h_3 =>
    split at stepped
    · cases stepped
    · cases stepped
      rfl
  all_goals cases stepped
  all_goals rfl

theorem main_tls {at_ : MainAt} (stepped : mainOf s at_ b = some q) : q.tls = s.tls := by
  unfold mainOf at stepped
  split at stepped
  case h_2 | h_7 | h_9 =>
    obtain ⟨-, stepped⟩ := Option.ite_none_right_eq_some.mp stepped
    cases stepped
    rfl
  case h_4 =>
    obtain ⟨-, stepped⟩ := Option.ite_none_right_eq_some.mp stepped
    split at stepped
    · cases stepped
      rfl
    · cases stepped
      rfl
  case h_6 =>
    obtain ⟨-, stepped⟩ := Option.ite_none_right_eq_some.mp stepped
    obtain ⟨o, -, rfl⟩ := Option.map_eq_some_iff.mp stepped
    rfl
  all_goals cases stepped
  all_goals rfl

theorem script_tls (stepped : scriptStep s b = some q) : q.tls = s.tls := by
  unfold scriptStep at stepped
  split at stepped
  · exact main_tls stepped
  · exact receive_tls stepped

structure Inv (p : Program) (base : Table Object) (s : System) : Prop where
  tidy : Tidy p base s.tls
  proper : Proper s

theorem step_inv {act : Act} (inv : Inv p base s) (stepped : step p s act = some q) :
    Inv p base q := by
  obtain ⟨tidy, proper⟩ := inv
  cases act with
  | tls a =>
    have later := tls_tidy tidy stepped
    refine ⟨later, tls_proper proper (tls_frame tidy stepped) fun o finished => ?_⟩
    exact ⟨_, (tidy_genuine later finished).1⟩
  | script a =>
    have proper := script_step_proper proper stepped
    refine ⟨?_, proper⟩
    rw [script_tls stepped]
    exact tidy
  | qemuTakes =>
    refine ⟨?_, qemu_takes_proper proper stepped⟩
    simp only [step] at stepped
    split at stepped
    · cases stepped
    · cases stepped
      exact tidy
  | qemuDrops =>
    cases stepped
    refine ⟨tidy, proper.message, proper.genuine, proper.holds, ?_, by simp, proper.qemu⟩
    exact script_at_kept (s := s) rfl (fun unsent => ⟨rfl, unsent.2⟩) (fun _ finished => finished)
      proper.stage

theorem inherited_holds {entries : List (Option Nat)} {o : Object}
    (held : (inherited entries).Holds o) : ∃ k, o = .inherited k := by
  obtain ⟨entry, -, same⟩ := List.mem_map.mp held
  obtain ⟨k, -, same⟩ := Option.map_eq_some_iff.mp same
  exact ⟨k, same.symm⟩

variable {tls script qemu : List (Option Nat)} {acts : List Act}

theorem init_inv : Inv p (tlsBase tls p) (init p tls script qemu) where
  tidy := by
    cases p with
    | server => exact ⟨⟨rfl, rfl⟩, extends_nil⟩
    | client => exact ⟨⟨rfl, rfl⟩, extends_nil⟩
  proper := by
    refine ⟨by simp [init], by simp [init, tlsInit], ?_, ?_, by simp [init], ?_⟩
    · intro k held
      rcases holds_install.mp held with same | held
      · cases same
      · obtain ⟨n, same⟩ := inherited_holds held
        cases same
    · exact ⟨⟨rfl, fun o held => inherited_holds held⟩, rfl, lookup_install_lowest _⟩
    · exact fun o held => .inl (inherited_holds held)

theorem reached_inv (reached : Runs.run (step p) (init p tls script qemu) acts = some s) :
    Inv p (tlsBase tls p) s :=
  Runs.invariant_run (Inv p (tlsBase tls p)) (fun _ _ _ inv stepped => step_inv inv stepped)
    init_inv reached

def Held (s : System) (o : Object) : Prop :=
  s.tls.table.Holds o ∨ o ∈ s.message ∨ s.script.table.Holds o ∨ o ∈ s.toQemu ∨ s.qemu.Holds o

/-- QEMU has got it or will get it. -/
def Given (s : System) (o : Object) : Prop :=
  o ∈ s.toQemu ∨ s.qemu.Holds o ∧ ∀ k, o ≠ .inherited k

theorem base_holds {k : Nat} : ¬ (tlsBase tls p).Holds (.connection k) := by
  intro held
  cases p with
  | server =>
    rcases holds_install.mp held with same | held
    · cases same
    · obtain ⟨n, same⟩ := inherited_holds held
      cases same
  | client =>
    obtain ⟨n, same⟩ := inherited_holds held
    cases same

theorem prepareOpen_holds {o r : Object} {sd : Nat} {at_ : PrepareAt}
    (member : r ∈ (prepareOpen o sd at_).map Prod.snd) : r = .sockFd ∨ r = o := by
  cases at_ with
  | socket | closeFile => exact .inr (by simpa [prepareOpen] using member)
  | connect f | sendFd f | recv f | closeSock f => simpa [prepareOpen] using member

theorem sdOpen_holds {o r : Object} {sd : Option Nat} (member : r ∈ (sdOpen o sd).map Prod.snd) :
    r = o := by
  cases sd with
  | none => simp [sdOpen] at member
  | some sd => simpa [sdOpen] using member

/-- The TLS program has none of its connections open but the one it is busy with. -/
theorem tidy_holds {k : Nat} (tidy : Tidy p (tlsBase tls p) t)
    (held : t.table.Holds (.connection k)) :
    .connection k = t.current ∧ t.pc ≠ .accept ∧ t.pc ≠ .exited := by
  have busy : ∀ opened, Extends (tlsBase tls p) opened t.table →
      .connection k ∈ opened.map Prod.snd := by
    intro opened extended
    exact (extended.holds.mp held).resolve_left base_holds
  unfold Tidy TidyAt at tidy
  split at tidy
  case h_1 | h_2 | h_8 =>
    have none := busy [] tidy.2
    cases none
  case h_3 here | h_4 here =>
    rw [here]
    exact ⟨sdOpen_holds (busy _ tidy.2), by simp⟩
  case h_5 here =>
    rw [here]
    rcases prepareOpen_holds (busy _ tidy.2) with same | same
    · cases same
    · exact ⟨same, by simp⟩
  case h_6 here =>
    rw [here]
    obtain ⟨-, ⟨-, held⟩ | ⟨-, held, -⟩⟩ := tidy
    · exact ⟨sdOpen_holds (busy _ held), by simp⟩
    · cases busy [] held
  case h_7 here =>
    rw [here]
    cases p with
    | server => exact ⟨sdOpen_holds (busy _ tidy.2), by simp⟩
    | client =>
      rcases tidy with ⟨-, held⟩ | ⟨-, held⟩
      · exact ⟨sdOpen_holds (busy _ held), by simp⟩
      · cases busy [] held
  case h_9 =>
    rw [tidy.2] at held
    exact absurd held not_holds_empty

/-- However many handshakes have failed, the server is back at `accept` with the table that it
    had at first, and no process has a descriptor of a connection that was refused. -/
theorem refused_closed (reached : Runs.run (step p) (init p tls script qemu) acts = some s) :
    (s.tls.pc = .accept → ∀ fd, s.tls.table.lookup fd = (tlsBase tls p).lookup fd) ∧
    ∀ k < s.tls.connections, s.tls.completed ≠ some (.connection k) →
      k + 1 < s.tls.connections ∨ s.tls.pc = .accept ∨ s.tls.pc = .exited →
      ¬ Held s (.connection k) := by
  obtain ⟨tidy, proper⟩ := reached_inv reached
  constructor
  · intro accepting
    rw [Tidy, accepting] at tidy
    exact tidy.2.unchanged
  · intro k below refused past held
    have foreign : ¬ Rightful s (.connection k) := by
      rintro (⟨finished, -⟩ | ⟨own, -⟩)
      · exact refused finished
      · cases own
    rcases held with held | sent | held | sent | held
    · obtain ⟨same, busy, running⟩ := tidy_holds tidy held
      rw [Tls.current, Object.connection.injEq] at same
      rcases past with older | idle | ended
      · omega
      · exact busy idle
      · exact running ended
    · exact refused (proper.message _ sent)
    · exact refused (proper.holds k held)
    · exact foreign (proper.toQemu _ sent)
    · rcases proper.qemu _ held with ⟨n, same⟩ | right
      · cases same
      · exact foreign right

def refusedOnce : List Act := [.tls .works, .tls .again, .tls .fails, .tls .works]

theorem refused_closed_once : ∃ s,
    Runs.run (step .server) (init .server [some 0, none, some 2] [] []) refusedOnce = some s ∧
    s.tls.table.lookup 1 = some .listener ∧ s.tls.table.lookup 3 = none ∧
    ¬ Held s (.connection 0) := by
  obtain ⟨s, reached, accepting, one, unfinished⟩ : ∃ s,
      Runs.run (step .server) (init .server [some 0, none, some 2] [] []) refusedOnce = some s ∧
      s.tls.pc = .accept ∧ s.tls.connections = 1 ∧ s.tls.completed = none :=
    Runs.reaches (by decide)
  have ⟨table, closed⟩ := refused_closed reached
  refine ⟨s, reached, (table accepting 1).trans (by decide), (table accepting 3).trans (by decide),
    closed 0 (by omega) (by simp [unfinished]) (.inr (.inl accepting))⟩

theorem given_rightful {o : Object} (proper : Proper s) (given : Given s o) : Rightful s o := by
  rcases given with sent | ⟨held, other⟩
  · exact proper.toQemu o sent
  · rcases proper.qemu o held with ⟨k, same⟩ | right
    · exact absurd same (other k)
    · exact right

/-- Not a descriptor that QEMU had from its start. -/
def isNew : Object → Bool
  | .inherited _ => false
  | _ => true

/-- The descriptors that QEMU has got or will get, each as often as it does. -/
def givenCount (s : System) : Nat := s.toQemu.length + s.qemu.count isNew

/-- How many descriptors a step sends to QEMU. -/
def sentBetween (s q : System) : Nat := q.toQemu.length - s.toQemu.length

/-- How many descriptors the script may still send. -/
def toSend : ScriptPc → Nat
  | .main .getfd | .main .migrate | .main .disconnect | .exited => 0
  | _ => 1

theorem toSend_le (pc : ScriptPc) : toSend pc ≤ 1 := by
  unfold toSend
  split <;> omega

theorem receive_given {pc : ScriptPc} (stepped : receiveFd s pc b = some q) :
    q.toQemu = s.toQemu ∧ q.qemu = s.qemu ∧ toSend q.script.pc ≤ toSend pc := by
  unfold receiveFd at stepped
  split at stepped
  case h_1 | h_4 =>
    obtain ⟨-, stepped⟩ := Option.ite_none_right_eq_some.mp stepped
    cases stepped
    exact ⟨rfl, rfl, Nat.le_refl _⟩
  case h_3 =>
    split at stepped
    · cases stepped
    · cases stepped
      exact ⟨rfl, rfl, Nat.le_refl _⟩
  case h_10 => cases stepped
  all_goals cases stepped
  all_goals exact ⟨rfl, rfl, toSend_le _⟩

/-- `main` sends one descriptor, by `send_fd_scm`. -/
theorem main_given {at_ : MainAt} (stepped : mainOf s at_ b = some q) :
    q.qemu = s.qemu ∧ sentBetween s q + toSend q.script.pc ≤ toSend (.main at_) := by
  unfold mainOf at stepped
  split at stepped
  case h_2 | h_7 | h_9 =>
    obtain ⟨-, stepped⟩ := Option.ite_none_right_eq_some.mp stepped
    cases stepped
    exact ⟨rfl, by simp [sentBetween, toSend]⟩
  case h_4 =>
    obtain ⟨-, stepped⟩ := Option.ite_none_right_eq_some.mp stepped
    split at stepped
    · cases stepped
      exact ⟨rfl, by simp [sentBetween, toSend]⟩
    · cases stepped
      exact ⟨rfl, by simp [sentBetween, toSend]⟩
  case h_6 =>
    obtain ⟨-, stepped⟩ := Option.ite_none_right_eq_some.mp stepped
    obtain ⟨o, -, rfl⟩ := Option.map_eq_some_iff.mp stepped
    exact ⟨rfl, by simp [sentBetween, toSend]⟩
  case h_16 => cases stepped
  all_goals cases stepped
  all_goals exact ⟨rfl, by simp [sentBetween, toSend, Script.exit]⟩

theorem step_given {act : Act} (inv : Inv p base s) (stepped : step p s act = some q) :
    sentBetween s q + toSend q.script.pc ≤ toSend s.script.pc ∧
      givenCount q ≤ givenCount s + sentBetween s q := by
  cases act with
  | tls a =>
    have frame := tls_frame inv.tidy stepped
    simp [sentBetween, givenCount, frame.script, frame.toQemu, frame.qemu]
  | script b =>
    simp only [step, scriptStep] at stepped
    split at stepped
    · rename_i at_ here
      obtain ⟨qemu, sends⟩ := main_given stepped
      rw [← here] at sends
      refine ⟨sends, ?_⟩
      simp only [givenCount, sentBetween, qemu]
      omega
    · obtain ⟨toQemu, qemu, sends⟩ := receive_given stepped
      simp only [givenCount, sentBetween, toQemu, qemu]
      omega
  | qemuTakes =>
    simp only [step] at stepped
    split at stepped
    · cases stepped
    · rename_i o later waiting
      cases stepped
      have one : (if isNew o then 1 else 0) ≤ 1 := by split <;> omega
      simp only [givenCount, sentBetween, waiting, count_install, List.length_cons]
      omega
  | qemuDrops =>
    cases stepped
    simp [givenCount, sentBetween]

theorem inherited_old (entries : List (Option Nat)) : (inherited entries).count isNew = 0 := by
  rw [Table.count, List.countP_eq_zero]
  intro entry member
  obtain ⟨number, -, rfl⟩ := List.mem_map.mp member
  cases number <;> simp [isNew]

/-- Over a whole run the script sends one descriptor at most, so QEMU has at most one, on its way
    or in its table, that it did not inherit: of the connection whose handshake was completed when
    `receive_fd` returned a descriptor, and of the script's own connection when it did not. -/
theorem one_given (reached : Runs.run (step p) (init p tls script qemu) acts = some s) :
    Ranking.cost (step p) sentBetween (init p tls script qemu) acts ≤ 1 ∧ givenCount s ≤ 1 ∧
    ∀ o, Given s o → s.tls.completed = some o ∧ o = s.tls.current ∧ s.script.fd ≠ none ∨
      o = .own ∧ s.script.fd = none := by
  have keeps : ∀ s act q, Inv p (tlsBase tls p) s → step p s act = some q →
      Inv p (tlsBase tls p) q := fun _ _ _ inv stepped => step_inv inv stepped
  have sent : Ranking.cost (step p) sentBetween (init p tls script qemu) acts +
      toSend s.script.pc ≤ 1 :=
    Ranking.cost_le (fun s => toSend s.script.pc) keeps
      (fun _ _ _ inv stepped => (step_given inv stepped).1) init_inv reached
  have given := Ranking.le_cost givenCount keeps
    (fun _ _ _ inv stepped => (step_given inv stepped).2) init_inv reached
  have none : givenCount (init p tls script qemu) = 0 := by
    rw [givenCount, init, inherited_old]
    rfl
  obtain ⟨tidy, proper⟩ := reached_inv reached
  refine ⟨by omega, by omega, ?_⟩
  intro o given
  rcases given_rightful proper given with ⟨finished, got⟩ | own
  · exact .inl ⟨finished, (tidy_genuine tidy finished).1, got⟩
  · exact .inr own

def handedOver : List Act :=
  List.replicate 5 (.tls .works) ++ List.replicate 9 (.script .works) ++ [.qemuTakes]

theorem one_given_second : ∃ s,
    Runs.run (step .server) (init .server [some 0] [some 1] []) (refusedOnce ++ handedOver) =
      some s ∧
    s.qemu.lookup 0 = some (.connection 1) ∧ givenCount s ≤ 1 ∧
    s.tls.completed = some (.connection 1) ∧ s.script.fd = some 3 := by
  obtain ⟨s, reached, taken, got⟩ : ∃ s,
      Runs.run (step .server) (init .server [some 0] [some 1] []) (refusedOnce ++ handedOver) =
        some s ∧
      s.qemu.lookup 0 = some (.connection 1) ∧ s.script.fd = some 3 :=
    Runs.reaches (by decide)
  have given : Given s (.connection 1) := .inr ⟨holds_iff.mpr ⟨0, taken⟩, by simp⟩
  obtain ⟨-, once, whose⟩ := one_given reached
  rcases whose _ given with ⟨finished, -⟩ | ⟨own, -⟩
  · exact ⟨s, reached, taken, once, finished, got⟩
  · cases own

end HandOver
