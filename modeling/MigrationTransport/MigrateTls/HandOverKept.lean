import MigrationTransport.MigrateTls.HandOverSafety
import MigrationTransport.Lib.Ranking

/-!
The connection whose handshake was completed is not lost: as long as no call fails that the
hand-over needs, some table or message has a descriptor of it in every state, whoever is
scheduled, until QEMU has it; and the hand-over can always be finished.
-/
namespace HandOver
open Descriptors Ranking

variable {p : Program} {base : Table Object} {t u : Tls} {s q : System} {a : TlsAct} {b : ScriptAct}
  {act : Act}

def handing : TlsPc → Bool
  | .prepare _ .socket | .prepare _ (.connect _) | .prepare _ (.sendFd _) => true
  | _ => false

def passing : ScriptPc → Bool
  | .accept _ | .recvmsg _ _ | .unlink | .main .connect | .main .setParameters | .main .makeOwn
  | .main (.sendFdScm _) => true
  | _ => false

def Loses (s : System) : Act → Prop
  | .tls .fails => handing s.tls.pc = true
  | .script .fails => passing s.script.pc = true
  | .qemuDrops => True
  | _ => False

instance (s : System) : DecidablePred (Loses s)
  | .tls .fails => inferInstanceAs (Decidable (handing s.tls.pc = true))
  | .script .fails => inferInstanceAs (Decidable (passing s.script.pc = true))
  | .qemuDrops => isTrue trivial
  | .tls .works | .tls .again | .script .works | .script .eof | .script (.makesOwn _)
  | .qemuTakes => isFalse id

def Waiting (s : System) : Prop :=
  s.link = .absent ∧ s.message = [] ∧ (s.tls.completed = none ∨
    ∃ sd, s.tls.pc = .prepare sd .socket ∨ ∃ sockFd, s.tls.pc = .prepare sd (.connect sockFd))

def Sent (s : System) : Prop := s.tls.completed ≠ none ∧ handing s.tls.pc = false

def InLink (s : System) : Prop :=
  (∃ sd sockFd, s.tls.pc = .prepare sd (.sendFd sockFd)) ∧ s.message = [] ∨
  (∃ o, s.message = [o]) ∧ Sent s

def AtQemu (s : System) (o : Object) : Prop := o ∈ s.toQemu ∨ s.qemu.Holds o

def KeptAt (s : System) : ScriptPc → Prop
  | .accept _ => Waiting s ∨ s.link = .queued ∧ InLink s
  | .recvmsg _ _ => s.link = .taken ∧ InLink s
  | .closeConn _ _ | .closeSock _ | .unlink | .main .connect | .main .queryStatus
  | .main .setParameters => s.script.fd ≠ none ∧ Sent s
  | .main .makeOwn => False
  | .main (.sendFdScm socket) => s.script.fd = some socket ∧ Sent s
  | .main .getfd | .main .migrate | .main .disconnect | .exited =>
    (∀ o, s.tls.completed = some o → AtQemu s o) ∧ Sent s

theorem main_waiting {pc : TlsPc} (at_ : t.pc = pc) (unfinished : t.completed = none)
    (stepped : mainStep p t pc a = some u) :
    u.completed = none ∨ ∃ sd, u.pc = .prepare sd .socket := by
  unfold mainStep at stepped
  split at stepped
  case h_8 sd =>
    obtain ⟨o, -, rfl⟩ := Option.map_eq_some_iff.mp stepped
    exact .inr ⟨sd, rfl⟩
  case h_9 | h_11 =>
    cases p with
    | server | client =>
      cases stepped
      exact .inl unfinished
  all_goals cases stepped
  all_goals exact .inl unfinished

theorem main_not_handing {pc : TlsPc} (at_ : t.pc = pc) (tidy : TidyAt p base t pc)
    (finished : t.completed ≠ none) (stepped : mainStep p t pc a = some u) :
    handing u.pc = false := by
  unfold mainStep at stepped
  split at stepped
  case h_8 => exact absurd tidy.1.1 finished
  case h_7 =>
    cases stepped
    rw [at_]
    rfl
  case h_9 | h_11 =>
    cases p with
    | server | client =>
      cases stepped
      rfl
  all_goals cases stepped
  all_goals rfl

/-- Once the descriptor is on its way, the TLS program adds nothing. -/
theorem sent_stays (tidy : Tidy p base s.tls) (sent : Sent s) (stepped : tlsStep p s a = some q) :
    Sent q ∧ q.tls.completed = s.tls.completed ∧ q.message = s.message ∧ q.link = s.link := by
  obtain ⟨finished, sent⟩ := sent
  have frame := tls_frame tidy stepped
  obtain ⟨o, found⟩ := Option.ne_none_iff_exists'.mp finished
  have same : q.tls.completed = s.tls.completed := (frame.completed o found).trans found.symm
  suffices rest : handing q.tls.pc = false ∧ q.message = s.message ∧ q.link = s.link by
    exact ⟨⟨same ▸ finished, rest.1⟩, same, rest.2⟩
  unfold tlsStep at stepped
  split at stepped
  · rename_i sd at_ here
    rw [here] at sent
    unfold prepareStep at stepped
    split at stepped
    case h_7 =>
      obtain ⟨-, stepped⟩ := Option.ite_none_right_eq_some.mp stepped
      cases stepped
      exact ⟨rfl, rfl, rfl⟩
    case h_8 | h_9 =>
      cases stepped
      exact ⟨rfl, rfl, rfl⟩
    case h_10 =>
      cases p with
      | server | client =>
        cases stepped
        exact ⟨rfl, rfl, rfl⟩
    case h_11 => cases stepped
    all_goals cases sent
  · obtain ⟨t, moved, rfl⟩ := Option.map_eq_some_iff.mp stepped
    exact ⟨main_not_handing rfl tidy finished moved, rfl, rfl⟩

theorem waiting_tls (inv : Inv p base s) (waiting : Waiting s) (stepped : tlsStep p s a = some q)
    (safe : ¬ Loses s (.tls a)) : Waiting q ∨ q.link = .queued ∧ InLink q := by
  obtain ⟨absent, empty, stage⟩ := waiting
  have tidy := inv.tidy
  unfold tlsStep at stepped
  split at stepped
  · rename_i sd at_ here
    rw [Tidy, here] at tidy
    obtain ⟨⟨finished, -⟩, -⟩ := tidy
    have early : at_ = .socket ∨ ∃ sockFd, at_ = .connect sockFd := by
      rcases stage with unfinished | ⟨n, same | ⟨sockFd, same⟩⟩
      · rw [unfinished] at finished
        cases finished
      · rw [here] at same
        cases same
        exact .inl rfl
      · rw [here] at same
        cases same
        exact .inr ⟨sockFd, rfl⟩
    unfold prepareStep at stepped
    split at stepped
    case h_1 =>
      cases stepped
      exact .inl ⟨absent, empty, .inr ⟨sd, .inr ⟨_, rfl⟩⟩⟩
    case h_2 | h_4 | h_5 => exact absurd (by simp [Loses, here, handing]) safe
    case h_3 sockFd =>
      obtain ⟨-, stepped⟩ := Option.ite_none_right_eq_some.mp stepped
      cases stepped
      exact .inr ⟨rfl, .inl ⟨⟨sd, sockFd, rfl⟩, empty⟩⟩
    case h_11 => cases stepped
    all_goals rcases early with same | ⟨sockFd, same⟩
    all_goals cases same
  · rename_i other
    obtain ⟨t, moved, rfl⟩ := Option.map_eq_some_iff.mp stepped
    have unfinished : s.tls.completed = none := by
      rcases stage with none | ⟨n, same | ⟨sockFd, same⟩⟩
      · exact none
      · exact absurd same (other n .socket)
      · exact absurd same (other n (.connect sockFd))
    refine .inl ⟨absent, empty, ?_⟩
    rcases main_waiting rfl unfinished moved with none | ⟨sd, same⟩
    · exact .inl none
    · exact .inr ⟨sd, .inl same⟩

theorem in_link_tls (inv : Inv p base s) (inLink : InLink s) (stepped : tlsStep p s a = some q)
    (safe : ¬ Loses s (.tls a)) : InLink q ∧ q.link = s.link := by
  rcases inLink with ⟨⟨sd, sockFd, here⟩, empty⟩ | ⟨⟨o, message⟩, sent⟩
  · have tidy := inv.tidy
    rw [Tidy, here] at tidy
    obtain ⟨⟨finished, -⟩, held⟩ := tidy
    have there : s.tls.table.lookup sd = some s.tls.current := held.lookup (by simp [prepareOpen])
    simp only [tlsStep, here] at stepped
    cases a with
    | works =>
      obtain ⟨-, stepped⟩ := Option.ite_none_right_eq_some.mp stepped
      rw [there] at stepped
      cases stepped
      exact ⟨.inr ⟨⟨s.tls.current, by simp [empty]⟩, by simp [finished], rfl⟩, rfl⟩
    | fails => exact absurd (by simp [Loses, here, handing]) safe
    | again => cases stepped
  · obtain ⟨still, -, same, link⟩ := sent_stays inv.tidy sent stepped
    exact ⟨.inr ⟨⟨o, same.trans message⟩, still⟩, link⟩

theorem tls_kept (inv : Inv p base s) (kept : KeptAt s s.script.pc)
    (stepped : tlsStep p s a = some q) (safe : ¬ Loses s (.tls a)) : KeptAt q q.script.pc := by
  have frame := tls_frame inv.tidy stepped
  rw [frame.script]
  unfold KeptAt at *
  simp only [AtQemu, frame.script, frame.toQemu, frame.qemu]
  split at kept
  case h_1 =>
    rcases kept with waiting | ⟨queued, inLink⟩
    · exact waiting_tls inv waiting stepped safe
    · obtain ⟨inLink, link⟩ := in_link_tls inv inLink stepped safe
      exact .inr ⟨link.trans queued, inLink⟩
  case h_2 =>
    obtain ⟨inLink, link⟩ := in_link_tls inv kept.2 stepped safe
    exact ⟨link.trans kept.1, inLink⟩
  case h_9 => exact kept
  case h_11 | h_12 | h_13 | h_14 =>
    obtain ⟨still, same, -⟩ := sent_stays inv.tidy kept.2 stepped
    rw [same]
    exact ⟨kept.1, still⟩
  all_goals exact ⟨kept.1, (sent_stays inv.tidy kept.2 stepped).1⟩

theorem receive_kept {pc : ScriptPc} (here : s.script.pc = pc) (inv : Inv p base s)
    (kept : KeptAt s pc) (stepped : receiveFd s pc b = some q) (safe : ¬ Loses s (.script b)) :
    KeptAt q q.script.pc := by
  unfold receiveFd at stepped
  split at stepped
  · obtain ⟨queued, stepped⟩ := Option.ite_none_right_eq_some.mp stepped
    cases stepped
    rcases kept with ⟨absent, -⟩ | ⟨-, inLink⟩
    · rw [absent] at queued
      cases queued
    · exact ⟨rfl, inLink⟩
  · exact absurd (by simp [Loses, here, passing]) safe
  · split at stepped
    · cases stepped
    · rename_i o later message
      cases stepped
      rcases kept.2 with ⟨-, empty⟩ | ⟨-, sent⟩
      · rw [message] at empty
        cases empty
      · exact ⟨by simp, sent⟩
  · obtain ⟨⟨empty, gone⟩, stepped⟩ := Option.ite_none_right_eq_some.mp stepped
    -- The sender hangs up only after it has sent the descriptor.
    rcases kept.2 with ⟨⟨sd, sockFd, sending⟩, -⟩ | ⟨⟨o, message⟩, -⟩
    · have tidy := inv.tidy
      rw [Tidy, sending] at tidy
      exact absurd (tidy.2.holds.mpr (.inr (by simp [prepareOpen]))) gone
    · rw [message] at empty
      cases empty
  · exact absurd (by simp [Loses, here, passing]) safe
  · cases stepped
    exact kept
  · cases stepped
    exact kept
  · cases stepped
    exact kept
  · exact absurd (by simp [Loses, here, passing]) safe
  · cases stepped

theorem main_kept {at_ : MainAt} (here : s.script.pc = .main at_) (inv : Inv p base s)
    (kept : KeptAt s s.script.pc) (stepped : mainOf s at_ b = some q)
    (safe : ¬ Loses s (.script b)) : KeptAt q q.script.pc := by
  have stage := inv.proper.stage
  rw [here] at stage kept
  unfold mainOf at stepped
  split at stepped
  case h_1 | h_3 | h_8 | h_10 =>
    cases stepped
    exact kept
  case h_2 | h_7 | h_9 =>
    obtain ⟨-, stepped⟩ := Option.ite_none_right_eq_some.mp stepped
    cases stepped
    exact kept
  case h_4 =>
    obtain ⟨-, stepped⟩ := Option.ite_none_right_eq_some.mp stepped
    split at stepped
    · rename_i got
      cases stepped
      exact ⟨got, kept.2⟩
    · rename_i none
      exact absurd none kept.1
  case h_5 => exact absurd kept id
  case h_6 socket =>
    obtain ⟨-, stepped⟩ := Option.ite_none_right_eq_some.mp stepped
    obtain ⟨o, found, rfl⟩ := Option.map_eq_some_iff.mp stepped
    obtain ⟨k, finished, there⟩ := stage.2.1 socket kept.1
    rw [found] at there
    cases there
    refine ⟨fun r same => .inl ?_, kept.2⟩
    rw [finished] at same
    cases same
    simp
  case h_11 =>
    cases stepped
    exact kept
  case h_16 => cases stepped
  all_goals exact absurd (by simp [Loses, here, passing]) safe

theorem takes_kept {pc : ScriptPc} {o : Object} {later : List Object}
    (waiting : s.toQemu = o :: later)
    (kept : KeptAt s pc) : KeptAt { s with toQemu := later, qemu := s.qemu.install o } pc := by
  have moved : ∀ r, AtQemu s r → r ∈ later ∨ (s.qemu.install o).Holds r := by
    rintro r (sent | held)
    · rw [waiting, List.mem_cons] at sent
      rcases sent with rfl | sent
      · exact .inr (holds_install.mpr (.inl rfl))
      · exact .inl sent
    · exact .inr (holds_install.mpr (.inr held))
  unfold KeptAt at *
  split at kept
  case h_11 | h_12 | h_13 | h_14 => exact ⟨fun r finished => moved r (kept.1 r finished), kept.2⟩
  all_goals exact kept

theorem step_kept (inv : Inv p base s) (kept : KeptAt s s.script.pc)
    (stepped : step p s act = some q) (safe : ¬ Loses s act) : KeptAt q q.script.pc := by
  cases act with
  | tls a => exact tls_kept inv kept stepped safe
  | script b =>
    simp only [step, scriptStep] at stepped
    split at stepped
    · rename_i at_ here
      exact main_kept here inv kept stepped safe
    · exact receive_kept rfl inv kept stepped safe
  | qemuTakes =>
    simp only [step] at stepped
    split at stepped
    · cases stepped
    · rename_i o later waiting
      cases stepped
      exact takes_kept waiting kept
  | qemuDrops => exact absurd trivial safe

/-- Where the descriptor is, as the script stands. -/
theorem kept_held {o : Object} (inv : Inv p base s) (kept : KeptAt s s.script.pc)
    (finished : s.tls.completed = some o) : Held s o := by
  have early : ∀ {sd at_}, s.tls.pc = .prepare sd at_ → s.tls.table.Holds o := by
    intro sd at_ here
    have tidy := inv.tidy
    rw [Tidy, here] at tidy
    obtain ⟨⟨done, -⟩, held⟩ := tidy
    rw [done] at finished
    cases finished
    refine held.holds.mpr (.inr ?_)
    cases at_ with
    | socket | closeFile | connect f | sendFd f | recv f | closeSock f => simp [prepareOpen]
  have linked : InLink s → Held s o := by
    rintro (⟨⟨sd, sockFd, here⟩, -⟩ | ⟨⟨r, message⟩, -⟩)
    · exact .inl (early here)
    · have same := inv.proper.message r (by simp [message])
      rw [finished] at same
      cases same
      exact .inr (.inl (by simp [message]))
  have taken : Received s → s.script.fd ≠ none → Held s o := by
    intro received got
    obtain ⟨fd, got⟩ := Option.ne_none_iff_exists'.mp got
    obtain ⟨k, same, there⟩ := received fd got
    rw [finished] at same
    cases same
    exact .inr (.inr (.inl (holds_iff.mpr ⟨fd, there⟩)))
  have stage := inv.proper.stage
  generalize s.script.pc = pc at kept stage
  unfold KeptAt at kept
  split at kept
  case h_1 =>
    rcases kept with ⟨-, -, unfinished | ⟨sd, here | ⟨sockFd, here⟩⟩⟩ | ⟨-, inLink⟩
    · rw [finished] at unfinished
      cases unfinished
    · exact .inl (early here)
    · exact .inl (early here)
    · exact linked inLink
  case h_2 => exact linked kept.2
  case h_9 => exact absurd kept id
  case h_10 => exact taken stage.2.1 (by simp [kept.1])
  case h_11 | h_12 | h_13 | h_14 => exact .inr (.inr (.inr (kept.1 o finished)))
  case h_3 | h_4 | h_7 | h_8 => exact taken stage.2.1 kept.1
  case h_5 | h_6 => exact taken stage.2 kept.1

variable {tls script qemu : List (Option Nat)} {acts : List Act}

theorem reached_kept (reached : Runs.run (step p) (init p tls script qemu) acts = some s)
    (safe : Runs.Along (step p) (fun s act => ¬ Loses s act) (init p tls script qemu) acts) :
    Inv p (tlsBase tls p) s ∧ KeptAt s s.script.pc := by
  apply Runs.invariant_along (fun s => Inv p (tlsBase tls p) s ∧ KeptAt s s.script.pc) ?_ ?_ safe
    reached
  · rintro s act q ⟨inv, kept⟩ safe stepped
    exact ⟨step_inv inv stepped, step_kept inv kept stepped safe⟩
  · exact ⟨init_inv, .inl ⟨rfl, rfl, .inl rfl⟩⟩

/-- QEMU may be left without the descriptor: what loses it, and a `getfd` that raises, after
    which the script does not wait until QEMU has taken what it was sent. -/
def Strands (s : System) (act : Act) : Prop :=
  Loses s act ∨ act = .script .fails ∧ s.script.pc = .main .getfd

instance (s : System) (act : Act) : Decidable (Strands s act) :=
  inferInstanceAs (Decidable (_ ∨ _ ∧ _))

def TakenAt (s : System) : ScriptPc → Prop
  | .main .migrate | .main .disconnect | .exited =>
    ∀ o, s.tls.completed = some o → s.qemu.Holds o
  | _ => True

theorem taken_kept {pc : ScriptPc} (completed : q.tls.completed = s.tls.completed)
    (holds : ∀ o, s.qemu.Holds o → q.qemu.Holds o) (taken : TakenAt s pc) : TakenAt q pc := by
  unfold TakenAt at *
  split at taken
  case h_4 => trivial
  all_goals exact fun o finished => holds o (taken o (completed ▸ finished))

theorem receive_running {pc : ScriptPc} (here : s.script.pc = pc)
    (stepped : receiveFd s pc b = some q) (safe : ¬ Loses s (.script b)) :
    TakenAt q q.script.pc := by
  unfold receiveFd at stepped
  split at stepped
  case h_1 | h_4 =>
    obtain ⟨-, stepped⟩ := Option.ite_none_right_eq_some.mp stepped
    cases stepped
    trivial
  case h_2 | h_9 => exact absurd (by simp [Loses, here, passing]) safe
  case h_3 =>
    split at stepped
    · cases stepped
    · cases stepped
      trivial
  case h_10 => cases stepped
  all_goals cases stepped
  all_goals trivial

theorem main_taken {at_ : MainAt} (here : s.script.pc = .main at_) (kept : KeptAt s s.script.pc)
    (taken : TakenAt s s.script.pc) (stepped : mainOf s at_ b = some q)
    (safe : ¬ Strands s (.script b)) : TakenAt q q.script.pc := by
  obtain ⟨unlost, answered⟩ := not_or.mp safe
  rw [here] at kept taken
  unfold mainOf at stepped
  split at stepped
  case h_7 =>
    -- QEMU answers `getfd` when nothing is on its way to it any more.
    obtain ⟨⟨-, landed⟩, stepped⟩ := Option.ite_none_right_eq_some.mp stepped
    cases stepped
    intro o finished
    rcases kept.1 o finished with sent | held
    · simp [landed] at sent
    · exact held
  case h_8 => exact absurd ⟨rfl, here⟩ answered
  case h_9 =>
    obtain ⟨-, stepped⟩ := Option.ite_none_right_eq_some.mp stepped
    cases stepped
    exact taken
  case h_10 | h_11 =>
    cases stepped
    exact taken
  case h_2 =>
    obtain ⟨-, stepped⟩ := Option.ite_none_right_eq_some.mp stepped
    cases stepped
    trivial
  case h_4 =>
    obtain ⟨-, stepped⟩ := Option.ite_none_right_eq_some.mp stepped
    split at stepped <;> cases stepped <;> trivial
  case h_6 =>
    obtain ⟨-, stepped⟩ := Option.ite_none_right_eq_some.mp stepped
    obtain ⟨o, -, rfl⟩ := Option.map_eq_some_iff.mp stepped
    trivial
  case h_1 | h_3 | h_5 =>
    cases stepped
    trivial
  case h_16 => cases stepped
  all_goals exact absurd (by simp [Loses, here, passing]) unlost

theorem step_taken (inv : Inv p base s) (kept : KeptAt s s.script.pc)
    (taken : TakenAt s s.script.pc) (stepped : step p s act = some q) (safe : ¬ Strands s act) :
    TakenAt q q.script.pc := by
  have unlost : ¬ Loses s act := fun loses => safe (.inl loses)
  cases act with
  | tls a =>
    have frame := tls_frame inv.tidy stepped
    rw [frame.script]
    unfold TakenAt KeptAt at *
    split at taken
    case h_1 here | h_2 here | h_3 here =>
      rw [here] at kept
      obtain ⟨-, same, -⟩ := sent_stays inv.tidy kept.2 stepped
      rw [frame.qemu, same]
      exact taken
    case h_4 => trivial
  | script b =>
    simp only [step, scriptStep] at stepped
    split at stepped
    · rename_i at_ here
      exact main_taken here kept taken stepped safe
    · exact receive_running rfl stepped unlost
  | qemuTakes =>
    simp only [step] at stepped
    split at stepped
    · cases stepped
    · cases stepped
      exact taken_kept (s := s) rfl (fun _ held => holds_install.mpr (.inr held)) taken
  | qemuDrops => exact absurd trivial unlost

theorem reached_taken (reached : Runs.run (step p) (init p tls script qemu) acts = some s)
    (safe : Runs.Along (step p) (fun s act => ¬ Strands s act) (init p tls script qemu) acts) :
    TakenAt s s.script.pc := by
  have all : (Inv p (tlsBase tls p) s ∧ KeptAt s s.script.pc) ∧ TakenAt s s.script.pc := by
    apply Runs.invariant_along (fun s =>
      (Inv p (tlsBase tls p) s ∧ KeptAt s s.script.pc) ∧ TakenAt s s.script.pc) ?_ ?_ safe reached
    · rintro s act q ⟨⟨inv, kept⟩, taken⟩ safe stepped
      have unlost : ¬ Loses s act := fun loses => safe (.inl loses)
      exact ⟨⟨step_inv inv stepped, step_kept inv kept stepped unlost⟩,
        step_taken inv kept taken stepped safe⟩
    · exact ⟨⟨init_inv, .inl ⟨rfl, rfl, .inl rfl⟩⟩, trivial⟩
  exact all.2

/-- The connection that is handed over is never shut down, in particular not by the `tcp_close`
    that `tls_client.c` calls afterwards. If nothing fails that the hand-over needs it is open in
    some table or message, and on its way to QEMU at least when the script exits; and QEMU has it
    then if `getfd` has not raised either. -/
theorem connection_kept (reached : Runs.run (step p) (init p tls script qemu) acts = some s) :
    ∀ o, s.tls.completed = some o → o ∉ s.tls.shut ∧
      (Runs.Along (step p) (fun s act => ¬ Loses s act) (init p tls script qemu) acts →
        Held s o ∧ (s.script.pc = .exited → AtQemu s o)) ∧
      (Runs.Along (step p) (fun s act => ¬ Strands s act) (init p tls script qemu) acts →
        s.script.pc = .exited → s.qemu.Holds o) := by
  intro o finished
  refine ⟨(tidy_genuine (reached_inv reached).tidy finished).2, fun safe => ?_, fun safe ended => ?_⟩
  · obtain ⟨inv, kept⟩ := reached_kept reached safe
    refine ⟨kept_held inv kept finished, fun ended => ?_⟩
    rw [ended] at kept
    exact kept.1 o finished
  · have taken := reached_taken reached safe
    rw [ended] at taken
    exact taken o finished

/-- The client has passed its descriptor on and is in `tcp_close`, between its two calls, when the
    script ends. -/
def clientCloses : List Act :=
  [.tls .works, .tls .works, .tls .again] ++ List.replicate 4 (.tls .works) ++
    List.replicate 3 (.script .works) ++ List.replicate 4 (.tls .works) ++
    List.replicate 6 (.script .works) ++ [.qemuTakes] ++ List.replicate 3 (.script .works)

theorem connection_kept_client : ∃ s,
    Runs.run (step .client) (init .client [some 0] [] []) clientCloses = some s ∧
    s.tls.pc = .close (some 1) ∧ .connection 0 ∉ s.tls.shut ∧ Held s (.connection 0) ∧
    s.qemu.Holds (.connection 0) := by
  obtain ⟨s, reached, closing, ended, finished⟩ : ∃ s,
      Runs.run (step .client) (init .client [some 0] [] []) clientCloses = some s ∧
      s.tls.pc = .close (some 1) ∧ s.script.pc = .exited ∧
      s.tls.completed = some (.connection 0) :=
    Runs.reaches (by decide)
  obtain ⟨unshut, held, taken⟩ := connection_kept reached _ finished
  exact ⟨s, reached, closing, unshut, (held (by decide)).1, taken (by decide) ended⟩

def tlsRank : TlsPc → Nat
  | .prepare _ .socket => 8
  | .prepare _ (.connect _) => 7
  | .prepare _ (.sendFd _) => 6
  | .prepare _ (.recv _) => 5
  | .prepare _ (.closeSock _) => 4
  | .prepare _ .closeFile => 3
  | .shutdown _ => 2
  | .close _ | .closeListener => 1
  | _ => 0

def scriptRank : ScriptPc → Nat
  | .accept _ => 15
  | .recvmsg _ _ => 14
  | .closeConn _ _ => 13
  | .closeSock _ => 12
  | .unlink => 11
  | .main .connect => 10
  | .main .queryStatus => 9
  | .main .setParameters => 8
  | .main .makeOwn => 7
  | .main (.sendFdScm _) => 5
  | .main .getfd => 3
  | .main .migrate => 2
  | .main .disconnect => 1
  | .exited => 0

def handRank (s : System) : Nat := tlsRank s.tls.pc + scriptRank s.script.pc + s.toQemu.length

def smooth : Act → Bool
  | .tls .works | .script .works | .qemuTakes => true
  | _ => false

theorem tls_lowers (tidy : Tidy p base s.tls) (finished : s.tls.completed ≠ none)
    (stepped : tlsStep p s a = some q) : tlsRank q.tls.pc < tlsRank s.tls.pc := by
  unfold tlsStep at stepped
  split at stepped
  · rename_i sd at_ here
    rw [here]
    unfold prepareStep at stepped
    split at stepped
    case h_3 | h_7 =>
      obtain ⟨-, stepped⟩ := Option.ite_none_right_eq_some.mp stepped
      cases stepped
      simp [tlsRank]
    case h_6 =>
      obtain ⟨-, stepped⟩ := Option.ite_none_right_eq_some.mp stepped
      obtain ⟨o, -, rfl⟩ := Option.map_eq_some_iff.mp stepped
      simp [tlsRank]
    case h_10 =>
      cases p with
      | server | client =>
        cases stepped
        simp [tlsRank]
    all_goals cases stepped
    all_goals simp [tlsRank, Tls.exit]
  · obtain ⟨t, moved, rfl⟩ := Option.map_eq_some_iff.mp stepped
    unfold Tidy at tidy
    generalize s.tls.pc = pc at *
    unfold mainStep at moved
    split at moved
    case h_10 | h_12 =>
      cases moved
      simp [tlsRank, Tls.exit]
    case h_11 =>
      cases p with
      | server => exact absurd tidy.1.1 finished
      | client =>
        cases moved
        simp [tlsRank, Tls.exit]
    case h_13 => cases moved
    all_goals exact absurd tidy.1.1 finished

theorem script_lowers (stepped : scriptStep s b = some q) :
    scriptRank q.script.pc + q.toQemu.length < scriptRank s.script.pc + s.toQemu.length := by
  unfold scriptStep at stepped
  split at stepped
  · rename_i at_ here
    rw [here]
    unfold mainOf at stepped
    split at stepped
    case h_2 | h_7 | h_9 =>
      obtain ⟨-, stepped⟩ := Option.ite_none_right_eq_some.mp stepped
      cases stepped
      simp [scriptRank]
    case h_4 =>
      obtain ⟨-, stepped⟩ := Option.ite_none_right_eq_some.mp stepped
      split at stepped
      · cases stepped
        simp [scriptRank]
      · cases stepped
        simp [scriptRank]
    case h_6 =>
      obtain ⟨-, stepped⟩ := Option.ite_none_right_eq_some.mp stepped
      obtain ⟨o, -, rfl⟩ := Option.map_eq_some_iff.mp stepped
      simp [scriptRank]
      omega
    all_goals cases stepped
    all_goals simp [scriptRank, Script.exit]
  · generalize s.script.pc = pc at *
    unfold receiveFd at stepped
    split at stepped
    case h_1 | h_4 =>
      obtain ⟨-, stepped⟩ := Option.ite_none_right_eq_some.mp stepped
      cases stepped
      simp [scriptRank]
    case h_3 =>
      split at stepped
      · cases stepped
      · cases stepped
        simp [scriptRank]
    all_goals cases stepped
    all_goals simp [scriptRank, Script.exit, System.hangUp]

def Live (p : Program) (base : Table Object) (s : System) : Prop :=
  Inv p base s ∧ s.tls.completed ≠ none

theorem step_lowers (live : Live p base s) (stepped : step p s act = some q) :
    handRank q ≤ handRank s ∧ (smooth act = true → handRank q < handRank s) := by
  cases act with
  | tls a =>
    have frame := tls_frame live.1.tidy stepped
    have lower := tls_lowers live.1.tidy live.2 stepped
    simp only [handRank, frame.script, frame.toQemu]
    omega
  | script b =>
    have lower := script_lowers stepped
    simp only [handRank, script_tls stepped]
    omega
  | qemuTakes =>
    simp only [step] at stepped
    split at stepped
    · cases stepped
    · rename_i o later waiting
      cases stepped
      simp [handRank, waiting]
  | qemuDrops =>
    cases stepped
    simp [handRank, smooth]

theorem step_completed {o : Object} (inv : Inv p base s) (stepped : step p s act = some q)
    (finished : s.tls.completed = some o) : q.tls.completed = some o := by
  cases act with
  | tls a => exact (tls_frame inv.tidy stepped).completed o finished
  | script b =>
    rw [script_tls stepped]
    exact finished
  | qemuTakes =>
    simp only [step] at stepped
    split at stepped
    · cases stepped
    · cases stepped
      exact finished
  | qemuDrops =>
    cases stepped
    exact finished

theorem step_live (live : Live p base s) (stepped : step p s act = some q) : Live p base q := by
  obtain ⟨inv, finished⟩ := live
  obtain ⟨o, found⟩ := Option.ne_none_iff_exists'.mp finished
  refine ⟨step_inv inv stepped, ?_⟩
  rw [step_completed inv stepped found]
  simp

theorem hand_ranked : Ranked (step p) smooth (Live p base) handRank where
  preserved := fun _ _ _ live stepped => step_live live stepped
  never := fun _ _ _ live stepped => (step_lowers live stepped).1
  lowers := fun _ _ _ live counts stepped => (step_lowers live stepped).2 counts

def Closed (s : System) : Prop := s.link = .closed ∧ s.message = []

def ReadyAt (s : System) : ScriptPc → Prop
  | .accept _ | .recvmsg _ _ | .closeConn _ _ => True
  | .closeSock _ | .unlink | .main .connect => Closed s
  | .main .queryStatus | .main .setParameters | .main .makeOwn | .main (.sendFdScm _)
  | .main .getfd | .main .migrate | .main .disconnect => s.script.qemp ≠ none ∧ Closed s
  | .exited => s.script.table = .empty ∧ Closed s

def Smooth (s : System) (act : Act) : Prop := ¬ Loses s act ∧ act ≠ .script .fails

instance (s : System) (act : Act) : Decidable (Smooth s act) :=
  inferInstanceAs (Decidable (¬ _ ∧ _ ≠ _))

theorem tls_closed (closed : Closed s) (stepped : tlsStep p s a = some q) : Closed q := by
  obtain ⟨link, empty⟩ := closed
  unfold tlsStep at stepped
  split at stepped
  · unfold prepareStep at stepped
    split at stepped
    case h_3 =>
      obtain ⟨⟨-, absent⟩, -⟩ := Option.ite_none_right_eq_some.mp stepped
      rw [link] at absent
      cases absent
    case h_6 =>
      obtain ⟨open_, -⟩ := Option.ite_none_right_eq_some.mp stepped
      rw [link] at open_
      simp at open_
    case h_7 =>
      obtain ⟨-, stepped⟩ := Option.ite_none_right_eq_some.mp stepped
      cases stepped
      exact ⟨link, empty⟩
    case h_10 =>
      cases p with
      | server | client =>
        cases stepped
        exact ⟨link, empty⟩
    all_goals cases stepped
    all_goals exact ⟨link, empty⟩
  · obtain ⟨t, -, rfl⟩ := Option.map_eq_some_iff.mp stepped
    exact ⟨link, empty⟩

theorem script_ready (ready : ReadyAt s s.script.pc) (stepped : scriptStep s b = some q)
    (calm : b ≠ .fails) : ReadyAt q q.script.pc := by
  unfold scriptStep at stepped
  split at stepped
  · rename_i at_ here
    rw [here] at ready
    unfold mainOf at stepped
    split at stepped
    case h_1 =>
      cases stepped
      exact ⟨by simp, ready⟩
    case h_2 | h_7 | h_9 =>
      obtain ⟨-, stepped⟩ := Option.ite_none_right_eq_some.mp stepped
      cases stepped
      exact ready
    case h_4 =>
      obtain ⟨-, stepped⟩ := Option.ite_none_right_eq_some.mp stepped
      split at stepped
      · cases stepped
        exact ready
      · cases stepped
        exact ready
    case h_5 =>
      cases stepped
      exact ready
    case h_6 =>
      obtain ⟨-, stepped⟩ := Option.ite_none_right_eq_some.mp stepped
      obtain ⟨o, -, rfl⟩ := Option.map_eq_some_iff.mp stepped
      exact ready
    case h_11 =>
      cases stepped
      exact ⟨rfl, ready.2⟩
    case h_16 => cases stepped
    all_goals exact absurd rfl calm
  · generalize s.script.pc = pc at *
    unfold receiveFd at stepped
    split at stepped
    case h_1 | h_4 =>
      obtain ⟨-, stepped⟩ := Option.ite_none_right_eq_some.mp stepped
      cases stepped
      trivial
    case h_3 =>
      split at stepped
      · cases stepped
      · cases stepped
        trivial
    case h_6 =>
      cases stepped
      exact ⟨rfl, rfl⟩
    case h_7 | h_8 =>
      cases stepped
      exact ready
    case h_10 => cases stepped
    all_goals exact absurd rfl calm

theorem ready_kept {pc : ScriptPc} (script : q.script = s.script) (closed : Closed s → Closed q)
    (ready : ReadyAt s pc) : ReadyAt q pc := by
  unfold ReadyAt at *
  rw [script]
  split at ready
  case h_1 | h_2 | h_3 => trivial
  case h_4 | h_5 | h_6 => exact closed ready
  all_goals exact ⟨ready.1, closed ready.2⟩

theorem step_ready (inv : Inv p base s) (ready : ReadyAt s s.script.pc)
    (stepped : step p s act = some q)
    (calm : Smooth s act) : ReadyAt q q.script.pc := by
  cases act with
  | tls a =>
    have script := (tls_frame inv.tidy stepped).script
    rw [script]
    exact ready_kept script (fun closed => tls_closed closed stepped) ready
  | script b => exact script_ready ready stepped fun same => calm.2 (same ▸ rfl)
  | qemuTakes =>
    simp only [step] at stepped
    split at stepped
    · cases stepped
    · cases stepped
      exact ready
  | qemuDrops => exact absurd trivial calm.1

/-- Where the script still has to run, it or the TLS program can. -/
theorem script_ended (inv : Inv p base s) (kept : KeptAt s s.script.pc)
    (ready : ReadyAt s s.script.pc) (finished : s.tls.completed ≠ none) (given : s.toQemu = [])
    (tlsStuck : tlsStep p s .works = none) (scriptStuck : scriptStep s .works = none) :
    s.script.pc = .exited := by
  have stage := inv.proper.stage
  have sending : ∀ {sd sockFd}, s.tls.pc = .prepare sd (.sendFd sockFd) →
      s.link = .queued ∨ s.link = .taken → False := by
    intro sd sockFd here opened
    have tidy := inv.tidy
    rw [Tidy, here] at tidy
    have there : s.tls.table.lookup sd = some s.tls.current :=
      tidy.2.lookup (by simp [prepareOpen])
    simp [tlsStep, here, prepareStep, opened, there] at tlsStuck
  cases here : s.script.pc with
  | accept sock =>
    rw [here] at kept
    rcases kept with ⟨absent, -, unfinished | ⟨sd, at_ | ⟨sockFd, at_⟩⟩⟩ | ⟨queued, -⟩
    · exact absurd unfinished finished
    · simp [tlsStep, at_, prepareStep] at tlsStuck
    · simp [tlsStep, at_, prepareStep, Script.listening, here, absent] at tlsStuck
    · simp [scriptStep, here, receiveFd, queued] at scriptStuck
  | recvmsg sock conn =>
    rw [here] at kept
    obtain ⟨taken, ⟨⟨sd, sockFd, at_⟩, -⟩ | ⟨⟨o, message⟩, -⟩⟩ := kept
    · exact absurd (.inr taken) (sending at_)
    · simp [scriptStep, here, receiveFd, message] at scriptStuck
  | closeConn sock conn | closeSock sock | unlink =>
    simp [scriptStep, here, receiveFd] at scriptStuck
  | exited => rfl
  | main at_ =>
    rw [here] at kept ready stage
    cases at_ with
    | connect | disconnect => simp [scriptStep, here, mainOf] at scriptStuck
    | queryStatus | migrate =>
      simp [scriptStep, here, mainOf, Option.isSome_iff_ne_none, ready.1] at scriptStuck
    | setParameters =>
      obtain ⟨fd, got⟩ := Option.ne_none_iff_exists'.mp kept.1
      simp [scriptStep, here, mainOf, Option.isSome_iff_ne_none, ready.1, got] at scriptStuck
    | makeOwn => exact absurd kept id
    | sendFdScm socket =>
      obtain ⟨k, -, there⟩ := stage.2.1 socket kept.1
      simp [scriptStep, here, mainOf, Option.isSome_iff_ne_none, ready.1, there] at scriptStuck
    | getfd =>
      simp [scriptStep, here, mainOf, Option.isSome_iff_ne_none, ready.1, given] at scriptStuck

theorem tls_ended (inv : Inv p base s) (sent : Sent s) (closed : Closed s)
    (tlsStuck : tlsStep p s .works = none) : s.tls.pc = .exited := by
  have tidy := inv.tidy
  obtain ⟨finished, late⟩ := sent
  cases here : s.tls.pc with
  | socket | accept | connect sd | handshake sd =>
    rw [Tidy, here] at tidy
    exact absurd tidy.1.1 finished
  | prepare sd at_ =>
    rw [here] at late
    cases at_ with
    | socket | connect sockFd | sendFd sockFd => cases late
    | recv sockFd => simp [tlsStep, here, prepareStep, closed.1] at tlsStuck
    | closeSock sockFd | closeFile => simp [tlsStep, here, prepareStep] at tlsStuck
  | shutdown sd | closeListener => simp [tlsStep, here, mainStep] at tlsStuck
  | close sd =>
    cases p with
    | server | client => simp [tlsStep, here, mainStep] at tlsStuck
  | exited => rfl

theorem stuck_done (live : Live p base s) (kept : KeptAt s s.script.pc)
    (ready : ReadyAt s s.script.pc) (stuck : Stuck (step p) smooth s) :
    s.tls.pc = .exited ∧ s.script.pc = .exited ∧ s.toQemu = [] := by
  obtain ⟨inv, finished⟩ := live
  have tlsStuck : tlsStep p s .works = none := stuck (.tls .works) rfl
  have given : s.toQemu = [] := by
    have waits := stuck .qemuTakes rfl
    cases there : s.toQemu with
    | nil => rfl
    | cons o later => simp [step, there] at waits
  have ended := script_ended inv kept ready finished given tlsStuck (stuck (.script .works) rfl)
  rw [ended] at kept ready
  exact ⟨tls_ended inv kept.2 ready.2 tlsStuck, ended, given⟩

theorem smooth_calm (usual : smooth act = true) : Smooth s act := by
  cases act with
  | tls a =>
    cases a with
    | works => exact ⟨id, by simp⟩
    | fails | again => cases usual
  | script b =>
    cases b with
    | works => exact ⟨id, by simp⟩
    | fails | eof | makesOwn c => cases usual
  | qemuTakes => exact ⟨id, by simp⟩
  | qemuDrops => cases usual

def OnCourse (p : Program) (base : Table Object) (s : System) : Prop :=
  Inv p base s ∧ KeptAt s s.script.pc ∧ ReadyAt s s.script.pc

theorem step_on_course (course : OnCourse p base s) (calm : Smooth s act)
    (stepped : step p s act = some q) : OnCourse p base q := by
  obtain ⟨inv, kept, ready⟩ := course
  exact ⟨step_inv inv stepped, step_kept inv kept stepped calm.1, step_ready inv ready stepped calm⟩

/-- Once the handshake is completed, and while no call has failed that should not, the hand-over
    can be brought to its end: both programs exit and only QEMU has the connection. -/
theorem hand_over_finishes {o : Object}
    (reached : Runs.run (step p) (init p tls script qemu) acts = some s)
    (calm : Runs.Along (step p) Smooth (init p tls script qemu) acts)
    (finished : s.tls.completed = some o) :
    ∃ rest q, (∀ act ∈ rest, smooth act = true) ∧ Runs.run (step p) s rest = some q ∧
      q.tls.pc = .exited ∧ q.script.pc = .exited ∧ q.qemu.Holds o ∧ o ∉ q.tls.shut ∧
      ¬ q.tls.table.Holds o ∧ o ∉ q.message ∧ ¬ q.script.table.Holds o ∧ o ∉ q.toQemu := by
  have course : OnCourse p (tlsBase tls p) s := by
    apply Runs.invariant_along (OnCourse p (tlsBase tls p)) ?_ ?_ calm reached
    · exact fun s act q course calm stepped => step_on_course course calm stepped
    · exact ⟨init_inv, .inl ⟨rfl, rfl, .inl rfl⟩, trivial⟩
  have live : Live p (tlsBase tls p) s := ⟨course.1, by simp [finished]⟩
  obtain ⟨rest, q, usual, later, stuck⟩ :=
    stuck_reachable hand_ranked (fun _ same => same) live
  have stays : Inv p (tlsBase tls p) q ∧ q.tls.completed = some o := by
    apply Runs.invariant_run (fun s => Inv p (tlsBase tls p) s ∧ s.tls.completed = some o) ?_ ?_
      later
    · rintro s act q ⟨inv, finished⟩ stepped
      exact ⟨step_inv inv stepped, step_completed inv stepped finished⟩
    · exact ⟨course.1, finished⟩
  obtain ⟨inv, kept, ready⟩ : OnCourse p (tlsBase tls p) q :=
    Runs.invariant_actions (OnCourse p (tlsBase tls p)) (fun act => smooth act = true)
      (fun s act q course usual stepped => step_on_course course (smooth_calm usual) stepped)
      course usual later
  obtain ⟨tlsEnded, scriptEnded, given⟩ :=
    stuck_done ⟨inv, by simp [stays.2]⟩ kept ready stuck
  have tidy := inv.tidy
  rw [Tidy, tlsEnded] at tidy
  rw [scriptEnded] at kept ready
  have taken : q.qemu.Holds o := by
    rcases kept.1 o stays.2 with sent | held
    · simp [given] at sent
    · exact held
  refine ⟨rest, q, usual, later, tlsEnded, scriptEnded, taken,
    (tidy_genuine inv.tidy stays.2).2, ?_, ?_, ?_, ?_⟩
  · rw [tidy.2]
    exact not_holds_empty
  · simp [ready.2.2]
  · rw [ready.1]
    exact not_holds_empty
  · simp [given]

theorem hand_over_finishes_first : ∃ s,
    Runs.run (step .server) (init .server [] [] []) [.tls .works, .tls .works] = some s ∧
    ∃ rest q, (∀ act ∈ rest, smooth act = true) ∧ Runs.run (step .server) s rest = some q ∧
      q.tls.pc = .exited ∧ q.qemu.Holds (.connection 0) := by
  obtain ⟨s, reached, finished⟩ : ∃ s,
      Runs.run (step .server) (init .server [] [] []) [.tls .works, .tls .works] = some s ∧
      s.tls.completed = some (.connection 0) :=
    Runs.reaches (by decide)
  obtain ⟨rest, q, usual, later, ended, -, taken, -⟩ :=
    hand_over_finishes reached (by decide) finished
  exact ⟨s, reached, rest, q, usual, later, ended, taken⟩

end HandOver
