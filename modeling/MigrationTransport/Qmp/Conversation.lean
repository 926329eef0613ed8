import MigrationTransport.Qmp.Scripts

/-!
What a script asks of QEMU, whatever QEMU answers and wherever a call raises or the script is
interrupted: its commands in their order and each once, then `query-migrate` and a sleep in turn,
and `disconnect` as its last call. What it prints is told by the calls that have returned.
-/
namespace Qmp

variable {script : Script} {qemu : Qemu} {h g : Host} {a : Act} {acts : List Act}

def round : List Call := [.execute .queryMigrate, .sleep 1]

/-- All that a script asks for in so many turns of its loop. -/
def dialogue (script : Script) (turns : Nat) : List Call :=
  .connect script.qmpSocketPath :: script.commands.map .execute ++
    (List.replicate turns round).flatten

def unfinished (info : MigrationInfo) : Bool := info.final.isNone

def report (script : Script) (info : MigrationInfo) : List Line :=
  .status info.statusText ::
    match info.final with
    | some final => [.final (script.finalText final)]
    | none => info.progress.toList.map .progress

def preamble (script : Script) (h : Host) : List String :=
  script.opening ++ (if h.connected then [connectedText script] else []) ++
    h.returned.flatMap fun r => script.told r.1 r.2

def Closing (h : Host) : Prop := h.pc = .disconnecting ∨ h.pc = .finished

theorem dialogue_succ (script : Script) (turns : Nat) :
    dialogue script (turns + 1) = dialogue script turns ++ round := by
  simp [dialogue, List.replicate_succ', List.flatten_append]

theorem dialogue_mono (script : Script) {n m : Nat} (less : n ≤ m) :
    dialogue script n <+: dialogue script m := by
  induction m with
  | zero =>
    have zero : n = 0 := by omega
    rw [zero]
  | succ m ih =>
    by_cases last : n = m + 1
    · rw [last]
    · apply (ih (by omega)).trans
      rw [dialogue_succ]
      exact List.prefix_append _ _

theorem query_begins (script : Script) (turns : Nat) :
    dialogue script turns ++ [.execute .queryMigrate] <+: dialogue script (turns + 1) := by
  rw [dialogue_succ]
  exact (List.prefix_append_right_inj _).mpr ⟨[.sleep 1], rfl⟩

/-- What the script has asked for and QEMU has carried out, at each of its awaits. -/
def Placed (script : Script) (qemu : Qemu) (h : Host) : Prop :=
  match h.pc with
  | .connecting => h.calls = [.connect script.qmpSocketPath] ∧ h.answers = [] ∧ h.qemu = qemu
  | .executing command rest => ∃ done, done ++ command :: rest = script.commands ∧
      h.calls = .connect script.qmpSocketPath :: (done ++ [command]).map .execute ∧
      h.answers = [] ∧ h.qemu = done.foldl Command.apply qemu
  | .querying => h.calls = dialogue script h.answers.length ++ [.execute .queryMigrate] ∧
      h.answers.all unfinished ∧ h.qemu = script.commands.foldl Command.apply qemu
  | .sleeping => h.calls = dialogue script h.answers.length ∧ h.answers.all unfinished ∧
      h.qemu = script.commands.foldl Command.apply qemu
  | .disconnecting | .finished => ∃ front done, h.calls = front ++ [.disconnect] ∧ front ≠ [] ∧
      front <+: dialogue script (h.answers.length + 1) ∧ h.answers.dropLast.all unfinished ∧
      done <+: script.commands ∧ h.qemu = done.foldl Command.apply qemu

theorem init_placed (script : Script) (qemu : Qemu) : Placed script qemu (init script qemu) := by
  simp [Placed, init]

theorem proceed_placed {done rest : List Command} (parts : done ++ rest = script.commands)
    (asked : h.calls = .connect script.qmpSocketPath :: done.map .execute)
    (unasked : h.answers = []) (carried : h.qemu = done.foldl Command.apply qemu) :
    Placed script qemu (proceed h rest) := by
  cases rest with
  | nil =>
    rw [List.append_nil] at parts
    simp [proceed, Placed, dialogue, asked, unasked, carried, parts]
  | cons command rest =>
    exact ⟨done, parts, by simp [proceed, asked], unasked, carried⟩

theorem leave_placed {front : List Call} {done : List Command} (asked : h.calls = front)
    (some : front ≠ []) (within : front <+: dialogue script (h.answers.length + 1))
    (before : h.answers.dropLast.all unfinished) (part : done <+: script.commands)
    (carried : h.qemu = done.foldl Command.apply qemu) : Placed script qemu (leave h) :=
  ⟨front, done, by simp [leave, asked], some, within, before, part, carried⟩

theorem opening_prefix {done rest : List Command} (parts : done ++ rest = script.commands)
    (turns : Nat) :
    .connect script.qmpSocketPath :: done.map .execute <+: dialogue script turns := by
  rw [dialogue, ← parts]
  exact ⟨rest.map .execute ++ (List.replicate turns round).flatten, by simp⟩

theorem all_dropLast {answers : List MigrationInfo} (all : answers.all unfinished) :
    answers.dropLast.all unfinished := by
  rw [List.all_eq_true] at all ⊢
  intro info member
  exact all info (List.dropLast_subset _ member)

theorem maybeApply_calls (h : Host) (applied : Bool) : (maybeApply h applied).calls = h.calls ∧
    (maybeApply h applied).answers = h.answers ∧ (maybeApply h applied).printed = h.printed := by
  unfold maybeApply
  cases awaited h.pc with
  | none => simp
  | some command => cases applied <;> simp

/-- A script leaves from any await: with what it had asked for, and with the awaited command
    carried out or not. -/
theorem gives_up (placed : Placed script qemu h) (running : ¬ Closing h) (applied : Bool) :
    ∃ front done, h.calls = front ∧ front ≠ [] ∧
      front <+: dialogue script (h.answers.length + 1) ∧ h.answers.dropLast.all unfinished ∧
      done <+: script.commands ∧ (maybeApply h applied).qemu = done.foldl Command.apply qemu := by
  cases pc : h.pc with
  | connecting =>
    simp only [Placed, pc] at placed
    obtain ⟨asked, unasked, carried⟩ := placed
    refine ⟨_, [], asked, by simp, ?_, by simp [unasked], List.nil_prefix, ?_⟩
    · exact opening_prefix (List.nil_append _) _
    · simp [maybeApply, awaited, pc, carried]
  | executing command rest =>
    simp only [Placed, pc] at placed
    obtain ⟨done, parts, asked, unasked, carried⟩ := placed
    have more : (done ++ [command]) ++ rest = script.commands := by simp [← parts]
    have within := opening_prefix more (h.answers.length + 1)
    cases applied with
    | true =>
      refine ⟨_, done ++ [command], asked, by simp, within, by simp [unasked], ⟨rest, more⟩, ?_⟩
      simp [maybeApply, awaited, pc, carried]
    | false =>
      refine ⟨_, done, asked, by simp, within, by simp [unasked], ⟨command :: rest, parts⟩, ?_⟩
      simp [maybeApply, awaited, pc, carried]
  | querying =>
    simp only [Placed, pc] at placed
    obtain ⟨asked, all, carried⟩ := placed
    refine ⟨_, _, asked, by simp, query_begins _ _, all_dropLast all, List.prefix_refl _, ?_⟩
    simp [maybeApply, awaited, pc, carried]
  | sleeping =>
    simp only [Placed, pc] at placed
    obtain ⟨asked, all, carried⟩ := placed
    refine ⟨_, _, asked, by simp [dialogue], dialogue_mono _ (by omega), all_dropLast all,
      List.prefix_refl _, ?_⟩
    simp [maybeApply, awaited, pc, carried]
  | disconnecting => exact absurd (.inl pc) running
  | finished => exact absurd (.inr pc) running

theorem gives_up_placed (placed : Placed script qemu h) (running : ¬ Closing h) (applied : Bool)
    (lines : List Line) : Placed script qemu (leave (say (maybeApply h applied) lines)) := by
  obtain ⟨front, done, asked, some, within, before, part, carried⟩ :=
    gives_up placed running applied
  obtain ⟨calls, answers, -⟩ := maybeApply_calls h applied
  have here : (say (maybeApply h applied) lines).calls = front := calls.trans asked
  have same : (say (maybeApply h applied) lines).answers = h.answers := answers
  rw [← same] at within before
  exact leave_placed here some within before part carried

theorem check_placed (placed : Placed script qemu h) (querying : h.pc = .querying)
    (info : MigrationInfo) : Placed script qemu (check script h info) := by
  simp only [Placed, querying] at placed
  obtain ⟨asked, all, carried⟩ := placed
  rw [check]
  cases ended : info.final with
  | some final =>
    have within : h.calls <+: dialogue script ((h.answers ++ [info]).length + 1) := by
      rw [asked]
      apply (query_begins script h.answers.length).trans
      exact dialogue_mono script (by simp)
    have before : (h.answers ++ [info]).dropLast.all unfinished := by simpa using all
    have some : h.calls ≠ [] := by simp [asked]
    exact ⟨h.calls, script.commands, rfl, some, within, before, List.prefix_refl _, carried⟩
  | none =>
    have more : (h.answers ++ [info]).all unfinished := by simpa [unfinished, ended] using all
    refine ⟨?_, more, carried⟩
    simp [say, asked, dialogue_succ, round]

theorem closing_placed (placed : Placed script qemu h) (closing : h.pc = .disconnecting) :
    Placed script qemu { h with pc := .finished } := by
  simpa [Placed, closing] using placed

theorem step_placed (placed : Placed script qemu h) (stepped : step script h a = some g) :
    Placed script qemu g := by
  cases a with
  | returns =>
    simp only [step] at stepped
    split at stepped
    case h_1 connecting =>
      cases stepped
      simp only [Placed, connecting] at placed
      obtain ⟨asked, unasked, carried⟩ := placed
      exact proceed_placed (List.nil_append _) (by simpa [say] using asked) unasked carried
    case h_2 sleeping =>
      cases stepped
      simp only [Placed, sleeping] at placed
      obtain ⟨asked, all, carried⟩ := placed
      exact ⟨by simp [proceed, asked], all, carried⟩
    case h_3 closing =>
      cases stepped
      exact closing_placed placed closing
    all_goals cases stepped
  | replies result =>
    simp only [step] at stepped
    split at stepped
    case h_1 command rest executing =>
      cases stepped
      simp only [Placed, executing] at placed
      obtain ⟨done, parts, asked, unasked, carried⟩ := placed
      have more : (done ++ [command]) ++ rest = script.commands := by simp [← parts]
      exact proceed_placed more asked unasked (by simp [say, carried])
    case h_2 => cases stepped
  | answers info =>
    obtain ⟨querying, same⟩ := Option.ite_none_right_eq_some.mp stepped
    cases same
    exact check_placed placed querying info
  | raises applied text =>
    simp only [step] at stepped
    split at stepped
    case h_4 closing =>
      cases stepped
      exact closing_placed placed closing
    case h_1 here | h_2 here | h_3 here =>
      cases stepped
      exact gives_up_placed placed (by simp [Closing, here]) applied _
    all_goals cases stepped
  | interrupted applied =>
    simp only [step] at stepped
    split at stepped
    case h_5 closing =>
      cases stepped
      exact closing_placed placed closing
    case h_1 here | h_2 here | h_3 here | h_4 here =>
      cases stepped
      have left := gives_up_placed placed (by simp [Closing, here]) applied []
      simpa [say] using left
    all_goals cases stepped

/-- The commands before the loop that have returned, at each of the script's awaits. -/
def ReturnedAt (script : Script) (h : Host) : Pc → Prop
  | .connecting => h.connected = false ∧ h.returned = []
  | .executing command rest =>
    h.connected = true ∧ h.returned.map Prod.fst ++ command :: rest = script.commands
  | .querying | .sleeping => h.connected = true ∧ h.returned.map Prod.fst = script.commands
  | .disconnecting | .finished => h.returned.map Prod.fst <+: script.commands ∧
      (h.connected = false → h.returned = []) ∧
      (h.answers ≠ [] → h.connected = true ∧ h.returned.map Prod.fst = script.commands)

theorem proceed_returned {rest : List Command} (connected : h.connected = true)
    (parts : h.returned.map Prod.fst ++ rest = script.commands) :
    ReturnedAt script (proceed h rest) (proceed h rest).pc := by
  cases rest with
  | nil => exact ⟨connected, by simpa [proceed] using parts⟩
  | cons command rest => exact ⟨connected, parts⟩

theorem running_returned (placed : Placed script qemu h) (returned : ReturnedAt script h h.pc)
    (running : ¬ Closing h) : ReturnedAt script h .disconnecting := by
  cases pc : h.pc with
  | connecting =>
    simp only [Placed, pc] at placed
    simp only [ReturnedAt, pc] at returned ⊢
    simp [returned.2, placed.2.1]
  | executing command rest =>
    simp only [Placed, pc] at placed
    obtain ⟨-, -, -, unasked, -⟩ := placed
    rw [pc] at returned
    exact ⟨⟨_, returned.2⟩, by simp [returned.1], by simp [unasked]⟩
  | querying | sleeping =>
    rw [pc] at returned
    exact ⟨returned.2 ▸ List.prefix_refl _, by simp [returned.1], fun _ => returned⟩
  | disconnecting => exact absurd (.inl pc) running
  | finished => exact absurd (.inr pc) running

theorem leave_returned (returned : ReturnedAt script h .disconnecting) (applied : Bool)
    (lines : List Line) : ReturnedAt script (leave (say (maybeApply h applied) lines))
      (leave (say (maybeApply h applied) lines)).pc := by
  have same : (maybeApply h applied).connected = h.connected ∧
      (maybeApply h applied).returned = h.returned ∧
      (maybeApply h applied).answers = h.answers := by
    unfold maybeApply
    cases awaited h.pc with
    | none => simp
    | some command => cases applied <;> simp
  obtain ⟨connected, commands, answers⟩ := same
  simpa [ReturnedAt, leave, say, connected, commands, answers] using returned

theorem check_returned (returned : ReturnedAt script h .querying) (info : MigrationInfo) :
    ReturnedAt script (check script h info) (check script h info).pc := by
  obtain ⟨connected, all⟩ := returned
  rw [check]
  cases info.final with
  | some final =>
    exact ⟨all ▸ List.prefix_refl _, by simp [leave, say, connected], fun _ => ⟨connected, all⟩⟩
  | none => exact ⟨connected, all⟩

theorem step_returned (placed : Placed script qemu h) (returned : ReturnedAt script h h.pc)
    (stepped : step script h a = some g) : ReturnedAt script g g.pc := by
  cases a with
  | returns =>
    simp only [step] at stepped
    split at stepped
    case h_1 here =>
      cases stepped
      rw [here] at returned
      exact proceed_returned rfl (by simp [say, returned.2])
    case h_2 here =>
      cases stepped
      rw [here] at returned
      exact returned
    case h_3 here =>
      cases stepped
      rw [here] at returned
      exact returned
    all_goals cases stepped
  | replies result =>
    simp only [step] at stepped
    split at stepped
    case h_1 command rest here =>
      cases stepped
      rw [here] at returned
      exact proceed_returned returned.1 (by simp [say, ← returned.2])
    case h_2 => cases stepped
  | answers info =>
    obtain ⟨querying, same⟩ := Option.ite_none_right_eq_some.mp stepped
    cases same
    rw [querying] at returned
    exact check_returned returned info
  | raises applied text =>
    simp only [step] at stepped
    split at stepped
    case h_1 here | h_2 here | h_3 here =>
      cases stepped
      have before := running_returned placed returned (by simp [Closing, here])
      exact leave_returned before applied _
    case h_4 here =>
      cases stepped
      rw [here] at returned
      exact returned
    all_goals cases stepped
  | interrupted applied =>
    simp only [step] at stepped
    split at stepped
    case h_1 here | h_2 here | h_3 here | h_4 here =>
      cases stepped
      have before := running_returned placed returned (by simp [Closing, here])
      simpa [say] using leave_returned before applied []
    case h_5 here =>
      cases stepped
      rw [here] at returned
      exact returned
    all_goals cases stepped

/-- The sleeps and the lines that the calls have led to, and at most one line of an error. -/
structure Told (script : Script) (h : Host) : Prop where
  sleeps : h.calls.count (.sleep 1) = h.answers.countP unfinished
  lines : ∃ tail, h.printed =
      (preamble script h).map .setUp ++ h.answers.flatMap (report script) ++ tail ∧
    (tail = [] ∨ Closing h ∧ h.answers.all unfinished ∧ ∃ text, tail = [.error text])
  ended : Closing h ∨ h.answers.all unfinished

theorem init_told (script : Script) (qemu : Qemu) : Told script (init script qemu) := by
  refine ⟨by simp [init], ⟨[], by simp [init, preamble]⟩, by simp [init]⟩

/-- Before the `finally` block no answer has ended the loop and nothing has raised. -/
theorem running_told (told : Told script h) (running : ¬ Closing h) :
    h.printed = (preamble script h).map .setUp ++ h.answers.flatMap (report script) ∧
      h.answers.all unfinished := by
  obtain ⟨tail, lines, rfl | ⟨closing, -⟩⟩ := told.lines
  · exact ⟨by simpa using lines, told.ended.resolve_left running⟩
  · exact absurd closing running

theorem proceed_told (sleeps : h.calls.count (.sleep 1) = h.answers.countP unfinished)
    (lines : h.printed = (preamble script h).map .setUp ++ h.answers.flatMap (report script))
    (all : h.answers.all unfinished) (rest : List Command) : Told script (proceed h rest) := by
  cases rest with
  | nil =>
    refine ⟨?_, ⟨[], (List.append_nil _).symm ▸ lines, .inl rfl⟩, .inr all⟩
    simpa [proceed, List.count_append] using sleeps
  | cons command rest =>
    refine ⟨?_, ⟨[], (List.append_nil _).symm ▸ lines, .inl rfl⟩, .inr all⟩
    simpa [proceed, List.count_append] using sleeps

theorem maybeApply_preamble (h : Host) (applied : Bool) :
    preamble script (maybeApply h applied) = preamble script h := by
  unfold maybeApply
  cases awaited h.pc with
  | none => rfl
  | some command => cases applied <;> rfl

theorem gives_up_told (told : Told script h) (running : ¬ Closing h) (applied : Bool)
    {tail : List Line} (error : tail = [] ∨ ∃ text, tail = [.error text]) :
    Told script (leave (say (maybeApply h applied) tail)) := by
  obtain ⟨lines, all⟩ := running_told told running
  obtain ⟨calls, answers, printed⟩ := maybeApply_calls h applied
  have before : preamble script (leave (say (maybeApply h applied) tail)) = preamble script h :=
    maybeApply_preamble h applied
  have sleeps := told.sleeps
  refine ⟨?_, ⟨tail, ?_, ?_⟩, .inl (.inl rfl)⟩
  · simpa [leave, say, calls, answers, List.count_append] using sleeps
  · rw [before]
    simp [leave, say, answers, printed, lines]
  · rcases error with none | some
    · exact .inl none
    · exact .inr ⟨.inl rfl, by simpa [leave, say, answers] using all, some⟩

theorem check_told (told : Told script h) (running : ¬ Closing h) (info : MigrationInfo) :
    Told script (check script h info) := by
  obtain ⟨lines, all⟩ := running_told told running
  have sleeps := told.sleeps
  rw [check]
  cases ended : info.final with
  | some final =>
    have last : unfinished info = false := by simp [unfinished, ended]
    refine ⟨?_, ⟨[], ?_, .inl rfl⟩, .inl (.inl rfl)⟩
    · simpa [leave, say, List.count_append, last] using sleeps
    · simp [leave, say, preamble, lines, report, ended]
  | none =>
    have more : unfinished info = true := by simp [unfinished, ended]
    refine ⟨?_, ⟨[], ?_, .inl rfl⟩, .inr ?_⟩
    · simpa [say, List.count_append, more] using sleeps
    · simp [say, preamble, lines, report, ended]
    · simpa [say, more] using all

theorem closed_told (told : Told script h) :
    Told script { h with pc := .finished } := by
  obtain ⟨tail, lines, rfl | ⟨-, all, error⟩⟩ := told.lines
  · exact ⟨told.sleeps, ⟨[], lines, .inl rfl⟩, .inl (.inr rfl)⟩
  · exact ⟨told.sleeps, ⟨tail, lines, .inr ⟨.inr rfl, all, error⟩⟩, .inl (.inr rfl)⟩

theorem step_told (placed : Placed script qemu h) (returned : ReturnedAt script h h.pc)
    (told : Told script h) (stepped : step script h a = some g) : Told script g := by
  cases a with
  | returns =>
    simp only [step] at stepped
    split at stepped
    case h_1 here =>
      cases stepped
      simp only [Placed, here] at placed
      simp only [ReturnedAt, here] at returned
      obtain ⟨lines, all⟩ := running_told told (by simp [Closing, here])
      apply proceed_told
      · exact told.sleeps
      · simp [say, lines, preamble, returned, placed.2.1]
      · exact all
    case h_2 here =>
      cases stepped
      obtain ⟨lines, all⟩ := running_told told (by simp [Closing, here])
      exact proceed_told told.sleeps lines all _
    case h_3 =>
      cases stepped
      exact closed_told told
    all_goals cases stepped
  | replies result =>
    simp only [step] at stepped
    split at stepped
    case h_1 command rest here =>
      cases stepped
      simp only [Placed, here] at placed
      obtain ⟨-, -, -, unasked, -⟩ := placed
      obtain ⟨lines, all⟩ := running_told told (by simp [Closing, here])
      apply proceed_told
      · exact told.sleeps
      · simp [say, lines, preamble, unasked]
      · exact all
    case h_2 => cases stepped
  | answers info =>
    obtain ⟨querying, same⟩ := Option.ite_none_right_eq_some.mp stepped
    cases same
    exact check_told told (by simp [Closing, querying]) info
  | raises applied text =>
    simp only [step] at stepped
    split at stepped
    case h_1 here | h_2 here | h_3 here =>
      cases stepped
      exact gives_up_told told (by simp [Closing, here]) applied (.inr ⟨_, rfl⟩)
    case h_4 =>
      cases stepped
      exact closed_told told
    all_goals cases stepped
  | interrupted applied =>
    simp only [step] at stepped
    split at stepped
    case h_1 here | h_2 here | h_3 here | h_4 here =>
      cases stepped
      have left := gives_up_told told (by simp [Closing, here]) applied (.inl rfl)
      simpa [say] using left
    case h_5 =>
      cases stepped
      exact closed_told told
    all_goals cases stepped

theorem reached_placed (reached : Runs.run (step script) (init script qemu) acts = some h) :
    Placed script qemu h :=
  Runs.invariant_run (Placed script qemu) (fun _ _ _ placed stepped => step_placed placed stepped)
    (init_placed script qemu) reached

/-- What a script has asked for is a beginning of its dialogue, and `disconnect` once it is in
    its `finally` block: so it starts the migration once at most, and not before the commands
    that set it up have returned. -/
theorem conversation_kept
    (reached : Runs.run (step script) (init script qemu) acts = some h) :
    ∃ front turns, front ≠ [] ∧ front <+: dialogue script turns ∧
      (¬ Closing h ∧ h.calls = front ∨ Closing h ∧ h.calls = front ++ [.disconnect]) := by
  have placed := reached_placed reached
  by_cases closing : Closing h
  · have left : ∃ front done, h.calls = front ++ [.disconnect] ∧ front ≠ [] ∧
        front <+: dialogue script (h.answers.length + 1) ∧ h.answers.dropLast.all unfinished ∧
        done <+: script.commands ∧ h.qemu = done.foldl Command.apply qemu := by
      rcases closing with here | here <;> simpa [Placed, here] using placed
    obtain ⟨front, -, calls, some, within, -⟩ := left
    exact ⟨front, _, some, within, .inr ⟨closing, calls⟩⟩
  · obtain ⟨front, -, calls, some, within, -⟩ := gives_up placed closing false
    exact ⟨front, _, some, within, .inl ⟨closing, calls⟩⟩

def tcpSender : Script := migrateVmTcpForwarded "/tmp/qemu-monitor.sock" none

/-- The second command raises after QEMU has carried it out. -/
def refusedSetup : List Act := [.returns, .replies "running", .raises true "timeout", .returns]

theorem conversation_kept_refused : ∃ h,
    Runs.run (step tcpSender) (init tcpSender .idle) refusedSetup = some h ∧
    h.pc = .finished ∧ h.qemu.capabilities = [("multifd", true)] ∧
    ∃ front turns, front <+: dialogue tcpSender turns ∧ h.calls = front ++ [.disconnect] := by
  obtain ⟨h, reached, finished, applied⟩ : ∃ h,
      Runs.run (step tcpSender) (init tcpSender .idle) refusedSetup = some h ∧
      h.pc = .finished ∧ h.qemu.capabilities = [("multifd", true)] :=
    Runs.reaches (by decide)
  obtain ⟨front, turns, -, within, ⟨running, -⟩ | ⟨-, calls⟩⟩ := conversation_kept reached
  · exact absurd (.inr finished) running
  · exact ⟨h, reached, finished, applied, front, turns, within, calls⟩

/-- The loop sleeps once after each answer that is not final, no answer but the last is final, and
    the lines printed are those about the calls that have returned and about the answers, with an
    error after them only if none was final. -/
theorem answers_reported
    (reached : Runs.run (step script) (init script qemu) acts = some h) :
    h.calls.count (.sleep 1) = h.answers.countP unfinished ∧ h.answers.dropLast.all unfinished ∧
    h.returned.map Prod.fst <+: script.commands ∧ (h.connected = false → h.returned = []) ∧
    (h.answers ≠ [] → h.connected = true ∧ h.returned.map Prod.fst = script.commands) ∧
    ∃ tail, h.printed =
        (preamble script h).map .setUp ++ h.answers.flatMap (report script) ++ tail ∧
      (tail = [] ∨ Closing h ∧ h.answers.all unfinished ∧ ∃ text, tail = [.error text]) := by
  obtain ⟨placed, returned, told⟩ : Placed script qemu h ∧ ReturnedAt script h h.pc ∧
      Told script h := by
    apply Runs.invariant_run
      (fun h => Placed script qemu h ∧ ReturnedAt script h h.pc ∧ Told script h) ?_ ?_ reached
    · rintro h a g ⟨placed, returned, told⟩ stepped
      exact ⟨step_placed placed stepped, step_returned placed returned stepped,
        step_told placed returned told stepped⟩
    · exact ⟨init_placed script qemu, ⟨rfl, rfl⟩, init_told script qemu⟩
  have commands : ReturnedAt script h .disconnecting := by
    by_cases closing : Closing h
    · rcases closing with here | here <;> (rw [here] at returned; exact returned)
    · exact running_returned placed returned closing
  refine ⟨told.sleeps, ?_, commands.1, commands.2.1, commands.2.2, told.lines⟩
  rcases told.ended with closing | all
  · rcases closing with here | here <;> simp only [Placed, here] at placed <;>
      exact placed.choose_spec.choose_spec.2.2.2.1
  · exact all_dropLast all

def halfWay : MigrationInfo := ⟨some "active", some ⟨some 512, some 1024⟩⟩

def completed : MigrationInfo := ⟨some "completed", none⟩

def twoTurns : List Act :=
  [.returns, .replies "running"] ++ List.replicate 3 (.replies "{}") ++
    [.answers halfWay, .returns, .answers completed, .returns]

theorem answers_reported_twice : ∃ h,
    Runs.run (step tcpSender) (init tcpSender .idle) twoTurns = some h ∧
    h.answers = [halfWay, completed] ∧ h.calls.count (.sleep 1) = 1 ∧
    h.printed = [.setUp "Connected to QMP socket: /tmp/qemu-monitor.sock",
      .setUp "VM Status: running", .setUp "Enabling multifd migration capability",
      .setUp "Setting migration multfd channels to 2...",
      .setUp "Migration parameters configured successfully",
      .setUp "Starting migration to: unix:/tmp/qemu_migration_source.sock",
      .setUp "Migration command result: {}", .status "active", .progress 50, .status "completed",
      .final "Migration completed successfully!"] := by
  obtain ⟨h, reached, answers, connected, returned⟩ : ∃ h,
      Runs.run (step tcpSender) (init tcpSender .idle) twoTurns = some h ∧
      h.answers = [halfWay, completed] ∧ h.connected = true ∧
      h.returned = [(.queryStatus, "running"), (multifd, "{}"), (.migrateSetParameters 1, "{}"),
        (.migrate "unix:/tmp/qemu_migration_source.sock", "{}")] :=
    Runs.reaches (by decide)
  obtain ⟨sleeps, -, -, -, -, tail, printed, rfl | ⟨-, all, -⟩⟩ := answers_reported reached
  · rw [preamble, connected, returned] at printed
    rw [answers] at sleeps printed
    exact ⟨h, reached, answers, sleeps, printed.trans (by decide +kernel)⟩
  · rw [answers] at all
    simp [completed, unfinished, MigrationInfo.final, MigrationInfo.statusText] at all

end Qmp
