import MigrationTransport.Qmp.Conversation

/-!
The two scripts of one migration, each beside its own QEMU. They run on two hosts and share
nothing, so what the two QEMUs have to agree on is in the scripts: multifd on both sides, with
the same number of channels, before either is told to start.
-/
namespace TwoHosts
open Qmp

inductive Transport where
  | tcp
  | webSocket
  deriving DecidableEq

def Transport.sender : Transport → String → Option String → Script
  | .tcp => migrateVmTcpForwarded
  | .webSocket => migrateVmWebsocketForwarded

def Transport.receiver : Transport → String → Option String → Script
  | .tcp => setupIncomingMigrationTcpForwarded
  | .webSocket => setupIncomingMigrationWebsocketForwarded

def Transport.channels : Transport → Nat
  | .tcp => 1
  | .webSocket => 2

structure Paths where
  sourceQmp : String
  source : Option String
  destinationQmp : String
  destination : Option String

structure Hosts where
  source : Host
  destination : Host
  deriving DecidableEq

inductive Act where
  | source (a : Qmp.Act)
  | destination (a : Qmp.Act)
  deriving DecidableEq

section Migration
variable (transport : Transport) (paths : Paths)

def sender : Script := transport.sender paths.sourceQmp paths.source

def receiver : Script := transport.receiver paths.destinationQmp paths.destination

def init (left right : Qemu) : Hosts where
  source := Qmp.init (sender transport paths) left
  destination := Qmp.init (receiver transport paths) right

def step (s : Hosts) : Act → Option Hosts
  | .source a =>
    (Qmp.step (sender transport paths) s.source a).map fun h => { s with source := h }
  | .destination a =>
    (Qmp.step (receiver transport paths) s.destination a).map fun h => { s with destination := h }

end Migration

structure Prepared (transport : Transport) (qemu : Qemu) : Prop where
  multifd : qemu.capabilities.lookup "multifd" = some true
  channels : qemu.multifdChannels = some transport.channels

variable {transport : Transport} {paths : Paths} {left right : Qemu} {s : Hosts}
  {acts : List Act} {script : Script} {qemu : Qemu} {h : Host} {uri : String}

/-- QEMU has carried out a beginning of the script's commands, in order. -/
theorem placed_carried (placed : Placed script qemu h) :
    ∃ done, done <+: script.commands ∧ h.qemu = done.foldl Command.apply qemu := by
  by_cases closing : Closing h
  · rcases closing with here | here
    · simp only [Placed, here] at placed
      obtain ⟨-, done, -, -, -, -, part, carried⟩ := placed
      exact ⟨done, part, carried⟩
    · simp only [Placed, here] at placed
      obtain ⟨-, done, -, -, -, -, part, carried⟩ := placed
      exact ⟨done, part, carried⟩
  · obtain ⟨-, done, -, -, -, -, part, carried⟩ := gives_up placed closing false
    have same : (maybeApply h false).qemu = h.qemu := by
      unfold maybeApply
      cases awaited h.pc <;> simp
    exact ⟨done, part, same ▸ carried⟩

theorem reached_source
    (reached : Runs.run (step transport paths) (init transport paths left right) acts = some s) :
    Placed (sender transport paths) left s.source :=
  Runs.invariant_run (fun s => Placed (sender transport paths) left s.source)
    (by
      intro s a t placed stepped
      cases a <;> obtain ⟨h, moved, rfl⟩ := Option.map_eq_some_iff.mp stepped
      · exact step_placed placed moved
      · exact placed)
    (init_placed (sender transport paths) left) reached

theorem reached_destination
    (reached : Runs.run (step transport paths) (init transport paths left right) acts = some s) :
    Placed (receiver transport paths) right s.destination :=
  Runs.invariant_run (fun s => Placed (receiver transport paths) right s.destination)
    (by
      intro s a t placed stepped
      cases a <;> obtain ⟨h, moved, rfl⟩ := Option.map_eq_some_iff.mp stepped
      · exact placed
      · exact step_placed placed moved)
    (init_placed (receiver transport paths) right) reached

def setUp (qemu : Qemu) (channels : Nat) : Qemu :=
  { qemu with capabilities := ("multifd", true) :: qemu.capabilities, multifdChannels := channels }

/-- The command that starts a migration is a script's fourth, behind the two that prepare it. -/
theorem start_last {channels : Nat} {start : Command} {done : List Command}
    (part : done <+: [.queryStatus, multifd, .migrateSetParameters channels, start]) :
    (done.foldl Command.apply qemu).outgoing = qemu.outgoing ∧
        (done.foldl Command.apply qemu).incoming = qemu.incoming ∨
      done.foldl Command.apply qemu = start.apply (setUp qemu channels) := by
  simp only [List.prefix_cons_iff, List.prefix_nil] at part
  rcases part with rfl | ⟨_, rfl, rfl | ⟨_, rfl, rfl | ⟨_, rfl, rfl | ⟨_, rfl, rfl⟩⟩⟩⟩
  case inr.inr.inr.inr => exact .inr rfl
  all_goals exact .inl ⟨rfl, rfl⟩

theorem sender_prepared (placed : Placed (sender transport paths) qemu h)
    (fresh : qemu.outgoing = none) (started : h.qemu.outgoing = some uri) :
    uri = unixUri paths.source sourceSocket ∧ Prepared transport h.qemu := by
  obtain ⟨done, part, carried⟩ := placed_carried placed
  have commands : (sender transport paths).commands = [.queryStatus, multifd,
      .migrateSetParameters transport.channels, .migrate (unixUri paths.source sourceSocket)] := by
    cases transport <;> rfl
  rw [commands] at part
  rw [carried] at started ⊢
  rcases start_last part with ⟨unsent, -⟩ | all
  · rw [unsent, fresh] at started
    cases started
  · rw [all] at started ⊢
    exact ⟨(Option.some.inj started).symm, by simp [Command.apply, setUp], rfl⟩

theorem receiver_prepared (placed : Placed (receiver transport paths) qemu h)
    (fresh : qemu.incoming = none) (started : h.qemu.incoming = some uri) :
    uri = unixUri paths.destination destinationSocket ∧ Prepared transport h.qemu := by
  obtain ⟨done, part, carried⟩ := placed_carried placed
  have commands : (receiver transport paths).commands = [.queryStatus, multifd,
      .migrateSetParameters transport.channels,
      .migrateIncoming (unixUri paths.destination destinationSocket)] := by
    cases transport <;> rfl
  rw [commands] at part
  rw [carried] at started ⊢
  rcases start_last part with ⟨-, unsent⟩ | all
  · rw [unsent, fresh] at started
    cases started
  · rw [all] at started ⊢
    exact ⟨(Option.some.inj started).symm, by simp [Command.apply, setUp], rfl⟩

theorem uri_of_proxy {path : Option String} (given : path ≠ some "") (default : String) :
    unixUri path default = "unix:" ++ proxySocket path default := by
  cases path with
  | none => rfl
  | some text =>
    have nonempty : text ≠ "" := by
      intro empty
      exact given (by rw [empty])
    simp [unixUri, proxySocket, nonempty]

/-- A QEMU that has started has been prepared, so two that have started agree. It reaches the
    proxy of its side if both were given one path, or none. -/
theorem settings_agree (freshSource : left.outgoing = none) (freshTarget : right.incoming = none)
    (reached : Runs.run (step transport paths) (init transport paths left right) acts = some s) :
    (∀ uri, s.source.qemu.outgoing = some uri → Prepared transport s.source.qemu ∧
      (paths.source ≠ some "" → uri = "unix:" ++ proxySocket paths.source sourceSocket)) ∧
    (∀ uri, s.destination.qemu.incoming = some uri → Prepared transport s.destination.qemu ∧
      (paths.destination ≠ some "" →
        uri = "unix:" ++ proxySocket paths.destination destinationSocket)) ∧
    (s.source.qemu.outgoing.isSome → s.destination.qemu.incoming.isSome →
      s.source.qemu.multifdChannels = s.destination.qemu.multifdChannels) := by
  have atSource := reached_source reached
  have atTarget := reached_destination reached
  refine ⟨?_, ?_, ?_⟩
  · intro uri started
    obtain ⟨rfl, prepared⟩ := sender_prepared atSource freshSource started
    exact ⟨prepared, fun given => uri_of_proxy given sourceSocket⟩
  · intro uri started
    obtain ⟨rfl, prepared⟩ := receiver_prepared atTarget freshTarget started
    exact ⟨prepared, fun given => uri_of_proxy given destinationSocket⟩
  · intro sends receives
    obtain ⟨uri, started⟩ := Option.isSome_iff_exists.mp sends
    obtain ⟨other, listening⟩ := Option.isSome_iff_exists.mp receives
    have prepared := (sender_prepared atSource freshSource started).2
    have ready := (receiver_prepared atTarget freshTarget listening).2
    rw [prepared.channels, ready.channels]

def defaults : Paths := ⟨"/tmp/qemu-monitor.sock", none, "/tmp/qemu-monitor.sock", none⟩

/-- Both start, and the destination's script fails after that. -/
def bothStart : List Act :=
  [.source .returns, .destination .returns] ++ List.replicate 4 (.source (.replies "{}")) ++
    List.replicate 3 (.destination (.replies "{}")) ++
    [.destination (.raises true "connection lost")]

theorem settings_agree_both : ∃ s,
    Runs.run (step .webSocket defaults) (init .webSocket defaults .idle .idle) bothStart = some s ∧
    s.source.qemu.outgoing = some "unix:/tmp/qemu_migration_source.sock" ∧
    s.destination.qemu.incoming = some "unix:/tmp/qemu_migration_dest.sock" ∧
    s.source.qemu.multifdChannels = s.destination.qemu.multifdChannels := by
  obtain ⟨s, reached, sends, receives⟩ : ∃ s,
      Runs.run (step .webSocket defaults) (init .webSocket defaults .idle .idle) bothStart =
        some s ∧
      s.source.qemu.outgoing = some "unix:/tmp/qemu_migration_source.sock" ∧
      s.destination.qemu.incoming = some "unix:/tmp/qemu_migration_dest.sock" :=
    Runs.reaches (by decide)
  exact ⟨s, reached, sends, receives,
    (settings_agree rfl rfl reached).2.2 (by simp [sends]) (by simp [receives])⟩

end TwoHosts
