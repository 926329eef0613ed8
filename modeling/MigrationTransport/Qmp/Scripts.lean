import MigrationTransport.Lib.Runs

/-!
The scripts that drive QEMU: `unix-send-tcp.py` and `unix-send-websocket.py` on the host that
the virtual machine leaves, `unix-receive-tcp.py` and `unix-receive-websocket.py` on the host
that it goes to. Each connects to QEMU's QMP socket, executes its commands one after another,
asks for the state of the migration every second until it is over, and disconnects.
-/
namespace Qmp

/-- A QMP command with the arguments that the scripts give it. -/
inductive Command where
  | queryStatus
  | migrateSetCapabilities (capability : String) (state : Bool)
  | migrateSetParameters (multifdChannels : Nat)
  | migrate (uri : String)
  | migrateIncoming (uri : String)
  | queryMigrate
  deriving DecidableEq

structure Ram where
  transferred : Option Int
  total : Option Int
  deriving DecidableEq

structure MigrationInfo where
  status : Option String
  ram : Option Ram
  deriving DecidableEq

inductive Final where
  | completed
  | failed
  | cancelled
  deriving DecidableEq

def MigrationInfo.statusText (info : MigrationInfo) : String := info.status.getD "unknown"

def MigrationInfo.final (info : MigrationInfo) : Option Final :=
  if info.statusText = "completed" then some .completed
  else if info.statusText = "failed" then some .failed
  else if info.statusText = "cancelled" then some .cancelled
  else none

def MigrationInfo.progress (info : MigrationInfo) : Option ℚ :=
  if info.statusText = "active" then
    info.ram.bind fun ram =>
      if ram.total.getD 0 > 0 then
        some ((ram.transferred.getD 0 : ℚ) / (ram.total.getD 0 : ℚ) * 100)
      else none
  else none

/-- What one script has of its own: the QMP socket, the commands before the loop, and its texts.
    `told` are the lines that it prints once a command has returned, up to the next await. -/
structure Script where
  qmpSocketPath : String
  commands : List Command
  opening : List String
  told : Command → String → List String
  finalText : Final → String
  errorText : String

def multifd : Command := .migrateSetCapabilities "multifd" true

def sendText : Final → String
  | .completed => "Migration completed successfully!"
  | .failed => "Migration failed!"
  | .cancelled => "Migration was cancelled!"

def receiveText : Final → String
  | .completed => "Migration received successfully!"
  | .failed => "Migration reception failed!"
  | .cancelled => "Migration was cancelled!"

/-- `f"unix:{tcp_unix_socket_path}"`, with the default for `None`. -/
def unixUri (path : Option String) (default : String) : String := "unix:" ++ path.getD default

def sourceSocket : String := "/tmp/qemu_migration_source.sock"

def destinationSocket : String := "/tmp/qemu_migration_dest.sock"

/-- `unix_socket_path or '...'` in the `__init__` of the proxies: where `MigrationTCPClient` and
    `MigrationWebSocketClient` listen, and where the two servers connect to. -/
def proxySocket (path : Option String) (default : String) : String :=
  match path with
  | none => default
  | some given => if given = "" then default else given

/-- What all four scripts print between their commands, but for the texts in which they differ. -/
def setUpTold (setting : String) (configured : List String) (start : String)
    (started : String → List String) : Command → String → List String
  | .queryStatus, result =>
    ["VM Status: " ++ result, "Enabling multifd migration capability"]
  | .migrateSetCapabilities _ _, _ => [setting]
  | .migrateSetParameters _, _ => configured ++ [start]
  | .migrate _, result | .migrateIncoming _, result => started result
  | .queryMigrate, _ => []

/-- The two scripts that send set up and start alike, apart from the number of channels and what
    they print about it. -/
def sending (channels : Nat) (setting : String) (configured : List String)
    (qmpSocketPath : String) (path : Option String) : Script where
  qmpSocketPath := qmpSocketPath
  commands := [.queryStatus, multifd, .migrateSetParameters channels,
    .migrate (unixUri path sourceSocket)]
  opening := []
  told := setUpTold setting configured ("Starting migration to: " ++ unixUri path sourceSocket)
    fun result => ["Migration command result: " ++ result]
  finalText := sendText
  errorText := "Error during migration: "

def receiving (channels : Nat) (setting : String) (configured : List String)
    (qmpSocketPath : String) (path : Option String) : Script where
  qmpSocketPath := qmpSocketPath
  commands := [.queryStatus, multifd, .migrateSetParameters channels,
    .migrateIncoming (unixUri path destinationSocket)]
  opening := ["Setting up incoming migration on: " ++ unixUri path destinationSocket]
  told := setUpTold setting configured
    ("Setting up incoming migration from: " ++ unixUri path destinationSocket)
    fun result =>
      ["Migrate-incoming command result: " ++ result, "Monitoring incoming migration..."]
  finalText := receiveText
  errorText := "Error during incoming migration setup: "

/-- `unix-send-tcp.py`, which sets one channel (its text says two). -/
def migrateVmTcpForwarded : String → Option String → Script :=
  sending 1 "Setting migration multfd channels to 2..."
    ["Migration parameters configured successfully"]

def setupIncomingMigrationTcpForwarded : String → Option String → Script :=
  receiving 1 "Setting migration multfd channels to 2 on destination..."
    ["Migration parameters configured on destination"]

def migrateVmWebsocketForwarded : String → Option String → Script :=
  sending 2 "Setting multifd channels to 2" []

def setupIncomingMigrationWebsocketForwarded : String → Option String → Script :=
  receiving 2 "Setting multifd channels to 2" []

structure Qemu where
  capabilities : List (String × Bool)
  multifdChannels : Option Nat
  outgoing : Option String
  incoming : Option String
  deriving DecidableEq

def Qemu.idle : Qemu where
  capabilities := []
  multifdChannels := none
  outgoing := none
  incoming := none

def Command.apply (qemu : Qemu) : Command → Qemu
  | .queryStatus | .queryMigrate => qemu
  | .migrateSetCapabilities capability state =>
    { qemu with capabilities := (capability, state) :: qemu.capabilities }
  | .migrateSetParameters channels => { qemu with multifdChannels := some channels }
  | .migrate uri => { qemu with outgoing := some uri }
  | .migrateIncoming uri => { qemu with incoming := some uri }

inductive Call where
  | connect (path : String)
  | execute (command : Command)
  | sleep (seconds : Nat)
  | disconnect
  deriving DecidableEq

inductive Line where
  | setUp (text : String)
  | status (text : String)
  | progress (percent : ℚ)
  | final (text : String)
  | error (text : String)
  deriving DecidableEq

inductive Pc where
  | connecting
  | executing (command : Command) (rest : List Command)
  | querying
  | sleeping
  | disconnecting
  | finished
  deriving DecidableEq

/-- A script and its QEMU. `returned` has the commands before the loop that have returned, with the
    text of what they returned, and `answers` what `query-migrate` has. -/
structure Host where
  pc : Pc
  calls : List Call
  connected : Bool
  returned : List (Command × String)
  answers : List MigrationInfo
  printed : List Line
  qemu : Qemu
  deriving DecidableEq

def init (script : Script) (qemu : Qemu) : Host where
  pc := .connecting
  calls := [.connect script.qmpSocketPath]
  connected := false
  returned := []
  answers := []
  printed := script.opening.map .setUp
  qemu := qemu

/-- What becomes of the awaited call; a command before the loop `replies` when it returns. A
    command that raises may have taken effect, and so may one whose script is interrupted (Ctrl-C
    cancels the task). -/
inductive Act where
  | returns
  | replies (result : String)
  | answers (info : MigrationInfo)
  | raises (applied : Bool) (text : String)
  | interrupted (applied : Bool)
  deriving DecidableEq

def proceed (h : Host) : List Command → Host
  | [] => { h with pc := .querying, calls := h.calls ++ [.execute .queryMigrate] }
  | command :: rest =>
    { h with pc := .executing command rest, calls := h.calls ++ [.execute command] }

/-- The `finally` block. -/
def leave (h : Host) : Host := { h with pc := .disconnecting, calls := h.calls ++ [.disconnect] }

def say (h : Host) (lines : List Line) : Host := { h with printed := h.printed ++ lines }

def check (script : Script) (h : Host) (info : MigrationInfo) : Host :=
  let told := say { h with answers := h.answers ++ [info] } [.status info.statusText]
  match info.final with
  | some final => leave (say told [.final (script.finalText final)])
  | none =>
    let shown := say told (info.progress.toList.map .progress)
    { shown with pc := .sleeping, calls := shown.calls ++ [.sleep 1] }

def connectedText (script : Script) : String :=
  "Connected to QMP socket: " ++ script.qmpSocketPath

def connect (script : Script) (h : Host) : Host :=
  proceed (say { h with connected := true } [.setUp (connectedText script)]) script.commands

def reply (script : Script) (h : Host) (command : Command) (rest : List Command)
    (result : String) : Host :=
  let done := { h with
    qemu := command.apply h.qemu, returned := h.returned ++ [(command, result)] }
  proceed (say done ((script.told command result).map .setUp)) rest

def awaited : Pc → Option Command
  | .executing command _ => some command
  | _ => none

/-- The effect of a command whose answer the script does not see. -/
def maybeApply (h : Host) (applied : Bool) : Host :=
  match awaited h.pc with
  | some command => if applied then { h with qemu := command.apply h.qemu } else h
  | none => h

def step (script : Script) (h : Host) : Act → Option Host
  | .returns =>
    match h.pc with
    | .connecting => some (connect script h)
    | .sleeping => some (proceed h [])
    | .disconnecting => some { h with pc := .finished }
    | .executing _ _ | .querying | .finished => none
  | .replies result =>
    match h.pc with
    | .executing command rest => some (reply script h command rest result)
    | _ => none
  | .answers info => if h.pc = .querying then some (check script h info) else none
  | .raises applied text =>
    match h.pc with
    | .connecting | .executing _ _ | .querying =>
      some (leave (say (maybeApply h applied) [.error (script.errorText ++ text)]))
    | .disconnecting => some { h with pc := .finished }
    | .sleeping | .finished => none
  | .interrupted applied =>
    -- `except Exception` does not catch `CancelledError`
    match h.pc with
    | .connecting | .executing _ _ | .querying | .sleeping => some (leave (maybeApply h applied))
    | .disconnecting => some { h with pc := .finished }
    | .finished => none

end Qmp
