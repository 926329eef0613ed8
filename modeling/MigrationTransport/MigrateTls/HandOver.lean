import MigrationTransport.Lib.Descriptors
import MigrationTransport.Lib.Runs

/-!
The hand-over of a TLS connection: `tls_server.c` or `tls_client.c` makes the connection and
passes its descriptor over `/tmp/fd_socket` to `receive_fd` of `qemu-rec.py` or
`qemu-send.py`, whose `main` passes it on to QEMU. Each of the three has a descriptor table
of its own, and a descriptor on its way is in a message. What GnuTLS, the kernel and QEMU
answer is up to the actions.
-/
namespace HandOver
open Descriptors

inductive Program where
  | server
  | client

inductive Object where
  | inherited (k : Nat)
  /-- `listen_sd` -/
  | listener
  /-- The connections of the TLS program, counted from 0. -/
  | connection (k : Nat)
  /-- `sock_fd` of `prepare_and_send_fd` -/
  | sockFd
  /-- `sock` and `conn` of `receive_fd` -/
  | sock
  | conn
  /-- The script's QMP connection. -/
  | monitor
  /-- The TLS connection that the script makes itself when it got none. -/
  | own
  deriving DecidableEq

inductive PrepareAt where
  | socket
  | connect (sockFd : Nat)
  | sendFd (sockFd : Nat)
  | recv (sockFd : Nat)
  | closeSock (sockFd : Nat)
  | closeFile
  deriving DecidableEq

/-- Before which call `main` stands. A descriptor is `none` where the call that should have
    made it returned -1. -/
inductive TlsPc where
  | socket
  | connect (sd : Option Nat)
  | accept
  | handshake (sd : Option Nat)
  | prepare (sd : Nat) (at_ : PrepareAt)
  | shutdown (sd : Option Nat)
  | close (sd : Option Nat)
  | closeListener
  | exited
  deriving DecidableEq

/-- `completed` is the connection whose handshake was completed, and `shut` lists the
    connections that were shut down. -/
structure Tls where
  pc : TlsPc
  table : Table Object
  connections : Nat
  completed : Option Object
  shut : List Object
  deriving DecidableEq

inductive MainAt where
  | connect
  | queryStatus
  | setParameters
  | makeOwn
  | sendFdScm (socket : Nat)
  | getfd
  | migrate
  | disconnect
  deriving DecidableEq

inductive ScriptPc where
  | accept (sock : Nat)
  | recvmsg (sock conn : Nat)
  | closeConn (sock conn : Nat)
  | closeSock (sock : Nat)
  | unlink
  | main (at_ : MainAt)
  | exited
  deriving DecidableEq

/-- `fd` is what `receive_fd` returns, and `qemp` the descriptor of the QMP connection while
    there is one. -/
structure Script where
  pc : ScriptPc
  table : Table Object
  fd : Option Nat
  qemp : Option Nat
  deriving DecidableEq

/-- The connection over `/tmp/fd_socket`, as it is at the script's end. -/
inductive Link where
  | absent
  | queued
  | taken
  | closed
  deriving DecidableEq

/-- `message` and `toQemu` are the descriptors on their way to the script and to QEMU. -/
structure System where
  tls : Tls
  link : Link
  message : List Object
  script : Script
  toQemu : List Object
  qemu : Table Object
  deriving DecidableEq

/-- The call returns what it should, `fails`, or returns a code with which the handshake is
    tried `again`. -/
inductive TlsAct where
  | works
  | fails
  | again
  deriving DecidableEq

/-- `eof` is a `recvmsg` that finds the stream at its end. `makesOwn` has the script connect by
    itself; `collected` says whether the socket object is freed where `main` rebinds its only
    name to the number, as CPython does, which closes the number. -/
inductive ScriptAct where
  | works
  | fails
  | eof
  | makesOwn (collected : Bool)
  deriving DecidableEq

inductive Act where
  | tls (a : TlsAct)
  | script (a : ScriptAct)
  | qemuTakes
  | qemuDrops
  deriving DecidableEq

def closeAt (t : Table Object) : Option Nat → Table Object
  | none => t
  | some fd => t.close fd

def lookupAt (t : Table Object) : Option Nat → Option Object
  | none => none
  | some fd => t.lookup fd

def Tls.opens (t : Tls) : Tls :=
  { t with table := t.table.install (.connection t.connections), connections := t.connections + 1 }

def Tls.exit (t : Tls) : Tls := { t with pc := .exited, table := .empty }

/-- `main` of `tls_server.c` and of `tls_client.c`, apart from `prepare_and_send_fd`. -/
def mainStep (p : Program) (t : Tls) : TlsPc → TlsAct → Option Tls
  | .socket, .works => some { t.opens with pc := .connect (some t.table.lowest) }
  | .socket, .fails => some { t with pc := .connect none }
  | .connect (some sd), .works => some { t with pc := .handshake (some sd) }
  | .connect _, .fails => some t.exit
  | .accept, .works => some { t.opens with pc := .handshake (some t.table.lowest) }
  | .accept, .fails => some { t with pc := .handshake none }
  | .handshake _, .again => some t
  -- No handshake is completed on a descriptor that is not open.
  | .handshake (some sd), .works =>
    (t.table.lookup sd).map fun o => { t with pc := .prepare sd .socket, completed := some o }
  | .handshake sd, .fails =>
    match p with
    | .server => some { t with pc := .close sd }
    | .client => some { t with pc := .shutdown sd }
  -- `tcp_close`, whose calls are not checked.
  | .shutdown sd, .works =>
    some { t with pc := .close sd, shut := t.shut ++ (lookupAt t.table sd).toList }
  | .close sd, .works =>
    match p with
    | .server => some { t with pc := .accept, table := closeAt t.table sd }
    | .client => some { t with table := closeAt t.table sd }.exit
  | .closeListener, .works => some t.exit
  | _, _ => none

def Script.listening (s : Script) : Bool :=
  match s.pc with
  | .accept _ => true
  | _ => false

/-- `prepare_and_send_fd(sd)`. Each of its failures closes what it has open and exits. -/
def prepareStep (p : Program) (s : System) (sd : Nat) : PrepareAt → TlsAct → Option System
  | .socket, .works =>
    some { s with tls := { s.tls with
      pc := .prepare sd (.connect s.tls.table.lowest), table := s.tls.table.install .sockFd } }
  | .socket, .fails => some { s with tls := { s.tls with table := s.tls.table.close sd }.exit }
  | .connect sockFd, .works =>
    if s.script.listening = true ∧ s.link = .absent then
      some { s with tls := { s.tls with pc := .prepare sd (.sendFd sockFd) }, link := .queued }
    else none
  | .connect sockFd, .fails | .sendFd sockFd, .fails =>
    some { s with tls :=
      { s.tls with table := (s.tls.table.close sockFd).close sd }.exit }
  | .sendFd sockFd, .works =>
    if s.link = .queued ∨ s.link = .taken then
      (s.tls.table.lookup sd).map fun o =>
        { s with
          tls := { s.tls with pc := .prepare sd (.recv sockFd) }
          message := s.message ++ [o] }
    else none
  -- The script answers nothing, so `recv` returns when the script has closed its end; a `recv`
  -- that fails is not told apart.
  | .recv sockFd, .works =>
    if s.link = .closed then
      some { s with tls := { s.tls with pc := .prepare sd (.closeSock sockFd) } }
    else none
  | .recv sockFd, .fails =>
    some { s with tls := { s.tls with pc := .prepare sd (.closeSock sockFd) } }
  | .closeSock sockFd, .works =>
    some { s with tls := { s.tls with
      pc := .prepare sd .closeFile, table := s.tls.table.close sockFd } }
  | .closeFile, .works =>
    let next := match p with
      | .server => TlsPc.closeListener
      | .client => TlsPc.shutdown (some sd)
    some { s with tls := { s.tls with pc := next, table := s.tls.table.close sd } }
  | _, _ => none

def tlsStep (p : Program) (s : System) (a : TlsAct) : Option System :=
  match s.tls.pc with
  | .prepare sd at_ => prepareStep p s sd at_ a
  | pc => (mainStep p s.tls pc a).map fun t => { s with tls := t }

def Script.exit (s : Script) : Script := { s with pc := .exited, table := .empty, qemp := none }

def Script.disconnect (s : Script) : Script :=
  { s with table := closeAt s.table s.qemp, qemp := none }

/-- The script's end of `/tmp/fd_socket` goes, with what was not received there. -/
def System.hangUp (s : System) (script : Script) : System :=
  { s with script, link := .closed, message := [] }

/-- `receive_fd` from its `accept` on. -/
def receiveFd (s : System) : ScriptPc → ScriptAct → Option System
  | .accept sock, .works =>
    if s.link = .queued then
      some { s with
        script := { s.script with
          pc := .recvmsg sock s.script.table.lowest, table := s.script.table.install .conn }
        link := .taken }
    else none
  | .accept _, .fails => some (s.hangUp s.script.exit)
  | .recvmsg sock conn, .works =>
    match s.message with
    | [] => none
    | o :: later =>
      some { s with
        script := { s.script with
          pc := .closeConn sock conn
          table := s.script.table.install o
          fd := some s.script.table.lowest }
        message := later }
  | .recvmsg sock conn, .eof =>
    if s.message = [] ∧ ¬ s.tls.table.Holds .sockFd then
      some { s with script := { s.script with pc := .closeConn sock conn } }
    else none
  -- The exception is printed, or the message came without its descriptor: both return `None`.
  | .recvmsg sock conn, .fails =>
    some { s with script := { s.script with pc := .closeConn sock conn } }
  | .closeConn sock conn, .works =>
    some (s.hangUp { s.script with pc := .closeSock sock, table := s.script.table.close conn })
  | .closeSock sock, .works =>
    some { s with script := { s.script with pc := .unlink, table := s.script.table.close sock } }
  | .unlink, .works => some { s with script := { s.script with pc := .main .connect } }
  | .unlink, .fails => some { s with script := s.script.exit }
  | _, _ => none

/-- `main(fd)`. On a client that is not connected every command raises. -/
def mainOf (s : System) : MainAt → ScriptAct → Option System
  | .connect, .works =>
    some { s with script := { s.script with
      pc := .main .queryStatus
      table := s.script.table.install .monitor
      qemp := some s.script.table.lowest } }
  | .queryStatus, .works =>
    if s.script.qemp.isSome then
      some { s with script := { s.script with pc := .main .setParameters } }
    else none
  | .queryStatus, .fails =>
    some { s with script := { s.script.disconnect with pc := .main .setParameters } }
  | .setParameters, .works =>
    if s.script.qemp.isSome then
      match s.script.fd with
      | some fd => some { s with script := { s.script with pc := .main (.sendFdScm fd) } }
      | none => some { s with script := { s.script with pc := .main .makeOwn } }
    else none
  | .makeOwn, .makesOwn collected =>
    let socket := s.script.table.lowest
    let table := s.script.table.install .own
    some { s with script := { s.script with
      pc := .main (.sendFdScm socket), table := if collected then table.close socket else table } }
  | .sendFdScm socket, .works =>
    if s.script.qemp.isSome then
      (s.script.table.lookup socket).map fun o =>
        { s with script := { s.script with pc := .main .getfd }, toQemu := s.toQemu ++ [o] }
    else none
  -- QEMU answers when it has taken what was sent along.
  | .getfd, .works =>
    if s.script.qemp.isSome ∧ s.toQemu = [] then
      some { s with script := { s.script with pc := .main .migrate } }
    else none
  | .getfd, .fails => some { s with script := { s.script.disconnect with pc := .main .migrate } }
  | .migrate, .works =>
    if s.script.qemp.isSome then
      some { s with script := { s.script with pc := .main .disconnect } }
    else none
  | .migrate, .fails =>
    some { s with script := { s.script.disconnect with pc := .main .disconnect } }
  | .disconnect, .works => some { s with script := s.script.disconnect.exit }
  -- An exception that nothing catches.
  | .connect, .fails | .setParameters, .fails | .makeOwn, .fails | .sendFdScm _, .fails =>
    some { s with script := s.script.exit }
  | _, _ => none

def scriptStep (s : System) (a : ScriptAct) : Option System :=
  match s.script.pc with
  | .main at_ => mainOf s at_ a
  | pc => receiveFd s pc a

def step (p : Program) (s : System) : Act → Option System
  | .tls a => tlsStep p s a
  | .script a => scriptStep s a
  | .qemuTakes =>
    match s.toQemu with
    | [] => none
    | o :: later => some { s with toQemu := later, qemu := s.qemu.install o }
  | .qemuDrops => some { s with toQemu := [] }

def inherited (entries : List (Option Nat)) : Table Object := ⟨entries.map (·.map .inherited)⟩

def tlsBase (entries : List (Option Nat)) : Program → Table Object
  | .server => (inherited entries).install .listener
  | .client => inherited entries

def tlsInit (entries : List (Option Nat)) (p : Program) : Tls where
  pc := match p with
    | .server => .accept
    | .client => .socket
  table := tlsBase entries p
  connections := 0
  completed := none
  shut := []

def scriptInit (entries : List (Option Nat)) : Script where
  pc := .accept (inherited entries).lowest
  table := (inherited entries).install .sock
  fd := none
  qemp := none

def init (p : Program) (tls script qemu : List (Option Nat)) : System where
  tls := tlsInit tls p
  link := .absent
  message := []
  script := scriptInit script
  toQemu := []
  qemu := inherited qemu

end HandOver
