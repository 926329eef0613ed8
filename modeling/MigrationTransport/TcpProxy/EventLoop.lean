import MigrationTransport.TcpProxy.ForwardData

/-!
`forward_data` under asyncio's own scheduling. One `exec` is one stretch of the running
task between two places where asyncio itself could suspend it: inside `reader.read`,
`Lock.acquire` and `Condition.wait`. The ready queue is FIFO and holds the two tasks
and any others of the process; bytes arrive only while no task runs.
-/
namespace EventLoop
open ByteStream
open ForwardData (queueSize)

inductive Handle where
  | read
  | write
  | other (id : Nat)
  deriving DecidableEq

/-- `taking` is a `read` resumed inside `_wait_for_data`; the `blocked` places are
    inside `Lock.acquire`. -/
inductive ReadPc where
  | created
  | atRead
  | awaitingData
  | acquiringPut (data : Bytes)
  | blockedPut (data : Bytes)
  | appending (data : Bytes)
  | releasingPut
  | acquiringClose
  | blockedClose
  | markingClosed
  | releasingClose
  | finished
  deriving DecidableEq

inductive WritePc where
  | created
  | acquiringGet
  | blockedGet
  | testing
  | waiting
  | releasingGet (got : Option Bytes)
  | writing (data : Bytes)
  | finished
  deriving DecidableEq

/-- `readerWaiter` is an unresolved `StreamReader._waiter`, `condWaiter` an unresolved
    future of `write_task` among the waiters of `not_empty`. -/
structure Loop where
  ready : List Handle
  running : Option Handle
  buffer : Bytes
  eof : Bool
  readerWaiter : Bool
  locked : Bool
  lockWaiters : List Handle
  condWaiter : Bool
  queue : CircularQueue Bytes queueSize
  readTask : ReadPc
  writeTask : WritePc
  bytesRead : Bytes
  written : Bytes
  totalBytes : Nat
  progress : List Nat

/-- `create_task(read_task())`, `create_task(write_task())`, behind whatever is ready. -/
def init (before : List Nat) (buffered : Bytes) (eof : Bool) : Loop where
  ready := before.map .other ++ [.read, .write]
  running := none
  buffer := buffered
  eof := eof
  readerWaiter := false
  locked := false
  lockWaiters := []
  condWaiter := false
  queue := .new
  readTask := .created
  writeTask := .created
  bytesRead := []
  written := []
  totalBytes := 0
  progress := []

/-- `Lock.acquire` succeeds at once only on a free lock that nobody waits for. -/
def free (s : Loop) : Bool := !s.locked && s.lockWaiters.isEmpty

/-- `Lock.release` wakes the first waiter. -/
def release (s : Loop) : Loop :=
  match s.lockWaiters with
  | [] => { s with locked := false }
  | h :: rest => { s with locked := false, lockWaiters := rest, ready := s.ready ++ [h] }

/-- `notify` and `notify_all`, for the one task that waits. -/
def notify (s : Loop) : Loop :=
  if s.condWaiter then { s with condWaiter := false, ready := s.ready ++ [.write] } else s

/-- The end of `reader.read(8192)` and the test of `data`. -/
def takeChunk (s : Loop) : Loop :=
  if s.buffer.take readSize = [] then { s with readTask := .acquiringClose }
  else { s with
    readTask := .acquiringPut (s.buffer.take readSize)
    buffer := s.buffer.drop readSize
    bytesRead := s.bytesRead ++ s.buffer.take readSize }

def readStep (s : Loop) : Loop :=
  match s.readTask with
  | .created => { s with readTask := .atRead }
  | .atRead =>
    if s.buffer = [] ∧ s.eof = false then
      { s with readTask := .awaitingData, readerWaiter := true, running := none }
    else takeChunk s
  | .awaitingData => takeChunk s
  | .acquiringPut data =>
    if free s then { s with readTask := .appending data, locked := true }
    else { s with
      readTask := .blockedPut data, lockWaiters := s.lockWaiters ++ [.read], running := none }
  | .blockedPut data => { s with readTask := .appending data, locked := true }
  | .appending data =>
    if s.queue.closed then { s with readTask := .releasingPut }
    else notify { s with readTask := .releasingPut, queue := s.queue.put data }
  | .releasingPut => release { s with readTask := .atRead }
  | .acquiringClose =>
    if free s then { s with readTask := .markingClosed, locked := true }
    else { s with
      readTask := .blockedClose, lockWaiters := s.lockWaiters ++ [.read], running := none }
  | .blockedClose => { s with readTask := .markingClosed, locked := true }
  | .markingClosed => notify { s with readTask := .releasingClose, queue := s.queue.close }
  | .releasingClose => release { s with readTask := .finished, running := none }
  | .finished => { s with running := none }

def writeStep (s : Loop) : Loop :=
  match s.writeTask with
  | .created => { s with writeTask := .acquiringGet }
  | .acquiringGet =>
    if free s then { s with writeTask := .testing, locked := true }
    else { s with
      writeTask := .blockedGet, lockWaiters := s.lockWaiters ++ [.write], running := none }
  | .blockedGet => { s with writeTask := .testing, locked := true }
  | .testing =>
    match s.queue.get with
    | .wait => release { s with writeTask := .waiting, condWaiter := true, running := none }
    | .none => { s with writeTask := .releasingGet none }
    | .item data rest => { s with writeTask := .releasingGet (some data), queue := rest }
  | .waiting => { s with writeTask := .acquiringGet }
  | .releasingGet none => release { s with writeTask := .finished, running := none }
  | .releasingGet (some data) => release { s with writeTask := .writing data }
  | .writing data =>
    { s with
      writeTask := .acquiringGet
      written := s.written ++ data
      totalBytes := s.totalBytes + data.length
      progress := logProgress s.progress (s.totalBytes + data.length) }
  | .finished => { s with running := none }

def wakeReader (s : Loop) : Loop :=
  if s.readerWaiter then { s with readerWaiter := false, ready := s.ready ++ [.read] } else s

inductive Act where
  | arrive (data : Bytes)
  | feedEof
  | spawn (id : Nat)
  | dispatch
  | exec
  deriving DecidableEq

/-- `limit` is the bound `B` on what the reader buffers. -/
def step (limit : Nat) (s : Loop) : Act → Option Loop
  | .arrive data =>
    if s.running = none ∧ s.eof = false ∧ data ≠ [] ∧ s.buffer.length + data.length ≤ limit then
      some (wakeReader { s with buffer := s.buffer ++ data })
    else none
  | .feedEof =>
    if s.running = none ∧ s.eof = false then some (wakeReader { s with eof := true }) else none
  | .spawn id => some { s with ready := s.ready ++ [.other id] }
  | .dispatch =>
    match s.running, s.ready with
    | none, h :: rest => some { s with running := some h, ready := rest }
    | _, _ => none
  | .exec =>
    match s.running with
    | some .read => some (readStep s)
    | some .write => some (writeStep s)
    | some (.other _) => some { s with running := none }
    | none => none

end EventLoop
