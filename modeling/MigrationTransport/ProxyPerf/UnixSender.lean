import MigrationTransport.Lib.AttemptLog
import MigrationTransport.Lib.Runs
import MigrationTransport.ProxyPerf.Progress

/-!
The loop of `benchmark_send_unix`, which reads chunks from a unix socket and sends each
over TLS until the time is up. One turn is one pass through the loop; `except socket.error`
stands around the whole of it.
-/
namespace UnixSender
open ByteStream ProxyPerf

def chunkSize : Nat := 8192

structure Config where
  durationSeconds : ℚ
  targetMbps : Option ℚ
  startTime : ℚ

/-- What the sockets do in one turn. `received` is a chunk from `recv`, and whether `sendall`
    returned or raised. -/
inductive Poll where
  | selectRaises
  | idle
  | recvRaises
  | disconnected
  | received (data : Bytes) (sent : Bool)
  deriving DecidableEq

/-- `clock` is read by the condition of the loop, `currentTime` before the report. -/
structure Turn where
  clock : ℚ
  poll : Poll
  currentTime : ℚ
  deriving DecidableEq

/-- `attempts` has every chunk taken from the unix socket, with whether `sendall` returned, and
    `delays` every argument of `time.sleep`. -/
structure Sender where
  running : Bool
  bytesSent : Nat
  chunksSent : Nat
  progress : Progress
  attempts : List (Bytes × Bool)
  delays : List ℚ
  deriving DecidableEq

def init (startTime : ℚ) : Sender where
  running := true
  bytesSent := 0
  chunksSent := 0
  progress := .init startTime
  attempts := []
  delays := []

def report (cfg : Config) (s : Sender) (currentTime : ℚ) : Sender :=
  { s with
    progress := s.progress.report cfg.startTime currentTime s.bytesSent s.chunksSent }

/-- `bytes_sent += len(data)` and the pause after it. -/
def account (cfg : Config) (s : Sender) (data : Bytes) : Sender :=
  let delay := sendDelay chunkSize cfg.targetMbps
  { s with
    bytesSent := s.bytesSent + data.length
    chunksSent := s.chunksSent + 1
    attempts := s.attempts ++ [(data, true)]
    delays := s.delays ++ if 0 < delay then [delay] else [] }

def inTime (cfg : Config) (turn : Turn) : Prop := turn.clock - cfg.startTime < cfg.durationSeconds

instance (cfg : Config) : DecidablePred (inTime cfg) := fun turn =>
  inferInstanceAs (Decidable (turn.clock - cfg.startTime < cfg.durationSeconds))

def step (cfg : Config) (s : Sender) (turn : Turn) : Option Sender :=
  if s.running then
    if inTime cfg turn then
      match turn.poll with
      | .selectRaises | .recvRaises => some s
      | .idle => some (report cfg s turn.currentTime)
      | .disconnected => some { s with running := false }
      | .received data sent =>
        if 0 < data.length ∧ data.length ≤ chunkSize then
          if sent then some (report cfg (account cfg s data) turn.currentTime)
          else some { s with attempts := s.attempts ++ [(data, false)] }
        else none
    else some { s with running := false }
  else none

end UnixSender
