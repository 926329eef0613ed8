import MigrationTransport.ProxyPerf.Meter
import MigrationTransport.ProxyPerf.UnixSender

/-!
The loops that send one fixed chunk again and again: `benchmark_send` of the TCP and of the
WebSocket sender, and `send_data` of the unix sender, which has no rate limit. Whatever
raises in such a loop ends it, since the only handler stands around the whole of it.
-/
namespace BenchmarkSend
open ProxyPerf
open UnixSender (Config)

/-- `clock` is read by the condition of the loop, `currentTime` before the report, and `sent`
    is whether the `send` returned. -/
structure Turn where
  clock : ℚ
  sent : Bool
  currentTime : ℚ
  deriving DecidableEq

structure Sender where
  running : Bool
  bytesSent : Nat
  chunksSent : Nat
  progress : Progress
  delays : List ℚ
  deriving DecidableEq

def init (startTime : ℚ) : Sender where
  running := true
  bytesSent := 0
  chunksSent := 0
  progress := .init startTime
  delays := []

def report (startTime : ℚ) (s : Sender) (currentTime : ℚ) : Sender :=
  match s.progress.reportUnguarded startTime currentTime s.bytesSent s.chunksSent with
  | some progress => { s with progress := progress }
  | none => { s with running := false }

/-- `bytes_sent += self.chunk_size` and the pause after it. -/
def account (chunkSize : Nat) (delay : ℚ) (s : Sender) : Sender :=
  { s with
    bytesSent := s.bytesSent + chunkSize
    chunksSent := s.chunksSent + 1
    delays := s.delays ++ if 0 < delay then [delay] else [] }

def inTime (cfg : Config) (turn : Turn) : Prop := turn.clock - cfg.startTime < cfg.durationSeconds

instance (cfg : Config) : DecidablePred (inTime cfg) := fun turn =>
  inferInstanceAs (Decidable (turn.clock - cfg.startTime < cfg.durationSeconds))

/-- The three loops are this one, with their own chunk and delay. -/
def sendLoop (chunkSize : Nat) (delay : ℚ) (cfg : Config) (s : Sender) (turn : Turn) :
    Option Sender :=
  if s.running then
    if inTime cfg turn ∧ turn.sent = true then
      some (report cfg.startTime (account chunkSize delay s) turn.currentTime)
    else some { s with running := false }
  else none

/-- `TCPSender.benchmark_send` -/
def tcpBenchmarkSend (cfg : Config) : Sender → Turn → Option Sender :=
  sendLoop 8192 (sendDelay 8192 cfg.targetMbps) cfg

/-- `WebSocketSender.benchmark_send` -/
def webSocketBenchmarkSend (cfg : Config) : Sender → Turn → Option Sender :=
  sendLoop 8192 (sendDelay 8192 cfg.targetMbps) cfg

/-- `UnixSender.send_data` -/
def sendData (cfg : Config) : Sender → Turn → Option Sender :=
  sendLoop 8192 0 cfg

def meter (s : Sender) : Meter where
  bytes := s.bytesSent
  chunks := s.chunksSent
  progress := s.progress

def pass (chunkSize : Nat) (cfg : Config) (turn : Turn) : Pass :=
  if inTime cfg turn ∧ turn.sent = true then ⟨some chunkSize, some turn.currentTime⟩
  else ⟨none, none⟩

variable {chunkSize : Nat} {delay startTime currentTime : ℚ} {cfg : Config} {s t : Sender}
  {turn : Turn}

theorem report_safe (started : startTime ≤ s.progress.lastReportTime) :
    report startTime s currentTime = { s with
      progress := s.progress.report startTime currentTime s.bytesSent s.chunksSent } := by
  rw [report, reportUnguarded_safe started]

theorem sendLoop_cases (started : cfg.startTime ≤ s.progress.lastReportTime)
    (stepped : sendLoop chunkSize delay cfg s turn = some t) : s.running = true ∧
    ((inTime cfg turn ∧ turn.sent = true) ∧ t = { account chunkSize delay s with
        progress := s.progress.report cfg.startTime turn.currentTime (s.bytesSent + chunkSize)
          (s.chunksSent + 1) } ∨
      ¬ (inTime cfg turn ∧ turn.sent = true) ∧ t = { s with running := false }) := by
  rw [sendLoop, Option.ite_none_right_eq_some] at stepped
  obtain ⟨running, stepped⟩ := stepped
  refine ⟨running, ?_⟩
  by_cases sends : inTime cfg turn ∧ turn.sent = true
  · have safe : cfg.startTime ≤ (account chunkSize delay s).progress.lastReportTime := started
    rw [if_pos sends, report_safe safe, Option.some.injEq] at stepped
    exact .inl ⟨sends, stepped.symm⟩
  · rw [if_neg sends, Option.some.injEq] at stepped
    exact .inr ⟨sends, stepped.symm⟩

theorem sendLoop_follows (started : cfg.startTime ≤ s.progress.lastReportTime)
    (stepped : sendLoop chunkSize delay cfg s turn = some t) :
    meter t = (meter s).pass cfg.startTime (pass chunkSize cfg turn) := by
  rcases (sendLoop_cases started stepped).2 with ⟨sends, rfl⟩ | ⟨ends, rfl⟩
  · rw [pass, if_pos sends]
    rfl
  · rw [pass, if_neg ends]
    rfl

def loop (chunkSize : Nat) (delay : ℚ) (cfg : Config) : BenchLoop cfg.startTime where
  State := Sender
  Turn := Turn
  step := sendLoop chunkSize delay cfg
  start := init cfg.startTime
  meter := meter
  pass := pass chunkSize cfg
  started := rfl
  follows := sendLoop_follows

def tcpLoop (cfg : Config) : BenchLoop cfg.startTime :=
  { loop 8192 (sendDelay 8192 cfg.targetMbps) cfg with step := tcpBenchmarkSend cfg }

def webSocketLoop (cfg : Config) : BenchLoop cfg.startTime :=
  { loop 8192 (sendDelay 8192 cfg.targetMbps) cfg with step := webSocketBenchmarkSend cfg }

def sendDataLoop (cfg : Config) : BenchLoop cfg.startTime :=
  { loop 8192 0 cfg with step := sendData cfg }

end BenchmarkSend
