import MigrationTransport.ByteStream
import MigrationTransport.ProxyPerf.Meter

/-!
The state of a receive loop, which is the same in the TCP, the unix and the WebSocket
receiver, with the two things that each does to it for a chunk.
-/
namespace ProxyPerf
open ByteStream

structure Receiver where
  running : Bool
  bytesReceived : Nat
  chunksReceived : Nat
  progress : Progress
  deriving DecidableEq

namespace Receiver

def init (startTime : ℚ) : Receiver where
  running := true
  bytesReceived := 0
  chunksReceived := 0
  progress := .init startTime

def stop (s : Receiver) : Receiver := { s with running := false }

def account (s : Receiver) (data : Bytes) : Receiver :=
  { s with
    bytesReceived := s.bytesReceived + data.length
    chunksReceived := s.chunksReceived + 1 }

/-- The report, with what the handlers make of its `ZeroDivisionError`. -/
def report (s : Receiver) (startTime currentTime : ℚ) (handled : Receiver → Receiver) : Receiver :=
  match s.progress.reportUnguarded startTime currentTime s.bytesReceived s.chunksReceived with
  | some progress => { s with progress := progress }
  | none => handled s

def meter (s : Receiver) : Meter where
  bytes := s.bytesReceived
  chunks := s.chunksReceived
  progress := s.progress

variable {s : Receiver} {data : Bytes} {startTime currentTime : ℚ}
  {handled : Receiver → Receiver}

theorem init_meter (startTime : ℚ) : (init startTime).meter = .init startTime := rfl

theorem report_safe (started : startTime ≤ s.progress.lastReportTime) :
    s.report startTime currentTime handled = { s with
      progress := s.progress.report startTime currentTime s.bytesReceived s.chunksReceived } := by
  rw [report, reportUnguarded_safe started]

theorem account_report (started : startTime ≤ s.progress.lastReportTime) :
    ((s.account data).report startTime currentTime handled).meter =
      s.meter.pass startTime ⟨some data.length, some currentTime⟩ := by
  have safe : startTime ≤ (s.account data).progress.lastReportTime := started
  rw [report_safe safe]
  rfl

theorem account_running (started : startTime ≤ s.progress.lastReportTime) :
    ((s.account data).report startTime currentTime handled).running = s.running := by
  have safe : startTime ≤ (s.account data).progress.lastReportTime := started
  rw [report_safe safe]
  rfl

end Receiver
end ProxyPerf
