import MigrationTransport.ProxyPerf.Receiver
import MigrationTransport.WebSocket.Pipe

/-!
The loop of `WebSocketReceiver.handle_client`. A text message is passed by without a look at
the clock. The end of the iteration and every exception end the loop, since the handlers
stand around it.
-/
namespace WebSocketReceiver
open ByteStream ProxyPerf WebSocketPipe

inductive Event where
  | message (m : Message)
  | ends
  | raises
  deriving DecidableEq

structure Turn where
  event : Event
  currentTime : ℚ
  deriving DecidableEq

def handleClient (startTime : ℚ) (s : Receiver) (turn : Turn) : Option Receiver :=
  if s.running then
    match turn.event with
    | .message (.binary data) => some ((s.account data).report startTime turn.currentTime .stop)
    | .message (.text _) => some s
    | .ends | .raises => some s.stop
  else none

def pass (turn : Turn) : Pass :=
  match turn.event with
  | .message (.binary data) => ⟨some data.length, some turn.currentTime⟩
  | .message (.text _) | .ends | .raises => ⟨none, none⟩

variable {startTime currentTime : ℚ} {s t : Receiver} {turn : Turn}

theorem handleClient_follows (started : startTime ≤ s.progress.lastReportTime)
    (stepped : handleClient startTime s turn = some t) :
    t.meter = s.meter.pass startTime (pass turn) := by
  rw [handleClient, Option.ite_none_right_eq_some] at stepped
  obtain ⟨-, stepped⟩ := stepped
  unfold pass
  split at stepped
  · rw [Option.some.injEq] at stepped
    rw [← stepped, Receiver.account_report started]
  · rw [Option.some.injEq] at stepped
    rw [← stepped]
    rfl
  · rw [Option.some.injEq] at stepped
    rw [← stepped]
    rfl
  · rw [Option.some.injEq] at stepped
    rw [← stepped]
    rfl

def loop (startTime : ℚ) : BenchLoop startTime where
  State := Receiver
  Turn := Turn
  step := handleClient startTime
  start := .init startTime
  meter := Receiver.meter
  pass := pass
  started := Receiver.init_meter startTime
  follows := handleClient_follows

end WebSocketReceiver
