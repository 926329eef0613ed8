import MigrationTransport.ProxyPerf.Receiver
import MigrationTransport.ProxyPerf.UnixSender

/-!
The receive loop of `receive_data`, which also ends when a signal has cleared `self.running`.
A timeout leads back to the condition of the loop, any other exception ends it.
-/
namespace UnixReceiver
open ByteStream ProxyPerf
open UnixSender (Config)

def chunkSize : Nat := 8192

inductive Recv where
  | received (data : Bytes)
  | empty
  | timeout
  | raises
  deriving DecidableEq

/-- `signalled` is whether `signal_handler` has run when the condition of the loop is tested,
    `clock` is read by this condition, and `currentTime` before the report. -/
structure Turn where
  signalled : Bool
  clock : ℚ
  recv : Recv
  currentTime : ℚ
  deriving DecidableEq

/-- `while self.running and (time.time() - start_time < duration_seconds)` -/
def goesOn (cfg : Config) (turn : Turn) : Prop :=
  turn.signalled = false ∧ turn.clock - cfg.startTime < cfg.durationSeconds

instance (cfg : Config) : DecidablePred (goesOn cfg) := fun turn =>
  inferInstanceAs
    (Decidable (turn.signalled = false ∧ turn.clock - cfg.startTime < cfg.durationSeconds))

def receiveData (cfg : Config) (s : Receiver) (turn : Turn) : Option Receiver :=
  if s.running then
    if goesOn cfg turn then
      match turn.recv with
      | .received data =>
        if 0 < data.length ∧ data.length ≤ chunkSize then
          some ((s.account data).report cfg.startTime turn.currentTime .stop)
        else none
      | .timeout => some s
      | .empty | .raises => some s.stop
    else some s.stop
  else none

def pass (cfg : Config) (turn : Turn) : Pass :=
  match turn.recv with
  | .received data =>
    if goesOn cfg turn then ⟨some data.length, some turn.currentTime⟩ else ⟨none, none⟩
  | .empty | .timeout | .raises => ⟨none, none⟩

variable {cfg : Config} {startTime currentTime : ℚ} {s t : Receiver} {turn : Turn}

theorem receiveData_follows (started : cfg.startTime ≤ s.progress.lastReportTime)
    (stepped : receiveData cfg s turn = some t) :
    t.meter = s.meter.pass cfg.startTime (pass cfg turn) := by
  rw [receiveData, Option.ite_none_right_eq_some] at stepped
  obtain ⟨-, stepped⟩ := stepped
  unfold pass
  by_cases here : goesOn cfg turn
  · rw [if_pos here] at stepped
    cases recv : turn.recv with
    | received data =>
      rw [recv] at stepped
      simp only [Option.ite_none_right_eq_some, Option.some.injEq] at stepped
      rw [← stepped.2, Receiver.account_report started]
      simp only [if_pos here]
    | _ =>
      simp only [recv, Option.some.injEq] at stepped
      rw [← stepped]
      rfl
  · rw [if_neg here, Option.some.injEq] at stepped
    rw [← stepped]
    cases turn.recv with
    | received data =>
      simp only [if_neg here]
      rfl
    | _ => rfl

def loop (cfg : Config) : BenchLoop cfg.startTime where
  State := Receiver
  Turn := Turn
  step := receiveData cfg
  start := .init cfg.startTime
  meter := Receiver.meter
  pass := pass cfg
  started := rfl
  follows := receiveData_follows

end UnixReceiver
