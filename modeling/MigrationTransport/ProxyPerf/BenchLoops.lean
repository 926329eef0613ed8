import MigrationTransport.ProxyPerf.BenchmarkSend
import MigrationTransport.ProxyPerf.TcpReceiver
import MigrationTransport.ProxyPerf.UnixReceiver
import MigrationTransport.ProxyPerf.WebSocketReceiver

/-!
All loops of the benchmarks as loops of one kind. Their reports are safe under any clock,
also one that goes back: a report is made only when the clock is a second past the last
report, which is never before the start.
-/
namespace BenchLoops
open ByteStream ProxyPerf
open UnixSender (Config)

def unixSenderMeter (s : UnixSender.Sender) : Meter where
  bytes := s.bytesSent
  chunks := s.chunksSent
  progress := s.progress

/-- One pass of `benchmark_send_unix`, which also reports when it found nothing to read. -/
def unixSenderPass (cfg : Config) (turn : UnixSender.Turn) : Pass :=
  if UnixSender.inTime cfg turn then
    match turn.poll with
    | .received data true => ⟨some data.length, some turn.currentTime⟩
    | .idle => ⟨none, some turn.currentTime⟩
    | .received _ false | .selectRaises | .recvRaises | .disconnected => ⟨none, none⟩
  else ⟨none, none⟩

/-- What one turn of `benchmark_send_unix` does: it counts a chunk, finds nothing to read, or
    leaves the counters alone. -/
theorem unixSender_cases {cfg : Config} {s t : UnixSender.Sender} {turn : UnixSender.Turn}
    (stepped : UnixSender.step cfg s turn = some t) :
    (∃ data, unixSenderPass cfg turn = ⟨some data.length, some turn.currentTime⟩ ∧
        data.length ≤ UnixSender.chunkSize ∧
        t = UnixSender.report cfg (UnixSender.account cfg s data) turn.currentTime) ∨
      unixSenderPass cfg turn = ⟨none, some turn.currentTime⟩ ∧
        t = UnixSender.report cfg s turn.currentTime ∨
      unixSenderPass cfg turn = ⟨none, none⟩ ∧ unixSenderMeter t = unixSenderMeter s ∧
        t.delays = s.delays := by
  rw [UnixSender.step, Option.ite_none_right_eq_some] at stepped
  obtain ⟨-, stepped⟩ := stepped
  unfold unixSenderPass
  by_cases here : UnixSender.inTime cfg turn
  · rw [if_pos here] at stepped ⊢
    cases polled : turn.poll with
    | received data sent =>
      simp only [polled, Option.ite_none_right_eq_some] at stepped
      obtain ⟨fits, stepped⟩ := stepped
      cases sent with
      | true =>
        rw [if_pos rfl, Option.some.injEq] at stepped
        exact .inl ⟨data, rfl, fits.2, stepped.symm⟩
      | false =>
        rw [if_neg Bool.false_ne_true, Option.some.injEq] at stepped
        subst stepped
        exact .inr (.inr ⟨rfl, rfl, rfl⟩)
    | idle =>
      simp only [polled, Option.some.injEq] at stepped
      exact .inr (.inl ⟨rfl, stepped.symm⟩)
    | _ =>
      simp only [polled, Option.some.injEq] at stepped
      subst stepped
      exact .inr (.inr ⟨rfl, rfl, rfl⟩)
  · rw [if_neg here, Option.some.injEq] at stepped
    subst stepped
    exact .inr (.inr ⟨if_neg here, rfl, rfl⟩)

theorem unixSender_follows {cfg : Config} {s t : UnixSender.Sender} {turn : UnixSender.Turn}
    (stepped : UnixSender.step cfg s turn = some t) :
    unixSenderMeter t = (unixSenderMeter s).pass cfg.startTime (unixSenderPass cfg turn) := by
  rcases unixSender_cases stepped with ⟨data, passed, -, rfl⟩ | ⟨passed, rfl⟩ | ⟨passed, same, -⟩
  · rw [passed]
    rfl
  · rw [passed]
    rfl
  · rw [passed, same]
    rfl

def unixSenderLoop (cfg : Config) : BenchLoop cfg.startTime where
  State := UnixSender.Sender
  Turn := UnixSender.Turn
  step := UnixSender.step cfg
  start := UnixSender.init cfg.startTime
  meter := unixSenderMeter
  pass := unixSenderPass cfg
  started := rfl
  follows := fun _ => unixSender_follows

def benchLoops (cfg : Config) : List (BenchLoop cfg.startTime) :=
  [BenchmarkSend.tcpLoop cfg, BenchmarkSend.webSocketLoop cfg, unixSenderLoop cfg,
    BenchmarkSend.sendDataLoop cfg, TcpReceiver.clientLoop cfg.startTime,
    TcpReceiver.clientUnixLoop cfg.startTime, UnixReceiver.loop cfg,
    WebSocketReceiver.loop cfg.startTime]

/-- What a run of a loop shows of its reports at any time, and that the next report does not
    divide by zero, whenever it is made. -/
structure Safe (startTime : ℚ) (m : Meter) : Prop where
  started : startTime ≤ m.progress.lastReportTime
  elapsed : ∀ (k : Nat) (r : Report), m.progress.reports[k]? = some r → k + 1 ≤ r.elapsed
  next : ∀ currentTime, due m.progress currentTime →
    m.progress.reports.length + 1 ≤ currentTime - startTime
  divides : ∀ currentTime bytes chunks,
    m.progress.reportUnguarded startTime currentTime bytes chunks ≠ none
  intervals : ∀ r ∈ m.progress.reports, 0 ≤ intervalBytes r
  sum : (m.progress.reports.map intervalBytes).sum = m.progress.lastReportBytes
  counted : m.progress.lastReportBytes ≤ m.bytes

variable {cfg : Config} {startTime : ℚ} {m : Meter}

theorem telescopes_safe (good : Telescopes startTime m) : Safe startTime m where
  started := good.started
  elapsed := good.elapsed
  next := by
    intro currentTime now
    have spaced := good.spaced
    unfold due at now
    linarith
  divides := by
    intro currentTime bytes chunks
    rw [reportUnguarded_safe good.started]
    exact Option.some_ne_none _
  intervals := good.intervals
  sum := good.sum
  counted := good.counted

/-- Progress reporting in every loop of the benchmarks, for every clock. -/
theorem reporting_safe (cfg : Config) : ∀ loop ∈ benchLoops cfg,
    ∀ (turns : List loop.Turn) (s : loop.State), Runs.run loop.step loop.start turns = some s →
      Safe cfg.startTime (loop.meter s) ∧ ∀ turn t, loop.step s turn = some t →
        (loop.meter s).progress.lastReportTime ≤ (loop.meter t).progress.lastReportTime := by
  intro loop _ turns s reached
  have good : Telescopes cfg.startTime (loop.meter s) := loop_telescopes reached
  constructor
  · exact telescopes_safe good
  · intro turn t stepped
    rw [loop.follows good.started stepped]
    exact pass_later (loop.meter s) cfg.startTime (loop.pass turn)

def tenSeconds : Config := { durationSeconds := 10, targetMbps := none, startTime := 0 }

/-- A clock that goes back by ten seconds after the first report. -/
theorem reporting_safe_backwards : ∃ s, Runs.run (BenchmarkSend.tcpBenchmarkSend tenSeconds)
    (BenchmarkSend.init 0) [⟨0, true, 5⟩, ⟨5, true, -5⟩] = some s ∧
      Safe 0 (BenchmarkSend.meter s) := by
  obtain ⟨s, reached, -⟩ : ∃ s, Runs.run (BenchmarkSend.tcpBenchmarkSend tenSeconds)
      (BenchmarkSend.init 0) [⟨0, true, 5⟩, ⟨5, true, -5⟩] = some s ∧ s.bytesSent = 16384 :=
    Runs.reaches (by decide +kernel)
  have safe := reporting_safe tenSeconds (BenchmarkSend.tcpLoop tenSeconds) List.mem_cons_self
    [⟨0, true, 5⟩, ⟨5, true, -5⟩] s reached
  exact ⟨s, reached, safe.1⟩

end BenchLoops
