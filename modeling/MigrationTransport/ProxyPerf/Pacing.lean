import MigrationTransport.Lib.PacedLog
import MigrationTransport.ProxyPerf.BenchLoops

/-!
The rate limit of the three senders that have one. A sender sleeps after each chunk for as
long as a whole chunk takes at the target rate, so no window of time has more than the rate
allows and one chunk on top. Sends, sleeps and the rest of a turn take any time.
-/
namespace Pacing
open ProxyPerf BenchLoops PacedLog
open UnixSender (Config)

def chunkSize : Nat := 8192

def asked (cfg : Config) : Option Nat → List ℚ
  | none => []
  | some _ =>
    let delay := sendDelay chunkSize cfg.targetMbps
    if 0 < delay then [delay] else []

/-- A loop of the benchmarks that asks for a pause after every chunk that it counts. -/
structure PacedLoop (cfg : Config) extends BenchLoop cfg.startTime where
  delays : State → List ℚ
  paused : ∀ {s turn t}, step s turn = some t →
    delays t = delays s ++ asked cfg (pass turn).counted
  small : ∀ {s turn t}, step s turn = some t → ∀ length ∈ (pass turn).counted,
    length ≤ chunkSize

/-- How long a turn takes until its chunk is counted, in its sleep, and after it. -/
structure Timing where
  work : ℚ
  asleep : ℚ
  rest : ℚ
  deriving DecidableEq

/-- `log` has what is counted in `bytes_sent`, with the time. -/
structure Timed (State : Type) where
  state : State
  now : ℚ
  log : List (ℚ × Nat)
  deriving DecidableEq

variable {cfg : Config}

def begin (loop : PacedLoop cfg) : Timed loop.State where
  state := loop.start
  now := cfg.startTime
  log := []

def requested (loop : PacedLoop cfg) (s t : loop.State) : ℚ :=
  ((loop.delays t).drop (loop.delays s).length).sum

def counted (loop : PacedLoop cfg) (s t : loop.State) : Nat :=
  (loop.meter t).bytes - (loop.meter s).bytes

/-- A turn of the loop in time: nothing takes less than no time, and no sleep less than it was
    asked to. -/
def timedStep (loop : PacedLoop cfg) (s : Timed loop.State) (turn : loop.Turn × Timing) :
    Option (Timed loop.State) :=
  (loop.step s.state turn.1).bind fun t =>
    if 0 ≤ turn.2.work ∧ requested loop s.state t ≤ turn.2.asleep ∧ 0 ≤ turn.2.rest then
      some {
        state := t
        now := s.now + turn.2.work + turn.2.asleep + turn.2.rest
        log := s.log ++ if counted loop s.state t = 0 then []
          else [(s.now + turn.2.work, counted loop s.state t)] }
    else none

variable {loop : PacedLoop cfg} {s t : Timed loop.State} {turn : loop.Turn × Timing}
  {turns : List (loop.Turn × Timing)} {target : ℚ}

/-- Nothing was counted in the last `delay` seconds, nor between two entries that close. -/
structure Spaced (loop : PacedLoop cfg) (delay : ℚ) (s : Timed loop.State) : Prop where
  telescopes : Telescopes cfg.startTime (loop.meter s.state)
  paced : Paced (fun _ => delay) s.log
  waited : ∀ entry ∈ s.log, entry.1 + delay ≤ s.now
  small : ∀ entry ∈ s.log, entry.2 ≤ chunkSize
  complete : amount s.log = (loop.meter s.state).bytes

theorem delay_positive (limited : cfg.targetMbps = some target) (positive : 0 < target) :
    sendDelay chunkSize cfg.targetMbps = chunkSize / (target * mebibyte) ∧
      0 < sendDelay chunkSize cfg.targetMbps := by
  have delay : sendDelay chunkSize cfg.targetMbps = chunkSize / (target * mebibyte) := by
    rw [limited, sendDelay, if_neg positive.ne']
  refine ⟨delay, ?_⟩
  rw [delay]
  exact div_pos (by norm_num [chunkSize]) (mul_pos positive mebibyte_positive)

theorem timedStep_cases (positive : 0 < sendDelay chunkSize cfg.targetMbps)
    (good : Telescopes cfg.startTime (loop.meter s.state))
    (stepped : timedStep loop s turn = some t) :
    Telescopes cfg.startTime (loop.meter t.state) ∧
    ((t.log = s.log ∧ s.now ≤ t.now ∧ (loop.meter t.state).bytes = (loop.meter s.state).bytes) ∨
      ∃ time length, t.log = s.log ++ [(time, length)] ∧ s.now ≤ time ∧ length ≤ chunkSize ∧
        time + sendDelay chunkSize cfg.targetMbps ≤ t.now ∧
        (loop.meter t.state).bytes = (loop.meter s.state).bytes + length) := by
  obtain ⟨state, first, stepped⟩ := Option.bind_eq_some_iff.mp stepped
  rw [Option.ite_none_right_eq_some, Option.some.injEq] at stepped
  obtain ⟨⟨work, asleep, rest⟩, rfl⟩ := stepped
  have bytes : (loop.meter state).bytes =
      (loop.meter s.state).bytes + (loop.pass turn.1).counted.getD 0 := by
    rw [loop.follows good.started first, pass_bytes]
  have more : counted loop s.state state = (loop.pass turn.1).counted.getD 0 := by
    rw [counted, bytes, Nat.add_sub_cancel_left]
  have pauses : requested loop s.state state = (asked cfg (loop.pass turn.1).counted).sum := by
    rw [requested, loop.paused first, List.drop_left]
  refine ⟨loop_step_telescopes good first, ?_⟩
  cases passed : (loop.pass turn.1).counted with
  | none =>
    rw [passed] at bytes more pauses
    rw [pauses, asked, List.sum_nil] at asleep
    left
    simp only [more, Option.getD_none, if_pos, List.append_nil]
    exact ⟨trivial, by linarith, bytes⟩
  | some length =>
    have fits := loop.small first length passed
    rw [passed] at bytes more pauses
    simp only [asked, if_pos positive, List.sum_singleton] at pauses
    rw [pauses] at asleep
    rw [Option.getD_some] at bytes more
    by_cases none : length = 0
    · left
      rw [more, if_pos none, List.append_nil]
      exact ⟨rfl, by dsimp only; linarith, by rw [bytes, none, Nat.add_zero]⟩
    · right
      rw [more, if_neg none]
      exact ⟨_, length, rfl, by linarith, fits, by dsimp only; linarith, bytes⟩

theorem step_spaced (positive : 0 < sendDelay chunkSize cfg.targetMbps)
    (good : Spaced loop (sendDelay chunkSize cfg.targetMbps) s)
    (stepped : timedStep loop s turn = some t) :
    Spaced loop (sendDelay chunkSize cfg.targetMbps) t := by
  obtain ⟨telescopes, quiet | counts⟩ := timedStep_cases positive good.telescopes stepped
  · obtain ⟨log, later, bytes⟩ := quiet
    refine ⟨telescopes, ?_, ?_, ?_, ?_⟩
    · rw [log]
      exact good.paced
    · intro entry member
      rw [log] at member
      exact (good.waited entry member).trans later
    · rw [log]
      exact good.small
    · rw [log, bytes, good.complete]
  · obtain ⟨time, length, log, after, fits, sleeps, bytes⟩ := counts
    refine ⟨telescopes, ?_, ?_, ?_, ?_⟩
    · rw [log]
      apply paced_snoc good.paced
      intro earlier member
      exact (good.waited earlier member).trans after
    · intro entry member
      rw [log, List.mem_append, List.mem_singleton] at member
      rcases member with old | new
      · have waited := good.waited entry old
        linarith
      · rw [new]
        exact sleeps
    · intro entry member
      rw [log, List.mem_append, List.mem_singleton] at member
      rcases member with old | new
      · exact good.small entry old
      · rw [new]
        exact fits
    · rw [log, amount_append, amount_cons, amount_nil, bytes, good.complete]
      rfl

theorem run_spaced (positive : 0 < sendDelay chunkSize cfg.targetMbps)
    (reached : Runs.run (timedStep loop) (begin loop) turns = some s) :
    Spaced loop (sendDelay chunkSize cfg.targetMbps) s := by
  apply Runs.invariant_run _ (fun _ _ _ => step_spaced positive) _ reached
  have fresh : (loop.meter loop.start) = .init cfg.startTime := loop.started
  refine ⟨?_, .nil, by simp [begin], by simp [begin], ?_⟩
  · rw [begin, fresh]
    exact init_telescopes
  · rw [begin, fresh]
    rfl

theorem sendLoop_paused {s t : BenchmarkSend.Sender} {turn : BenchmarkSend.Turn}
    (stepped : BenchmarkSend.sendLoop chunkSize (sendDelay chunkSize cfg.targetMbps) cfg s turn =
      some t) :
    t.delays = s.delays ++ asked cfg (BenchmarkSend.pass chunkSize cfg turn).counted := by
  rw [BenchmarkSend.sendLoop, Option.ite_none_right_eq_some] at stepped
  obtain ⟨-, stepped⟩ := stepped
  unfold BenchmarkSend.pass
  by_cases sends : BenchmarkSend.inTime cfg turn ∧ turn.sent = true
  · rw [if_pos sends, Option.some.injEq] at stepped
    rw [if_pos sends, ← stepped, BenchmarkSend.report]
    split <;> rfl
  · rw [if_neg sends, Option.some.injEq] at stepped
    rw [if_neg sends, ← stepped]
    exact (List.append_nil _).symm

theorem sendLoop_small {turn : BenchmarkSend.Turn} {length : Nat}
    (passed : length ∈ (BenchmarkSend.pass chunkSize cfg turn).counted) : length ≤ chunkSize := by
  unfold BenchmarkSend.pass at passed
  split at passed
  · rw [Option.mem_some_iff] at passed
    exact passed.ge
  · exact absurd passed (Option.not_mem_none _)

def tcpPaced (cfg : Config) : PacedLoop cfg where
  toBenchLoop := BenchmarkSend.tcpLoop cfg
  delays := BenchmarkSend.Sender.delays
  paused := sendLoop_paused
  small := fun _ _ => sendLoop_small

def webSocketPaced (cfg : Config) : PacedLoop cfg where
  toBenchLoop := BenchmarkSend.webSocketLoop cfg
  delays := BenchmarkSend.Sender.delays
  paused := sendLoop_paused
  small := fun _ _ => sendLoop_small

/-- The loop that sends what it reads from the unix socket: it asks for the pause of a whole
    chunk after a chunk of any length. -/
theorem unixSender_paced {s t : UnixSender.Sender} {turn : UnixSender.Turn}
    (stepped : UnixSender.step cfg s turn = some t) :
    t.delays = s.delays ++ asked cfg (unixSenderPass cfg turn).counted ∧
      ∀ length ∈ (unixSenderPass cfg turn).counted, length ≤ chunkSize := by
  rcases unixSender_cases stepped with
    ⟨data, passed, fits, rfl⟩ | ⟨passed, rfl⟩ | ⟨passed, -, same⟩
  · rw [passed]
    refine ⟨rfl, ?_⟩
    intro length here
    rw [← Option.mem_some_iff.mp here]
    exact fits
  · rw [passed]
    exact ⟨(List.append_nil _).symm, by simp⟩
  · rw [passed, same]
    exact ⟨(List.append_nil _).symm, by simp⟩

def unixPaced (cfg : Config) : PacedLoop cfg where
  toBenchLoop := unixSenderLoop cfg
  delays := UnixSender.Sender.delays
  paused := fun stepped => (unixSender_paced stepped).1
  small := fun stepped => (unixSender_paced stepped).2

def pacedLoops (cfg : Config) : List (PacedLoop cfg) :=
  [tcpPaced cfg, unixPaced cfg, webSocketPaced cfg]

/-- In every window of time, a sender with a target rate counts no more bytes than the rate
    allows and one chunk. -/
theorem window_bounded (cfg : Config) (limited : cfg.targetMbps = some target)
    (positive : 0 < target) : ∀ loop ∈ pacedLoops cfg,
    ∀ (turns : List (loop.Turn × Timing)) (s : Timed loop.State),
      Runs.run (timedStep loop) (begin loop) turns = some s →
        amount s.log = (loop.meter s.state).bytes ∧ ∀ start stop, start ≤ stop →
          (within start stop s.log : ℚ) ≤ target * 1024 * 1024 * (stop - start) + chunkSize := by
  intro loop _ turns s reached
  obtain ⟨delay, pauses⟩ := delay_positive limited positive
  have good := run_spaced pauses reached
  refine ⟨good.complete, ?_⟩
  intro start stop window
  have rate : target * 1024 * 1024 = target * mebibyte := mul_assoc _ _ _
  have fast : 0 < target * mebibyte := mul_pos positive mebibyte_positive
  rw [rate]
  apply within_bound fast good.paced _ good.small window
  intro entry member
  rw [delay, mul_div_cancel₀ _ fast.ne']
  exact Nat.cast_le.mpr (good.small entry member)

def oneMegabyte : Config := { durationSeconds := 10, targetMbps := some 1, startTime := 0 }

/-- Two chunks of the unix sender, the second a short one, each sent in no time. -/
theorem window_bounded_for_short_chunk : ∃ s, Runs.run (timedStep (unixPaced oneMegabyte))
    (begin (unixPaced oneMegabyte))
    [(⟨0, .received (List.replicate 8192 0) true, 0⟩, ⟨0, 1 / 128, 0⟩),
      (⟨1, .received [1, 2] true, 1⟩, ⟨0, 1, 0⟩)] = some s ∧
    (within 0 (1 / 128) s.log : ℚ) ≤ 1 * 1024 * 1024 * (1 / 128 - 0) + chunkSize := by
  obtain ⟨s, reached, -⟩ : ∃ s, Runs.run (timedStep (unixPaced oneMegabyte))
      (begin (unixPaced oneMegabyte))
      [(⟨0, .received (List.replicate 8192 0) true, 0⟩, ⟨0, 1 / 128, 0⟩),
        (⟨1, .received [1, 2] true, 1⟩, ⟨0, 1, 0⟩)] = some s ∧ s.log.length = 2 :=
    Runs.reaches (by decide +kernel)
  have bounded := window_bounded oneMegabyte rfl one_pos (unixPaced oneMegabyte) (by simp [pacedLoops])
    _ s reached
  exact ⟨s, reached, bounded.2 0 (1 / 128) (by norm_num)⟩

end Pacing
