import MigrationTransport.ProxyPerf.BenchLoops

/-!
The interval figure of a report. It is called a rate, and is printed beside the average rate
as one, but it is the bytes since the last report, in megabytes, whatever time has gone by.
It is a rate after exactly one second, or after no bytes.
-/
namespace IntervalRate
open ProxyPerf BenchLoops Telescope
open UnixSender (Config)

def lastBytes (reports : List Report) : ℚ := latest (fun r => (r.bytes : ℚ)) 0 reports

def times (reports : List Report) : List ℚ := differences Report.elapsed 0 reports

/-- Every interval figure is the bytes since the report before it, divided by the time. -/
def Rates (reports : List Report) : Prop := ∀ earlier r, earlier ++ [r] <+: reports →
  r.intervalMbps =
    (r.bytes - lastBytes earlier) / (mebibyte * (r.elapsed - latest Report.elapsed 0 earlier))

def weightedSum (reports : List Report) : ℚ :=
  (List.zipWith (fun r time => r.intervalMbps * time) reports (times reports)).sum

/-- The mean of the interval figures, each weighted with the time of its interval. -/
def weightedMean (reports : List Report) : ℚ := weightedSum reports / (times reports).sum

def MeansAgree (reports : List Report) : Prop := ∀ earlier r, earlier ++ [r] <+: reports →
  weightedMean (earlier ++ [r]) = r.totalMbps

/-- If the pass reports, then one second after the last report, or no bytes after it. -/
def OnTheSecond (m : Meter) (pass : Pass) : Prop :=
  ∀ currentTime, pass.clock = some currentTime → due m.progress currentTime →
    currentTime - m.progress.lastReportTime = 1 ∨
      (m.count pass.counted).bytes = m.progress.lastReportBytes

structure Line (earlier : List Report) (r : Report) : Prop where
  later : latest Report.elapsed 0 earlier + 1 ≤ r.elapsed
  elapsed : 0 < r.elapsed
  interval : r.intervalMbps = (r.bytes - lastBytes earlier) / mebibyte
  total : r.totalMbps = r.bytes / (r.elapsed * mebibyte)

structure Logged (startTime : ℚ) (m : Meter) : Prop where
  telescopes : Telescopes startTime m
  time : latest Report.elapsed 0 m.progress.reports = m.progress.lastReportTime - startTime
  bytes : lastBytes m.progress.reports = m.progress.lastReportBytes
  lines : ∀ earlier r, earlier ++ [r] <+: m.progress.reports → Line earlier r

variable {startTime currentTime : ℚ} {reports : List Report} {r : Report} {m : Meter}
  {counted : Option Nat}

theorem snoc_iff {holds : List Report → Report → Prop} :
    (∀ earlier q, earlier ++ [q] <+: reports ++ [r] → holds earlier q) ↔
      (∀ earlier q, earlier ++ [q] <+: reports → holds earlier q) ∧ holds reports r := by
  constructor
  · intro every
    constructor
    · intro earlier q here
      exact every earlier q (here.trans (List.prefix_append _ _))
    · exact every reports r (List.prefix_refl _)
  · rintro ⟨every, last⟩ earlier q here
    rcases List.prefix_concat_iff.mp here with whole | old
    · obtain ⟨rfl, same⟩ := List.append_inj' whole rfl
      rw [List.singleton_inj.mp same]
      exact last
    · exact every earlier q old

@[simp] theorem lastBytes_snoc : lastBytes (reports ++ [r]) = r.bytes := latest_snoc

theorem weightedSum_snoc : weightedSum (reports ++ [r]) =
    weightedSum reports + r.intervalMbps * (r.elapsed - latest Report.elapsed 0 reports) := by
  unfold weightedSum times
  rw [differences_snoc, List.zipWith_append differences_length.symm, List.sum_append]
  simp

theorem sum_times : (times reports).sum = latest Report.elapsed 0 reports := by
  rw [times, sum_differences, sub_zero]

/-- Rates that are rates add up to what was moved. -/
theorem weightedSum_rates (lines : ∀ earlier r, earlier ++ [r] <+: reports → Line earlier r)
    (rates : Rates reports) : weightedSum reports = lastBytes reports / mebibyte := by
  induction reports using List.reverseRecOn with
  | nil => simp [weightedSum, lastBytes]
  | append_singleton reports r ih =>
    obtain ⟨oldLines, line⟩ := snoc_iff.mp lines
    obtain ⟨oldRates, rate⟩ := snoc_iff.mp rates
    have apart : r.elapsed - latest Report.elapsed 0 reports ≠ 0 := by
      have later := line.later
      intro none
      linarith
    have unit := mebibyte_positive.ne'
    rw [weightedSum_snoc, ih oldLines oldRates, rate, lastBytes_snoc]
    field_simp
    ring

theorem means_agree (lines : ∀ earlier r, earlier ++ [r] <+: reports → Line earlier r)
    (rates : Rates reports) : MeansAgree reports := by
  intro earlier r here
  have sum : weightedSum (earlier ++ [r]) = lastBytes (earlier ++ [r]) / mebibyte :=
    weightedSum_rates (fun e q inside => lines e q (inside.trans here))
      (fun e q inside => rates e q (inside.trans here))
  rw [weightedMean, sum, sum_times, (lines earlier r here).total, latest_snoc, lastBytes_snoc,
    div_div, mul_comm]

/-- An interval figure is a rate after one second and after no bytes only. -/
theorem rate_iff {bytes time : ℚ} (positive : 0 < time) :
    bytes / mebibyte = bytes / (mebibyte * time) ↔ time = 1 ∨ bytes = 0 := by
  have unit := mebibyte_positive.ne'
  rw [div_eq_div_iff unit (mul_pos mebibyte_positive positive).ne']
  constructor
  · intro same
    by_cases none : bytes = 0
    · exact .inr none
    · left
      have scaled : bytes * mebibyte * time = bytes * mebibyte * 1 := by linarith
      exact mul_left_cancel₀ (mul_ne_zero none unit) scaled
  · rintro (rfl | rfl)
    · rw [mul_one]
    · rw [zero_mul, zero_mul]

theorem init_logged : Logged startTime (.init startTime) where
  telescopes := init_telescopes
  time := by simp [Meter.init, Progress.init]
  bytes := by simp [Meter.init, Progress.init, lastBytes]
  lines := by simp [Meter.init, Progress.init]

theorem count_logged (logged : Logged startTime m) (counted : Option Nat) :
    Logged startTime (m.count counted) where
  telescopes := count_telescopes logged.telescopes counted
  time := by
    rw [count_progress]
    exact logged.time
  bytes := by
    rw [count_progress]
    exact logged.bytes
  lines := by
    rw [count_progress]
    exact logged.lines

theorem new_line (logged : Logged startTime m) (now : due m.progress currentTime) :
    Line m.progress.reports
      (reportLine m.progress startTime currentTime m.bytes m.chunks) := by
  have elapsed := due_elapsed now logged.telescopes.started
  constructor
  · rw [logged.time]
    unfold due at now
    simp only [reportLine]
    linarith
  · exact elapsed
  · rw [logged.bytes]
    rfl
  · simp only [reportLine, if_pos elapsed]

theorem look_logged (logged : Logged startTime m) (clock : Option ℚ) :
    Logged startTime (m.look startTime clock) := by
  have telescopes := look_telescopes logged.telescopes clock
  cases clock with
  | none => exact logged
  | some currentTime =>
    by_cases now : due m.progress currentTime
    · rw [Meter.look, report_due now] at telescopes ⊢
      refine ⟨telescopes, ?_, ?_, ?_⟩
      · rw [latest_snoc]
        rfl
      · exact lastBytes_snoc
      · exact snoc_iff.mpr ⟨logged.lines, new_line logged now⟩
    · rw [Meter.look, report_early now]
      exact logged

theorem pass_logged (logged : Logged startTime m) (pass : Pass) :
    Logged startTime (m.pass startTime pass) :=
  look_logged (count_logged logged pass.counted) pass.clock

theorem pass_rates (logged : Logged startTime m) (pass : Pass) :
    Rates (m.pass startTime pass).progress.reports ↔
      Rates m.progress.reports ∧ OnTheSecond m pass := by
  have counting := count_logged logged pass.counted
  have same := count_progress m pass.counted
  unfold Meter.pass OnTheSecond
  cases pass.clock with
  | none => simp [Meter.look, same]
  | some currentTime =>
    by_cases now : due m.progress currentTime
    · have here : due (m.count pass.counted).progress currentTime := by
        rw [same]
        exact now
      have line := new_line counting here
      have positive : 0 < currentTime - m.progress.lastReportTime := by
        unfold due at now
        linarith
      rw [Meter.look, report_due here]
      refine snoc_iff.trans ?_
      rw [line.interval, counting.time, counting.bytes, same]
      have apart : (reportLine m.progress startTime currentTime (m.count pass.counted).bytes
          (m.count pass.counted).chunks).elapsed - (m.progress.lastReportTime - startTime) =
            currentTime - m.progress.lastReportTime := by
        simp only [reportLine]
        ring
      rw [apart, rate_iff positive]
      simp [now, reportLine, sub_eq_zero, Rates]
    · have early : ¬ due (m.count pass.counted).progress currentTime := by
        rw [same]
        exact now
      rw [Meter.look, report_early early, same]
      simp [now]

theorem loop_logged {loop : BenchLoop startTime} {s : loop.State} {turns : List loop.Turn}
    (reached : Runs.run loop.step loop.start turns = some s) : Logged startTime (loop.meter s) := by
  apply Runs.invariant_run (fun s => Logged startTime (loop.meter s)) _ _ reached
  · intro s turn t logged stepped
    rw [loop.follows logged.telescopes.started stepped]
    exact pass_logged logged (loop.pass turn)
  · rw [loop.started]
    exact init_logged

/-- In every loop of the benchmarks, the interval figures are rates, and agree with the
    averages, if and only if each report is made one second after the last one or has no
    bytes to report. -/
theorem interval_is_rate_iff (cfg : Config) : ∀ loop ∈ benchLoops cfg,
    ∀ (turns : List loop.Turn) (s : loop.State), Runs.run loop.step loop.start turns = some s →
      (Rates (loop.meter s).progress.reports ∧ MeansAgree (loop.meter s).progress.reports ↔
        Runs.Along loop.step (fun s turn => OnTheSecond (loop.meter s) (loop.pass turn))
          loop.start turns) := by
  intro loop _ turns s reached
  have logged := loop_logged reached
  have none : Rates (loop.meter loop.start).progress.reports := by
    rw [loop.started]
    simp [Meter.init, Progress.init, Rates]
  have exact_ : Rates (loop.meter s).progress.reports ↔
      Rates (loop.meter loop.start).progress.reports ∧
        Runs.Along loop.step (fun s turn => OnTheSecond (loop.meter s) (loop.pass turn))
          loop.start turns := by
    apply Runs.exact_along (fun s => Logged cfg.startTime (loop.meter s)) _ _ _ _ reached
    · intro s turn t logged stepped
      rw [loop.follows logged.telescopes.started stepped]
      exact pass_logged logged (loop.pass turn)
    · intro s turn t logged stepped
      rw [loop.follows logged.telescopes.started stepped]
      exact pass_rates logged (loop.pass turn)
    · rw [loop.started]
      exact init_logged
  constructor
  · rintro ⟨rates, _⟩
    exact (exact_.mp rates).2
  · intro along
    have rates := exact_.mpr ⟨none, along⟩
    exact ⟨rates, means_agree logged.lines rates⟩

/-- One report a second after the start. -/
theorem rate_after_one_second : ∃ s, Runs.run (BenchmarkSend.tcpBenchmarkSend tenSeconds)
    (BenchmarkSend.init 0) [⟨0, true, 1⟩] = some s ∧ s.progress.reports.length = 1 ∧
      Rates s.progress.reports ∧ MeansAgree s.progress.reports := by
  obtain ⟨s, reached, reported⟩ : ∃ s, Runs.run (BenchmarkSend.tcpBenchmarkSend tenSeconds)
      (BenchmarkSend.init 0) [⟨0, true, 1⟩] = some s ∧ s.progress.reports.length = 1 :=
    Runs.reaches (by decide +kernel)
  have rate := interval_is_rate_iff tenSeconds (BenchmarkSend.tcpLoop tenSeconds)
    List.mem_cons_self [⟨0, true, 1⟩] s reached
  refine ⟨s, reached, reported, rate.mpr ?_⟩
  refine ⟨?_, fun _ _ => trivial⟩
  intro currentTime clock now
  left
  have one : currentTime = 1 := by
    simpa [BenchmarkSend.tcpLoop, BenchmarkSend.loop, BenchmarkSend.pass, BenchmarkSend.inTime,
      tenSeconds] using clock.symm
  rw [one]
  exact sub_zero 1

/-- The first send takes two seconds; its 8192 bytes are printed as twice their rate. -/
theorem slow_interval_is_no_rate : ¬ ∀ (cfg : Config) (turns : List BenchmarkSend.Turn)
    (s : BenchmarkSend.Sender), Runs.run (BenchmarkSend.tcpBenchmarkSend cfg)
      (BenchmarkSend.init cfg.startTime) turns = some s →
        Rates s.progress.reports ∧ MeansAgree s.progress.reports := by
  intro always
  obtain ⟨s, reached, printed⟩ : ∃ s, Runs.run (BenchmarkSend.tcpBenchmarkSend tenSeconds)
      (BenchmarkSend.init 0) [⟨0, true, 2⟩] = some s ∧
        s.progress.reports = [⟨2, 8192, 1, 1 / 128, 1 / 256⟩] :=
    Runs.reaches (by decide +kernel)
  have rates := (always tenSeconds [⟨0, true, 2⟩] s reached).1
  have rate := rates [] ⟨2, 8192, 1, 1 / 128, 1 / 256⟩ (by rw [printed]; exact List.prefix_refl _)
  norm_num [lastBytes, mebibyte] at rate

end IntervalRate
