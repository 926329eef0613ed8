import MigrationTransport.Lib.Runs
import MigrationTransport.Lib.Telescope
import MigrationTransport.ProxyPerf.Progress

/-!
What the loops of the benchmarks have in common: a count of bytes and chunks, and a report
of it about once a second. A `Meter` is these counters alone, and a loop of the benchmarks
is one whose every pass does to its counters what a meter does.
-/
namespace ProxyPerf

structure Meter where
  bytes : Nat
  chunks : Nat
  progress : Progress
  deriving DecidableEq

def Meter.init (startTime : ℚ) : Meter where
  bytes := 0
  chunks := 0
  progress := .init startTime

/-- One pass through a loop: the length of the chunk that is counted, and the clock that is
    read for the report, where the pass gets that far. -/
structure Pass where
  counted : Option Nat
  clock : Option ℚ
  deriving DecidableEq

def Meter.count (m : Meter) : Option Nat → Meter
  | none => m
  | some length => { m with bytes := m.bytes + length, chunks := m.chunks + 1 }

def Meter.look (m : Meter) (startTime : ℚ) : Option ℚ → Meter
  | none => m
  | some currentTime =>
    { m with progress := m.progress.report startTime currentTime m.bytes m.chunks }

def Meter.pass (m : Meter) (startTime : ℚ) (pass : Pass) : Meter :=
  (m.count pass.counted).look startTime pass.clock

/-- A loop of the benchmarks that starts at `startTime`. The division of an unguarded report
    is known to be safe only while the last report is not before the start. -/
structure BenchLoop (startTime : ℚ) where
  State : Type
  Turn : Type
  step : State → Turn → Option State
  start : State
  meter : State → Meter
  pass : Turn → Pass
  started : meter start = .init startTime
  follows : ∀ {s turn t}, startTime ≤ (meter s).progress.lastReportTime →
    step s turn = some t → meter t = (meter s).pass startTime (pass turn)

def due (p : Progress) (currentTime : ℚ) : Prop := 1 ≤ currentTime - p.lastReportTime

def intervalBytes (r : Report) : ℚ := r.intervalMbps * mebibyte

variable {startTime currentTime : ℚ} {bytes chunks : Nat} {p : Progress} {m : Meter}

theorem mebibyte_positive : 0 < mebibyte := by norm_num [mebibyte]

theorem report_due (now : due p currentTime) :
    p.report startTime currentTime bytes chunks = {
      lastReportTime := currentTime
      lastReportBytes := bytes
      reports := p.reports ++ [reportLine p startTime currentTime bytes chunks] } :=
  if_pos now

theorem report_early (early : ¬ due p currentTime) :
    p.report startTime currentTime bytes chunks = p :=
  if_neg early

theorem due_elapsed (now : due p currentTime) (started : startTime ≤ p.lastReportTime) :
    0 < currentTime - startTime := by
  unfold due at now
  linarith

/-- While the last report is not before the start, a loop that does not guard the division
    reports what a guarded one does. -/
theorem reportUnguarded_safe (started : startTime ≤ p.lastReportTime) :
    p.reportUnguarded startTime currentTime bytes chunks =
      some (p.report startTime currentTime bytes chunks) := by
  by_cases now : due p currentTime
  · have here : 1 ≤ currentTime - p.lastReportTime := now
    have elapsed := due_elapsed now started
    rw [report_due now]
    simp only [Progress.reportUnguarded, reportLine, if_pos here, if_pos elapsed,
      if_neg elapsed.ne']
  · have early : ¬ 1 ≤ currentTime - p.lastReportTime := now
    rw [report_early now, Progress.reportUnguarded, if_neg early]

structure Telescopes (startTime : ℚ) (m : Meter) : Prop where
  started : startTime ≤ m.progress.lastReportTime
  spaced : (m.progress.reports.length : ℚ) ≤ m.progress.lastReportTime - startTime
  elapsed : ∀ (k : Nat) (r : Report), m.progress.reports[k]? = some r → k + 1 ≤ r.elapsed
  intervals : ∀ r ∈ m.progress.reports, 0 ≤ intervalBytes r
  sum : (m.progress.reports.map intervalBytes).sum = m.progress.lastReportBytes
  counted : m.progress.lastReportBytes ≤ m.bytes

theorem init_telescopes : Telescopes startTime (.init startTime) := by
  constructor <;> simp [Meter.init, Progress.init]

theorem count_telescopes (good : Telescopes startTime m) (counted : Option Nat) :
    Telescopes startTime (m.count counted) := by
  cases counted with
  | none => exact good
  | some length =>
    have counted : m.progress.lastReportBytes ≤ m.bytes + length :=
      Nat.le_add_right_of_le good.counted
    exact { good with counted := counted }

theorem interval_bytes : intervalBytes (reportLine p startTime currentTime bytes chunks) =
    bytes - p.lastReportBytes :=
  div_mul_cancel₀ _ mebibyte_positive.ne'

theorem look_telescopes (good : Telescopes startTime m) (clock : Option ℚ) :
    Telescopes startTime (m.look startTime clock) := by
  cases clock with
  | none => exact good
  | some currentTime =>
    by_cases now : due m.progress currentTime
    · have later : m.progress.lastReportTime + 1 ≤ currentTime := by
        unfold due at now
        linarith
      have spaced := good.spaced
      have counted : (m.progress.lastReportBytes : ℚ) ≤ m.bytes := Nat.cast_le.mpr good.counted
      rw [Meter.look, report_due now]
      constructor
      · exact good.started.trans (by linarith)
      · rw [List.length_append, Nat.cast_add]
        simp only [List.length_singleton, Nat.cast_one]
        linarith
      · intro k r here
        rw [List.getElem?_append] at here
        split at here
        · exact good.elapsed k r here
        · rename_i last
          rw [List.getElem?_singleton, Option.ite_none_right_eq_some, Option.some.injEq] at here
          obtain ⟨end_, line⟩ := here
          have place : k = m.progress.reports.length := by omega
          rw [← line, place]
          simp only [reportLine]
          linarith
      · intro r member
        rcases List.mem_append.mp member with old | new
        · exact good.intervals r old
        · rw [List.mem_singleton.mp new, interval_bytes]
          linarith
      · rw [List.map_append, List.sum_append, good.sum, List.map_singleton, List.sum_singleton,
          interval_bytes]
        ring
      · exact le_refl m.bytes
    · rw [Meter.look, report_early now]
      exact good

theorem pass_telescopes (good : Telescopes startTime m) (pass : Pass) :
    Telescopes startTime (m.pass startTime pass) :=
  look_telescopes (count_telescopes good pass.counted) pass.clock

theorem look_later (m : Meter) (startTime : ℚ) (clock : Option ℚ) :
    m.progress.lastReportTime ≤ (m.look startTime clock).progress.lastReportTime := by
  cases clock with
  | none => exact le_refl _
  | some currentTime =>
    by_cases now : due m.progress currentTime
    · rw [Meter.look, report_due now]
      unfold due at now
      dsimp only
      linarith
    · rw [Meter.look, report_early now]

theorem count_progress (m : Meter) (counted : Option Nat) :
    (m.count counted).progress = m.progress := by
  cases counted <;> rfl

theorem pass_later (m : Meter) (startTime : ℚ) (pass : Pass) :
    m.progress.lastReportTime ≤ (m.pass startTime pass).progress.lastReportTime := by
  have later := look_later (m.count pass.counted) startTime pass.clock
  rwa [count_progress] at later

theorem look_bytes (m : Meter) (startTime : ℚ) (clock : Option ℚ) :
    (m.look startTime clock).bytes = m.bytes := by
  cases clock <;> rfl

theorem pass_bytes (m : Meter) (startTime : ℚ) (pass : Pass) :
    (m.pass startTime pass).bytes = m.bytes + pass.counted.getD 0 := by
  unfold Meter.pass
  rw [look_bytes]
  cases pass.counted <;> rfl

variable {loop : BenchLoop startTime} {s t : loop.State} {turn : loop.Turn}
  {turns : List loop.Turn}

theorem loop_step_telescopes (good : Telescopes startTime (loop.meter s))
    (stepped : loop.step s turn = some t) : Telescopes startTime (loop.meter t) := by
  rw [loop.follows good.started stepped]
  exact pass_telescopes good (loop.pass turn)

theorem loop_telescopes (reached : Runs.run loop.step loop.start turns = some s) :
    Telescopes startTime (loop.meter s) := by
  apply Runs.invariant_run (fun s => Telescopes startTime (loop.meter s)) _ _ reached
  · intro s turn t good stepped
    exact loop_step_telescopes good stepped
  · rw [loop.started]
    exact init_telescopes

end ProxyPerf
