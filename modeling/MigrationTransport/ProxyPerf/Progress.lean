import MigrationTransport.ByteStream

/-!
The progress report that every loop of the benchmarks makes about once a second, and the
delay of the rate limiter. Clock readings and rates are exact rational numbers.
-/
namespace ProxyPerf

def mebibyte : ℚ := 1024 * 1024

structure Report where
  elapsed : ℚ
  bytes : Nat
  chunks : Nat
  intervalMbps : ℚ
  totalMbps : ℚ
  deriving DecidableEq

structure Progress where
  lastReportTime : ℚ
  lastReportBytes : Nat
  reports : List Report
  deriving DecidableEq

def Progress.init (startTime : ℚ) : Progress where
  lastReportTime := startTime
  lastReportBytes := 0
  reports := []

def reportLine (p : Progress) (startTime currentTime : ℚ) (bytes chunks : Nat) : Report :=
  let elapsed := currentTime - startTime
  let intervalBytes : ℚ := bytes - p.lastReportBytes
  { elapsed := elapsed
    bytes := bytes
    chunks := chunks
    intervalMbps := intervalBytes / mebibyte
    totalMbps := if 0 < elapsed then bytes / (elapsed * mebibyte) else 0 }

/-- `if current_time - last_report_time >= 1.0` -/
def Progress.report (p : Progress) (startTime currentTime : ℚ) (bytes chunks : Nat) : Progress :=
  if 1 ≤ currentTime - p.lastReportTime then
    { lastReportTime := currentTime
      lastReportBytes := bytes
      reports := p.reports ++ [reportLine p startTime currentTime bytes chunks] }
  else p

/-- The report of the loops that divide by the elapsed time without a test; `none` is
    `ZeroDivisionError`. -/
def Progress.reportUnguarded (p : Progress) (startTime currentTime : ℚ) (bytes chunks : Nat) :
    Option Progress :=
  if 1 ≤ currentTime - p.lastReportTime then
    let elapsed := currentTime - startTime
    let intervalBytes : ℚ := bytes - p.lastReportBytes
    if elapsed = 0 then none
    else some {
      lastReportTime := currentTime
      lastReportBytes := bytes
      reports := p.reports ++ [{
        elapsed := elapsed
        bytes := bytes
        chunks := chunks
        intervalMbps := intervalBytes / mebibyte
        totalMbps := bytes / (elapsed * mebibyte) }] }
  else some p

/-- No rate, or the rate 0, asks for no delay. -/
def sendDelay (chunkSize : Nat) : Option ℚ → ℚ
  | none => 0
  | some targetMbps => if targetMbps = 0 then 0 else chunkSize / (targetMbps * mebibyte)

end ProxyPerf
