import MigrationTransport.ProxyPerf.UnixSender

/-!
What a failed `sendall` does to the stream of `benchmark_send_unix`: the loop goes on as
after a read that found nothing, so the chunk is missing in the middle of what is sent.
-/
namespace UnixSenderGap
open ByteStream ProxyPerf UnixSender AttemptLog

def attempt (cfg : Config) (turn : Turn) : Option (Bytes × Bool) :=
  match turn.poll with
  | .received data sent => if inTime cfg turn then some (data, sent) else none
  | _ => none

def takes (cfg : Config) (turn : Turn) : Prop := attempt cfg turn ≠ none

def sendRaised (cfg : Config) (turn : Turn) : Prop :=
  ∃ data, attempt cfg turn = some (data, false)

structure Counted (s : Sender) : Prop where
  bytes : s.bytesSent = (succeeded s.attempts).flatten.length
  chunks : s.chunksSent = (succeeded s.attempts).length

variable {cfg : Config} {s t : Sender} {turn : Turn}

/-- What one turn did to the counters and the history, and with which chunk. -/
inductive Effect (cfg : Config) (s : Sender) (turn : Turn) (t : Sender) : Prop where
  | nothing (none : attempt cfg turn = none) (attempts : t.attempts = s.attempts)
      (bytes : t.bytesSent = s.bytesSent) (chunks : t.chunksSent = s.chunksSent)
  | sent (data : Bytes) (taken : attempt cfg turn = some (data, true))
      (attempts : t.attempts = s.attempts ++ [(data, true)])
      (bytes : t.bytesSent = s.bytesSent + data.length)
      (chunks : t.chunksSent = s.chunksSent + 1)
  | failed (data : Bytes) (taken : attempt cfg turn = some (data, false))
      (attempts : t.attempts = s.attempts ++ [(data, false)])
      (bytes : t.bytesSent = s.bytesSent) (chunks : t.chunksSent = s.chunksSent)

theorem step_effect (stepped : step cfg s turn = some t) : Effect cfg s turn t := by
  simp only [step, Option.ite_none_right_eq_some] at stepped
  obtain ⟨-, stepped⟩ := stepped
  split at stepped
  · rename_i here
    cases polled : turn.poll with
    | received data sent =>
      simp only [polled, Option.ite_none_right_eq_some] at stepped
      obtain ⟨-, stepped⟩ := stepped
      cases sent with
      | true =>
        rw [if_pos rfl, Option.some.injEq] at stepped
        subst stepped
        exact .sent data (by simp [attempt, polled, here]) rfl rfl rfl
      | false =>
        rw [if_neg Bool.false_ne_true, Option.some.injEq] at stepped
        subst stepped
        exact .failed data (by simp [attempt, polled, here]) rfl rfl rfl
    | _ =>
      simp only [polled, Option.some.injEq] at stepped
      subst stepped
      exact .nothing (by simp [attempt, polled]) rfl rfl rfl
  · rename_i late
    rw [Option.some.injEq] at stepped
    subst stepped
    refine .nothing ?_ rfl rfl rfl
    unfold attempt
    split
    · exact if_neg late
    · rfl

theorem step_attempts (stepped : step cfg s turn = some t) :
    t.attempts = s.attempts ++ (attempt cfg turn).toList := by
  cases step_effect stepped with
  | nothing none attempts => simp [none, attempts]
  | sent data taken attempts => simp [taken, attempts]
  | failed data taken attempts => simp [taken, attempts]

theorem step_counted (counted : Counted s) (stepped : step cfg s turn = some t) : Counted t := by
  obtain ⟨total, number⟩ := counted
  cases step_effect stepped with
  | nothing none attempts bytes chunks =>
    constructor
    · rw [bytes, attempts, total]
    · rw [chunks, attempts, number]
  | sent data taken attempts bytes chunks =>
    constructor
    · rw [bytes, attempts, total, succeeded_append]
      simp
    · rw [chunks, attempts, number, succeeded_append]
      simp
  | failed data taken attempts bytes chunks =>
    constructor
    · rw [bytes, attempts, total, succeeded_append]
      simp
    · rw [chunks, attempts, number, succeeded_append]
      simp

theorem run_attempts {turns : List Turn} (reached : Runs.run (step cfg) s turns = some t) :
    t.attempts = s.attempts ++ turns.filterMap (attempt cfg) := by
  induction turns generalizing s with
  | nil =>
    rw [Runs.run_nil] at reached
    subst reached
    simp
  | cons turn turns ih =>
    obtain ⟨u, first, later⟩ := Runs.run_cons.mp reached
    rw [ih later, step_attempts first, List.append_assoc]
    cases taken : attempt cfg turn with
    | none => rw [List.filterMap_cons_none taken, Option.toList_none, List.nil_append]
    | some chunk => rw [List.filterMap_cons_some taken, Option.toList_some, List.singleton_append]

theorem init_counted (startTime : ℚ) : Counted (init startTime) := ⟨rfl, rfl⟩

theorem attempts_gapless {turns : List Turn} : NoGap (turns.filterMap (attempt cfg)) ↔
    turns.Pairwise fun earlier later => sendRaised cfg earlier → ¬ takes cfg later := by
  rw [noGap_iff, List.pairwise_filterMap]
  apply List.Pairwise.iff
  intro earlier later
  constructor
  · rintro fine ⟨data, raised⟩ taken
    obtain ⟨chunk, next⟩ := Option.ne_none_iff_exists'.mp taken
    have success := fine (data, false) raised chunk next
    simp at success
  · rintro fine ⟨data, sent⟩ taken chunk next
    cases sent with
    | true => rfl
    | false =>
      have again : takes cfg later := by simp [takes, next]
      exact absurd again (fine ⟨data, taken⟩)

/-- What `benchmark_send_unix` sends is an initial part of what it takes from the unix socket,
    with at most one chunk behind it, if and only if it takes no chunk after a `sendall` that
    raised. -/
theorem no_gap_iff {turns : List Turn}
    (reached : Runs.run (step cfg) (init cfg.startTime) turns = some s) :
    NoGap s.attempts ∧ s.bytesSent = (succeeded s.attempts).flatten.length ↔
      turns.Pairwise fun earlier later => sendRaised cfg earlier → ¬ takes cfg later := by
  have counted : Counted s :=
    Runs.invariant_run Counted (fun _ _ _ => step_counted) (init_counted cfg.startTime) reached
  have attempts : s.attempts = turns.filterMap (attempt cfg) := by
    rw [run_attempts reached]
    rfl
  rw [← attempts_gapless, ← attempts]
  exact and_iff_left counted.bytes

def tenSeconds : Config := { durationSeconds := 10, targetMbps := none, startTime := 0 }

/-- Two chunks, of which the second is lost, and then the end of the stream. -/
theorem no_gap_at_the_end : ∃ s, Runs.run (step tenSeconds) (init 0)
    [⟨0, .received [1] true, 0⟩, ⟨1, .received [2] false, 1⟩, ⟨2, .disconnected, 2⟩] = some s ∧
      NoGap s.attempts ∧ s.bytesSent = (succeeded s.attempts).flatten.length := by
  obtain ⟨s, reached, -⟩ : ∃ s, Runs.run (step tenSeconds) (init 0)
      [⟨0, .received [1] true, 0⟩, ⟨1, .received [2] false, 1⟩, ⟨2, .disconnected, 2⟩] = some s ∧
        s.running = false := Runs.reaches (by decide +kernel)
  refine ⟨s, reached, (no_gap_iff reached).mpr ?_⟩
  simp [takes, sendRaised, attempt]

/-- The chunk `[1]` is lost, and `[2]` is sent after it. -/
theorem failed_send_leaves_gap : ¬ ∀ (cfg : Config) (turns : List Turn) (s : Sender),
    Runs.run (step cfg) (init cfg.startTime) turns = some s →
      NoGap s.attempts ∧ s.bytesSent = (succeeded s.attempts).flatten.length := by
  intro always
  obtain ⟨s, reached, attempts⟩ : ∃ s, Runs.run (step tenSeconds) (init 0)
      [⟨0, .received [1] false, 0⟩, ⟨1, .received [2] true, 1⟩] = some s ∧
        s.attempts = [([1], false), ([2], true)] := Runs.reaches (by decide +kernel)
  have gapless := (always tenSeconds _ s reached).1.nothingAfter
  simp [attempts] at gapless

end UnixSenderGap
