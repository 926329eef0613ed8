import MigrationTransport.ProxyPerf.Pacing

/-!
How long `benchmark_send_unix` asks to sleep for a stream. It asks for the pause of a whole
chunk after every chunk, so how long depends on how the stream was cut.
-/
namespace Segmentation
open ByteStream ProxyPerf BenchLoops UnixSender
open Pacing (oneMegabyte)

def sends (cfg : Config) (turn : Turn) : Option Bytes :=
  match turn.poll with
  | .received data true => if inTime cfg turn then some data else none
  | .received _ false | .selectRaises | .idle | .recvRaises | .disconnected => none

def forwarded (cfg : Config) (turns : List Turn) : List Bytes := turns.filterMap (sends cfg)

variable {cfg : Config} {s t : Sender} {turn : Turn} {turns : List Turn} {target : ℚ}

theorem counted_sends : (unixSenderPass cfg turn).counted = (sends cfg turn).map List.length := by
  unfold unixSenderPass sends
  by_cases here : inTime cfg turn
  · rw [if_pos here]
    cases turn.poll with
    | received data sent => cases sent <;> simp [here]
    | _ => rfl
  · rw [if_neg here]
    cases turn.poll with
    | received data sent => cases sent <;> simp [here]
    | _ => rfl

theorem step_delays (limited : cfg.targetMbps = some target) (positive : 0 < target)
    (stepped : step cfg s turn = some t) : t.delays.sum =
      s.delays.sum + (sends cfg turn).toList.length * (chunkSize / (target * mebibyte)) := by
  obtain ⟨delay, pauses⟩ := Pacing.delay_positive limited positive
  rw [(Pacing.unixSender_paced stepped).1, counted_sends, List.sum_append]
  cases sends cfg turn with
  | none => simp [Pacing.asked]
  | some data =>
    rw [Option.map_some, Pacing.asked, if_pos pauses, delay]
    simp [chunkSize, Pacing.chunkSize]

theorem step_bytes (stepped : step cfg s turn = some t) :
    t.bytesSent = s.bytesSent + (sends cfg turn).toList.flatten.length := by
  have follows := congrArg Meter.bytes (unixSender_follows stepped)
  rw [pass_bytes, counted_sends] at follows
  refine follows.trans ?_
  cases sends cfg turn with
  | none => rfl
  | some data => simp [unixSenderMeter]

theorem step_small (stepped : step cfg s turn = some t) :
    ∀ data ∈ (sends cfg turn).toList, data.length ≤ chunkSize := by
  intro data sent
  have counts : data.length ∈ (unixSenderPass cfg turn).counted := by
    rw [counted_sends, Option.mem_toList.mp sent]
    exact Option.mem_some_self _
  exact (Pacing.unixSender_paced stepped).2 data.length counts

theorem forwarded_cons : forwarded cfg (turn :: turns) =
    (sends cfg turn).toList ++ forwarded cfg turns := by
  unfold forwarded
  rw [List.filterMap_cons]
  cases sends cfg turn <;> rfl

theorem run_totals (limited : cfg.targetMbps = some target) (positive : 0 < target)
    (reached : Runs.run (step cfg) s turns = some t) :
    t.delays.sum = s.delays.sum +
        (forwarded cfg turns).length * (chunkSize / (target * mebibyte)) ∧
      t.bytesSent = s.bytesSent + (forwarded cfg turns).flatten.length ∧
      ∀ data ∈ forwarded cfg turns, data.length ≤ chunkSize := by
  induction turns generalizing s with
  | nil =>
    rw [Runs.run_nil] at reached
    subst reached
    simp [forwarded]
  | cons turn turns ih =>
    obtain ⟨u, first, later⟩ := Runs.run_cons.mp reached
    obtain ⟨delays, bytes, small⟩ := ih later
    rw [forwarded_cons]
    refine ⟨?_, ?_, ?_⟩
    · rw [delays, step_delays limited positive first, List.length_append, Nat.cast_add]
      ring
    · rw [bytes, step_bytes first, List.flatten_append, List.length_append, Nat.add_assoc]
    · intro data member
      rcases List.mem_append.mp member with here | after
      · exact step_small first data here
      · exact small data after

theorem flatten_bound {chunks : List Bytes} {n : Nat} (small : ∀ c ∈ chunks, c.length ≤ n) :
    chunks.flatten.length ≤ chunks.length * n := by
  induction chunks with
  | nil => simp
  | cons c chunks ih =>
    obtain ⟨first, small⟩ := List.forall_mem_cons.mp small
    have rest := ih small
    rw [List.flatten_cons, List.length_append, List.length_cons, Nat.succ_mul]
    omega

/-- Chunks of at most `n` bytes have `n` bytes on average when each has. -/
theorem flatten_full {chunks : List Bytes} {n : Nat} (small : ∀ c ∈ chunks, c.length ≤ n) :
    chunks.flatten.length = chunks.length * n ↔ ∀ c ∈ chunks, c.length = n := by
  induction chunks with
  | nil => simp
  | cons c chunks ih =>
    obtain ⟨first, small⟩ := List.forall_mem_cons.mp small
    have bound := flatten_bound small
    rw [List.forall_mem_cons, ← ih small, List.flatten_cons, List.length_append,
      List.length_cons, Nat.succ_mul]
    omega

/-- The pauses for a stream are those of its bytes if and only if every chunk sent is a whole
    one, and two cuts of a stream ask for equal pauses if and only if they have equally many
    chunks. -/
theorem paced_by_bytes_iff (limited : cfg.targetMbps = some target) (positive : 0 < target)
    (reached : Runs.run (step cfg) (init cfg.startTime) turns = some s) :
    (s.delays.sum = s.bytesSent / (target * 1024 * 1024) ↔
        ∀ data ∈ forwarded cfg turns, data.length = chunkSize) ∧
      ∀ otherTurns t, Runs.run (step cfg) (init cfg.startTime) otherTurns = some t →
        (forwarded cfg turns).flatten = (forwarded cfg otherTurns).flatten →
          (s.delays.sum = t.delays.sum ↔
            (forwarded cfg turns).length = (forwarded cfg otherTurns).length) := by
  obtain ⟨delays, bytes, small⟩ := run_totals limited positive reached
  have fast : target * mebibyte ≠ 0 := (mul_pos positive mebibyte_positive).ne'
  have whole : (chunkSize : ℚ) ≠ 0 := by norm_num [chunkSize]
  have fresh : (init cfg.startTime).delays.sum = 0 := rfl
  have none : (init cfg.startTime).bytesSent = 0 := rfl
  rw [fresh, zero_add] at delays
  rw [none, Nat.zero_add] at bytes
  constructor
  · rw [← flatten_full small, delays, bytes, mul_assoc target 1024 1024,
      show (1024 * 1024 : ℚ) = mebibyte from rfl, ← mul_div_assoc, div_left_inj' fast]
    norm_cast
    exact eq_comm
  · intro otherTurns t again _
    have others := (run_totals limited positive again).1
    rw [fresh, zero_add] at others
    rw [delays, others, mul_left_inj' (div_ne_zero whole fast), Nat.cast_inj]

def arrives (chunk : Bytes) : Turn := ⟨0, .received chunk true, 0⟩

theorem forwarded_arrives (chunks : List Bytes) :
    forwarded oneMegabyte (chunks.map arrives) = chunks := by
  induction chunks with
  | nil => rfl
  | cons chunk chunks ih =>
    rw [List.map_cons, forwarded_cons, ih]
    simp [arrives, sends, inTime, oneMegabyte]

def wholeChunks : List Bytes := [List.replicate 8192 0, List.replicate 8192 0]

def unevenChunks : List Bytes :=
  [List.replicate 4096 0, List.replicate 8192 0, List.replicate 4096 0]

/-- Two whole chunks, and the same bytes in three. -/
theorem paced_by_bytes_whole_chunks : ∃ s t,
    Runs.run (step oneMegabyte) (init 0) (wholeChunks.map arrives) = some s ∧
      Runs.run (step oneMegabyte) (init 0) (unevenChunks.map arrives) = some t ∧
      s.delays.sum = s.bytesSent / (1 * 1024 * 1024) ∧ s.delays.sum ≠ t.delays.sum := by
  obtain ⟨s, reached, -⟩ : ∃ s,
      Runs.run (step oneMegabyte) (init 0) (wholeChunks.map arrives) = some s ∧
        s.bytesSent = 16384 := Runs.reaches (by decide +kernel)
  obtain ⟨t, again, -⟩ : ∃ t,
      Runs.run (step oneMegabyte) (init 0) (unevenChunks.map arrives) = some t ∧
        t.bytesSent = 16384 := Runs.reaches (by decide +kernel)
  obtain ⟨exactly, compared⟩ := paced_by_bytes_iff rfl one_pos reached
  have sameBytes : wholeChunks.flatten = unevenChunks.flatten := by
    simp only [wholeChunks, unevenChunks, List.flatten_cons, List.flatten_nil, List.append_nil,
      List.replicate_append_replicate]
  have other := compared _ t again (by simpa only [forwarded_arrives] using sameBytes)
  rw [forwarded_arrives] at exactly
  rw [forwarded_arrives, forwarded_arrives] at other
  refine ⟨s, t, reached, again, exactly.mpr ?_, fun equal => ?_⟩
  · intro data member
    simp only [wholeChunks, List.mem_cons, List.not_mem_nil, or_false, or_self] at member
    rw [member]
    exact List.length_replicate
  · exact absurd (other.mp equal) (by decide)

/-- Two bytes are paused for twice when they come apart. -/
theorem pauses_depend_on_cut : ¬ ∀ (cfg : Config) (target : ℚ) (turns otherTurns : List Turn)
    (s t : Sender), cfg.targetMbps = some target → 0 < target →
      Runs.run (step cfg) (init cfg.startTime) turns = some s →
      Runs.run (step cfg) (init cfg.startTime) otherTurns = some t →
      (forwarded cfg turns).flatten = (forwarded cfg otherTurns).flatten →
        s.delays.sum = s.bytesSent / (target * 1024 * 1024) ∧ s.delays.sum = t.delays.sum := by
  intro always
  obtain ⟨s, reached, pauses⟩ : ∃ s, Runs.run (step oneMegabyte) (init 0)
      [⟨0, .received [1, 2] true, 0⟩] = some s ∧ s.delays = [1 / 128] :=
    Runs.reaches (by decide +kernel)
  obtain ⟨t, again, morePauses⟩ : ∃ t, Runs.run (step oneMegabyte) (init 0)
      [⟨0, .received [1] true, 0⟩, ⟨0, .received [2] true, 0⟩] = some t ∧
        t.delays = [1 / 128, 1 / 128] := Runs.reaches (by decide +kernel)
  have same := (always oneMegabyte 1 _ _ s t rfl one_pos reached again (by decide +kernel)).2
  norm_num [pauses, morePauses] at same

end Segmentation
