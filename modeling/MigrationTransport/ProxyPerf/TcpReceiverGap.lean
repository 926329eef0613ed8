import MigrationTransport.Lib.AttemptLog
import MigrationTransport.ProxyPerf.TcpReceiver

/-!
`handle_client_unix` forwards without a gap. The loop ends with the first chunk that it
cannot forward, so what it has forwarded is an initial part of what it has received, and the
counters are about exactly this part.
-/
namespace TcpReceiverGap
open ByteStream ProxyPerf TcpReceiver AttemptLog

def attempt (turn : UnixTurn) : Option (Bytes × Bool) :=
  match turn.recv with
  | .received data => some (data, decide (turn.sendall = none))
  | .empty | .raises _ => none

def Forwards (turn : UnixTurn) : Prop := ∃ data, turn.recv = .received data ∧ turn.sendall = none

structure Counted (s : Forwarder) : Prop where
  bytes : s.bytesReceived = (succeeded s.attempts).flatten.length
  chunks : s.chunksReceived = (succeeded s.attempts).length

/-- While the loop runs nothing has failed, and only the last attempt can. -/
structure Forwarding (startTime : ℚ) (s : Forwarder) : Prop where
  started : startTime ≤ s.progress.lastReportTime
  counted : Counted s
  gapless : s.attempts.Pairwise fun earlier _ => earlier.2 = true
  fine : s.running = true → ∀ attempt ∈ s.attempts, attempt.2 = true

variable {startTime : ℚ} {s t : Forwarder} {turn : UnixTurn} {turns : List UnixTurn}

theorem handleClientUnix_running (stepped : handleClientUnix startTime s turn = some t) :
    s.running = true := by
  rw [handleClientUnix, Option.ite_none_right_eq_some] at stepped
  exact stepped.1

theorem step_attempts (started : startTime ≤ s.progress.lastReportTime)
    (stepped : handleClientUnix startTime s turn = some t) :
    t.attempts = s.attempts ++ (attempt turn).toList := by
  unfold attempt
  cases handleClientUnix_effect started stepped with
  | forwarded data recv sent running meter attempts => simp [attempts, recv, sent]
  | failed data e recv raised running meter attempts => simp [attempts, recv, raised]
  | waits recv running meter attempts => simp [attempts, recv]
  | ends recv running meter attempts =>
    rcases recv with recv | ⟨e, recv, -⟩
    · simp [attempts, recv]
    · simp [attempts, recv]

theorem step_counted (counted : Counted s) (started : startTime ≤ s.progress.lastReportTime)
    (stepped : handleClientUnix startTime s turn = some t) : Counted t := by
  obtain ⟨bytes, chunks⟩ := counted
  have effect := handleClientUnix_effect started stepped
  have kept : t.meter = s.meter →
      t.bytesReceived = s.bytesReceived ∧ t.chunksReceived = s.chunksReceived := by
    intro same
    exact ⟨congrArg Meter.bytes same, congrArg Meter.chunks same⟩
  cases effect with
  | forwarded data recv sent running meter attempts =>
    have more : t.bytesReceived = s.bytesReceived + data.length := congrArg Meter.bytes meter
    have next : t.chunksReceived = s.chunksReceived + 1 := congrArg Meter.chunks meter
    constructor
    · simp [more, attempts, bytes]
    · simp [next, attempts, chunks]
  | failed data e recv raised running meter attempts =>
    obtain ⟨same, number⟩ := kept meter
    constructor
    · simp [same, attempts, bytes]
    · simp [number, attempts, chunks]
  | waits recv running meter attempts | ends recv running meter attempts =>
    obtain ⟨same, number⟩ := kept meter
    constructor
    · rw [same, attempts, bytes]
    · rw [number, attempts, chunks]

theorem step_forwarding (good : Forwarding startTime s)
    (stepped : handleClientUnix startTime s turn = some t) : Forwarding startTime t := by
  have fine := good.fine (handleClientUnix_running stepped)
  have started : startTime ≤ t.progress.lastReportTime := by
    have follows := handleClientUnix_follows good.started stepped
    have later := pass_later s.meter startTime (passUnix turn)
    rw [← follows] at later
    exact good.started.trans later
  have more : ∀ attempt : Bytes × Bool,
      (s.attempts ++ [attempt]).Pairwise fun earlier _ => earlier.2 = true := by
    intro attempt
    apply List.pairwise_append.mpr
    exact ⟨good.gapless, List.pairwise_singleton _ _, fun earlier member _ _ => fine earlier member⟩
  refine ⟨started, step_counted good.counted good.started stepped, ?_, ?_⟩
  · cases handleClientUnix_effect good.started stepped with
    | forwarded data recv sent running meter attempts =>
      rw [attempts]
      exact more (data, true)
    | failed data e recv raised running meter attempts =>
      rw [attempts]
      exact more (data, false)
    | waits recv running meter attempts | ends recv running meter attempts =>
      rw [attempts]
      exact good.gapless
  · intro still
    cases handleClientUnix_effect good.started stepped with
    | forwarded data recv sent running meter attempts =>
      intro attempt member
      rw [attempts, List.mem_append, List.mem_singleton] at member
      rcases member with old | new
      · exact fine attempt old
      · rw [new]
    | waits recv running meter attempts =>
      rw [attempts]
      exact fine
    | failed data e recv raised running | ends recv running =>
      rw [running] at still
      simp at still

theorem init_forwarding (startTime : ℚ) : Forwarding startTime (initUnix startTime) where
  started := le_refl startTime
  counted := ⟨rfl, rfl⟩
  gapless := .nil
  fine := by simp [initUnix]

theorem run_attempts (good : Forwarding startTime s)
    (reached : Runs.run (handleClientUnix startTime) s turns = some t) :
    t.attempts = s.attempts ++ turns.filterMap attempt := by
  induction turns generalizing s with
  | nil =>
    rw [Runs.run_nil] at reached
    subst reached
    simp
  | cons turn turns ih =>
    obtain ⟨u, first, later⟩ := Runs.run_cons.mp reached
    rw [ih (step_forwarding good first) later, step_attempts good.started first,
      List.append_assoc, List.filterMap_cons]
    cases attempt turn <;> simp

theorem goes_on_iff (good : Forwarding startTime s)
    (stepped : handleClientUnix startTime s turn = some t) :
    t.running = true ↔ Forwards turn ∨ turn.recv = .raises .sslWantRead := by
  unfold Forwards
  cases handleClientUnix_effect good.started stepped with
  | forwarded data recv sent running => simp [recv, sent, running]
  | failed data e recv raised running => simp [recv, raised, running]
  | waits recv running => simp [recv, running]
  | ends recv running =>
    rcases recv with recv | ⟨e, recv, other⟩
    · simp [recv, running]
    · simp [recv, running, other]

/-- What was forwarded is an initial part of what was received, with at most one chunk behind
    it, the counters are its totals, and the loop goes on after a forwarded chunk or an
    `SSLWantReadError` and after nothing else. -/
theorem forwards_without_gap
    (reached : Runs.run (handleClientUnix startTime) (initUnix startTime) turns = some s) :
    s.attempts = turns.filterMap attempt ∧ NoGap s.attempts ∧ Counted s ∧
      ∀ turn t, handleClientUnix startTime s turn = some t →
        (t.running = true ↔ Forwards turn ∨ turn.recv = .raises .sslWantRead) := by
  have good : Forwarding startTime s :=
    Runs.invariant_run (Forwarding startTime) (fun _ _ _ => step_forwarding)
      (init_forwarding startTime) reached
  have attempts := run_attempts (init_forwarding startTime) reached
  refine ⟨attempts, noGap_iff.mpr good.gapless, good.counted, ?_⟩
  intro turn t stepped
  exact goes_on_iff good stepped

/-- One chunk is forwarded, nothing is there to read, and the next chunk fails. -/
theorem forwards_until_reset : ∃ s, Runs.run (handleClientUnix 0) (initUnix 0)
    [⟨⟨.received [1], 0⟩, none⟩, ⟨⟨.raises .sslWantRead, 1⟩, none⟩,
      ⟨⟨.received [2], 2⟩, some .connectionReset⟩] = some s ∧
    NoGap s.attempts ∧ Counted s := by
  obtain ⟨s, reached, -⟩ : ∃ s, Runs.run (handleClientUnix 0) (initUnix 0)
      [⟨⟨.received [1], 0⟩, none⟩, ⟨⟨.raises .sslWantRead, 1⟩, none⟩,
        ⟨⟨.received [2], 2⟩, some .connectionReset⟩] = some s ∧ s.running = false :=
    Runs.reaches (by decide +kernel)
  have gapless := forwards_without_gap reached
  exact ⟨s, reached, gapless.2.1, gapless.2.2.1⟩

end TcpReceiverGap
