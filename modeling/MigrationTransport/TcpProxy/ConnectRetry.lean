import MigrationTransport.TcpProxy.RelayTermination

/-!
`connect_to_unix_socket` of the server, which waits for the QEMU of the destination to listen:
thirty attempts, with a sleep of a second after each. In the model of a session connecting is
one step. Here it is the loop, and every run of the two proxies with the loop is a run of the
two proxies without it, so what is proved of these holds of those.
-/
namespace ConnectRetry
open ByteStream ForwardData ProxySession HalfClose ProxyRelay RelayComplete RelayTermination
open Termination Ranking

def maxRetries : Nat := 30

def retryDelay : Nat := 1

/-- `opening n`: attempt `n` has found the socket's path and awaits `open_unix_connection`.
    `sleeping n`: it has failed and the loop sleeps. `absent`: there is no handler yet. -/
inductive LoopPc where
  | absent
  | opening (n : Nat)
  | sleeping (n : Nat)
  | left
  deriving DecidableEq

/-- `slept` is in seconds. -/
structure State where
  relay : Relay
  loop : LoopPc
  attempts : Nat
  slept : Nat

def init (source destination : Bytes) : State where
  relay := ProxyRelay.init source destination
  loop := .absent
  attempts := 0
  slept := 0

/-- `there` is what `os.path.exists` says in the attempt that begins. `refused` is a
    `ConnectionRefusedError` or a `FileNotFoundError`, `openRaises` any other exception. -/
inductive Act where
  | establish (there : Bool)
  | opened
  | refused
  | openRaises
  | slept (there : Bool)
  | givesUp
  | relay (a : ProxyRelay.Act)
  deriving DecidableEq

def connects : ProxyRelay.Act → Bool
  | .establish | .server .connected | .server .connectRaises => true
  | _ => false

def attempt (n : Nat) (there : Bool) : LoopPc := if there then .opening n else .sleeping n

/-- A cancelled handler leaves the loop. -/
def afterRelay (loop : LoopPc) : ProxyRelay.Act → LoopPc
  | .server .cancelHandler => if loop = .absent then .absent else .left
  | _ => loop

def step (s : State) : Act → Option State
  | .establish there =>
    (ProxyRelay.step s.relay .establish).map fun r =>
      { s with relay := r, loop := attempt 0 there, attempts := 1 }
  | .opened =>
    match s.loop with
    | .opening _ =>
      (ProxyRelay.step s.relay (.server .connected)).map fun r =>
        { s with relay := r, loop := .left }
    | _ => none
  | .refused =>
    match s.loop with
    | .opening n => some { s with loop := .sleeping n }
    | _ => none
  | .openRaises =>
    match s.loop with
    | .opening _ =>
      (ProxyRelay.step s.relay (.server .connectRaises)).map fun r =>
        { s with relay := r, loop := .left }
    | _ => none
  | .slept there =>
    match s.loop with
    | .sleeping n =>
      if n + 1 < maxRetries then
        some { s with
          loop := attempt (n + 1) there
          attempts := s.attempts + 1
          slept := s.slept + retryDelay }
      else none
    | _ => none
  | .givesUp =>
    match s.loop with
    | .sleeping n =>
      if n + 1 < maxRetries then none
      else
        (ProxyRelay.step s.relay (.server .connectRaises)).map fun r =>
          { s with relay := r, loop := .left, slept := s.slept + retryDelay }
    | _ => none
  | .relay a =>
    if connects a = true then none
    else
      (ProxyRelay.step s.relay a).map fun r => { s with relay := r, loop := afterRelay s.loop a }

def shows : Act → Option ProxyRelay.Act
  | .establish _ => some .establish
  | .opened => some (.server .connected)
  | .openRaises | .givesUp => some (.server .connectRaises)
  | .refused | .slept _ => none
  | .relay a => some a

/-- What one step did, and when. -/
inductive Effect (s : State) : Act → State → Prop where
  | establish (there : Bool) (r : Relay) (moved : ProxyRelay.step s.relay .establish = some r) :
      Effect s (.establish there) { s with relay := r, loop := attempt 0 there, attempts := 1 }
  | opened (n : Nat) (r : Relay) (opening : s.loop = .opening n)
      (moved : ProxyRelay.step s.relay (.server .connected) = some r) :
      Effect s .opened { s with relay := r, loop := .left }
  | refused (n : Nat) (opening : s.loop = .opening n) :
      Effect s .refused { s with loop := .sleeping n }
  | openRaises (n : Nat) (r : Relay) (opening : s.loop = .opening n)
      (moved : ProxyRelay.step s.relay (.server .connectRaises) = some r) :
      Effect s .openRaises { s with relay := r, loop := .left }
  | slept (n : Nat) (there : Bool) (sleeping : s.loop = .sleeping n) (more : n + 1 < maxRetries) :
      Effect s (.slept there) { s with
        loop := attempt (n + 1) there, attempts := s.attempts + 1, slept := s.slept + retryDelay }
  | givesUp (n : Nat) (r : Relay) (sleeping : s.loop = .sleeping n) (last : ¬ n + 1 < maxRetries)
      (moved : ProxyRelay.step s.relay (.server .connectRaises) = some r) :
      Effect s .givesUp { s with relay := r, loop := .left, slept := s.slept + retryDelay }
  | relay (a : ProxyRelay.Act) (r : Relay) (apart : connects a = false)
      (moved : ProxyRelay.step s.relay a = some r) :
      Effect s (.relay a) { s with relay := r, loop := afterRelay s.loop a }

variable {s t : State} {a : Act} {acts : List Act} {source destination : Bytes}

theorem step_effect (stepped : step s a = some t) : Effect s a t := by
  cases a with
  | establish there =>
    obtain ⟨r, moved, rfl⟩ := Option.map_eq_some_iff.mp stepped
    exact .establish there r moved
  | opened | openRaises =>
    simp only [step] at stepped
    split at stepped
    case h_1 n opening =>
      obtain ⟨r, moved, rfl⟩ := Option.map_eq_some_iff.mp stepped
      constructor
      · exact opening
      · exact moved
    case h_2 => cases stepped
  | refused =>
    simp only [step] at stepped
    split at stepped
    case h_1 n opening =>
      cases stepped
      exact .refused n opening
    case h_2 => cases stepped
  | slept there =>
    simp only [step] at stepped
    split at stepped
    case h_1 n sleeping =>
      obtain ⟨more, same⟩ := Option.ite_none_right_eq_some.mp stepped
      cases same
      exact .slept n there sleeping more
    case h_2 => cases stepped
  | givesUp =>
    simp only [step] at stepped
    split at stepped
    case h_1 n sleeping =>
      obtain ⟨last, stepped⟩ := Option.ite_none_left_eq_some.mp stepped
      obtain ⟨r, moved, rfl⟩ := Option.map_eq_some_iff.mp stepped
      exact .givesUp n r sleeping last moved
    case h_2 => cases stepped
  | relay a =>
    obtain ⟨apart, stepped⟩ := Option.ite_none_left_eq_some.mp stepped
    obtain ⟨r, moved, rfl⟩ := Option.map_eq_some_iff.mp stepped
    exact .relay a r (by simpa using apart) moved

/-- The loop is only seen in the step by which it ends. -/
theorem run_shows (reached : Runs.run step s acts = some t) :
    Runs.run ProxyRelay.step s.relay (acts.filterMap shows) = some t.relay := by
  apply Runs.run_erased State.relay shows ?_ ?_ reached
  · intro s a t m stepped shown
    cases step_effect stepped with
    | establish _ r moved | opened _ r _ moved | openRaises _ r _ moved | givesUp _ r _ _ moved
    | relay _ r _ moved =>
      cases shown
      exact moved
    | refused | slept => cases shown
  · intro s a t stepped silent
    cases step_effect stepped with
    | refused | slept => rfl
    | establish | opened | openRaises | givesUp | relay => cases silent

theorem enterFinally_left (s : Session) :
    (enterFinally s).handler ≠ .connecting ∧ (enterFinally s).opened = s.opened := by
  unfold enterFinally closeAccepted
  split <;> simp

theorem session_left {e : Endpoint} {s t : Session} {a : ProxySession.Act}
    (stepped : ProxySession.step e s a = some t) :
    (s.handler ≠ .connecting → t.handler ≠ .connecting) ∧ (s.opened = true → t.opened = true) := by
  cases ProxySession.step_effect stepped with
  | connected | forward => simp
  | connectRaises | bothDone | joined =>
    obtain ⟨left, same⟩ := enterFinally_left s
    exact ⟨fun _ => left, fun opened => same.trans opened⟩
  | oneDone d =>
    exact ⟨fun _ => by simp, fun opened => opened⟩
  | closedOpened | closedAccepted | waitClosedRaises | cancelClosing =>
    exact ⟨fun _ => by simp [closeAccepted], fun opened => opened⟩
  | cancelTrying =>
    obtain ⟨left, same⟩ := enterFinally_left
      { s with outcome := if e.catchesCancelled then s.outcome else .cancelled }
    exact ⟨fun _ => left, fun opened => same.trans opened⟩
  | cancelJoining d => exact ⟨fun before => before, fun opened => opened⟩

/-- While it connects, only the end of the loop and a cancellation move the handler. -/
theorem session_waits {e : Endpoint} {s t : Session} {a : ProxySession.Act}
    (stepped : ProxySession.step e s a = some t) (connecting : s.handler = .connecting)
    (notDone : a ≠ .connected) (notRaised : a ≠ .connectRaises) :
    if a = .cancelHandler then t.handler ≠ .connecting else t.handler = .connecting := by
  cases ProxySession.step_effect stepped with
  | connected => exact absurd rfl notDone
  | connectRaises => exact absurd rfl notRaised
  | forward => simpa using connecting
  | cancelTrying =>
    rw [if_pos rfl]
    exact (enterFinally_left _).1
  | bothDone here | oneDone _ here | joined _ here | closedOpened here | closedAccepted here
  | cancelJoining _ here => simp [connecting] at here
  | waitClosedRaises here | cancelClosing here => simp [connecting] at here

theorem relay_server {r q : Relay} {a : ProxyRelay.Act} (apart : connects a = false)
    (stepped : ProxyRelay.step r a = some q) :
    q.established = r.established ∧
      (r.server.handler ≠ .connecting → q.server.handler ≠ .connecting) ∧
      (r.server.opened = true → q.server.opened = true) ∧
      (r.server.handler = .connecting →
        if a = .server .cancelHandler then q.server.handler ≠ .connecting
        else q.server.handler = .connecting) := by
  cases ProxyRelay.step_effect stepped with
  | establish => simp [connects] at apart
  | lose | client => simp
  | server a t established possible moved =>
    obtain ⟨left, opened⟩ := session_left moved
    refine ⟨rfl, left, opened, fun connecting => ?_⟩
    have notDone : a ≠ .connected := by
      rintro rfl
      simp [connects] at apart
    have notRaised : a ≠ .connectRaises := by
      rintro rfl
      simp [connects] at apart
    simpa using session_waits moved connecting notDone notRaised

def Tallied (s : State) : Prop :=
  match s.loop with
  | .absent => s.relay.established = false ∧ s.relay.server.handler = .connecting ∧
      s.attempts = 0 ∧ s.slept = 0
  | .opening n | .sleeping n => s.relay.established = true ∧ s.relay.server.handler = .connecting ∧
      n < maxRetries ∧ s.attempts = n + 1 ∧ s.slept = n
  | .left => s.relay.established = true ∧ s.relay.server.handler ≠ .connecting ∧
      s.attempts ≤ maxRetries ∧ s.slept ≤ s.attempts ∧ s.attempts ≤ s.slept + 1

theorem init_tallied : Tallied (init source destination) := ⟨rfl, rfl, rfl, rfl⟩

theorem attempt_tallied {n : Nat} {r : Relay} (there : Bool) (established : r.established = true)
    (connecting : r.server.handler = .connecting) (below : n < maxRetries) :
    Tallied { relay := r, loop := attempt n there, attempts := n + 1, slept := n } := by
  cases there with
  | true => exact ⟨established, connecting, below, rfl, rfl⟩
  | false => exact ⟨established, connecting, below, rfl, rfl⟩

theorem ends_tallied {n slept : Nat} {r : Relay} {x : ProxySession.Act} (below : n < maxRetries)
    (attempts : s.attempts = n + 1) (few : slept ≤ n + 1) (many : n ≤ slept)
    (last : x = .connected ∨ x = .connectRaises)
    (moved : ProxyRelay.step s.relay (.server x) = some r) :
    Tallied { s with relay := r, loop := .left, slept := slept } := by
  cases ProxyRelay.step_effect moved with
  | server _ t established _ stepped =>
    have left : t.handler ≠ .connecting := by
      cases ProxySession.step_effect stepped with
      | connected => simp
      | connectRaises => exact (enterFinally_left _).1
      | _ => simp at last
    refine ⟨established, left, ?_, ?_, ?_⟩ <;> simp only <;> omega

theorem relay_tallied {r : Relay} {a : ProxyRelay.Act} (tallied : Tallied s)
    (apart : connects a = false) (moved : ProxyRelay.step s.relay a = some r) :
    Tallied { s with relay := r, loop := afterRelay s.loop a } := by
  obtain ⟨same, left, -, waits⟩ := relay_server apart moved
  by_cases cancels : a = .server .cancelHandler
  · subst cancels
    simp only [if_pos] at waits
    cases loop : s.loop with
    | absent =>
      simp only [Tallied, loop] at tallied
      cases ProxyRelay.step_effect moved with
      | server _ _ established => simp [tallied.1] at established
    | left =>
      simp only [Tallied, loop] at tallied
      obtain ⟨established, gone, tally⟩ := tallied
      exact ⟨same.trans established, left gone, tally⟩
    | opening n | sleeping n =>
      simp only [Tallied, loop] at tallied
      obtain ⟨established, connecting, below, attempts, slept⟩ := tallied
      refine ⟨same.trans established, waits connecting, ?_, ?_, ?_⟩ <;> simp only <;> omega
  · have kept : afterRelay s.loop a = s.loop := by
      unfold afterRelay
      split
      · exact absurd rfl cancels
      · rfl
    simp only [if_neg cancels] at waits
    rw [kept]
    cases loop : s.loop with
    | absent | opening n | sleeping n =>
      simp only [Tallied, loop] at tallied
      obtain ⟨established, connecting, tally⟩ := tallied
      exact ⟨same.trans established, waits connecting, tally⟩
    | left =>
      simp only [Tallied, loop] at tallied
      obtain ⟨established, gone, tally⟩ := tallied
      exact ⟨same.trans established, left gone, tally⟩

theorem step_tallied (tallied : Tallied s) (stepped : step s a = some t) : Tallied t := by
  cases step_effect stepped with
  | establish there r moved =>
    cases ProxyRelay.step_effect moved with
    | establish _ fresh =>
      have absent : s.loop = .absent := by
        cases loop : s.loop <;> simp_all [Tallied]
      simp only [Tallied, absent] at tallied
      obtain ⟨-, connecting, -, slept⟩ := tallied
      rw [slept]
      exact attempt_tallied there rfl connecting (by decide)
  | opened n r opening moved | openRaises n r opening moved =>
    simp only [Tallied, opening] at tallied
    obtain ⟨-, -, below, attempts, slept⟩ := tallied
    exact ends_tallied below attempts (by omega) (by omega) (by simp) moved
  | refused n opening => simpa [Tallied, opening] using tallied
  | slept n there sleeping more =>
    simp only [Tallied, sleeping] at tallied
    obtain ⟨established, connecting, -, attempts, slept⟩ := tallied
    rw [attempts, slept]
    exact attempt_tallied there established connecting more
  | givesUp n r sleeping last moved =>
    simp only [Tallied, sleeping] at tallied
    obtain ⟨-, -, below, attempts, slept⟩ := tallied
    rw [slept]
    exact ends_tallied below attempts (Nat.le_refl _) (Nat.le_succ n) (by simp) moved
  | relay a r apart moved => exact relay_tallied tallied apart moved

/-- Nothing but the loop itself ends it. -/
def waited : Act → Bool
  | .openRaises | .relay (.server .cancelHandler) => false
  | _ => true

/-- A handler that has left the loop has its connection, or the loop has had all its attempts. -/
def Patient (s : State) : Prop :=
  s.loop = .left → s.relay.server.opened = true ∨
    s.attempts = maxRetries ∧ s.slept = maxRetries * retryDelay

theorem attempt_stays (n : Nat) (there : Bool) : attempt n there ≠ .left := by
  cases there <;> simp [attempt]

theorem step_patient (tallied : Tallied s) (patient : Patient s) (waits : waited a = true)
    (stepped : step s a = some t) : Patient t := by
  cases step_effect stepped with
  | establish there r moved => exact fun left => absurd left (attempt_stays 0 there)
  | opened n r opening moved =>
    intro _
    cases ProxyRelay.step_effect moved with
    | server _ q established possible connected =>
      cases ProxySession.step_effect connected
      exact .inl rfl
  | refused n opening => exact fun left => by simp at left
  | openRaises => simp [waited] at waits
  | slept n there => exact fun left => absurd left (attempt_stays (n + 1) there)
  | givesUp n r sleeping last moved =>
    intro _
    simp only [Tallied, sleeping] at tallied
    obtain ⟨-, -, below, attempts, slept⟩ := tallied
    simp only [maxRetries, retryDelay] at below last ⊢
    right
    omega
  | relay x r apart moved =>
    obtain ⟨-, -, opened, -⟩ := relay_server apart moved
    have kept : afterRelay s.loop x = s.loop := by
      unfold afterRelay
      split
      · simp [waited] at waits
      · rfl
    intro left
    rw [kept] at left
    exact (patient left).imp_left opened

/-- Thirty attempts are made at most, a second apart, and a run of the two proxies with the
    loop shows one without it. Where no exception but a retried one and no cancellation ends
    the loop, the handler goes on without a connection only after all thirty. -/
theorem retries_counted (reached : Runs.run step (init source destination) acts = some s) :
    Runs.run ProxyRelay.step (ProxyRelay.init source destination) (acts.filterMap shows) =
        some s.relay ∧
      s.attempts ≤ maxRetries ∧ s.slept ≤ s.attempts ∧ s.attempts ≤ s.slept + 1 ∧
      ((∀ a ∈ acts, waited a = true) → s.relay.established = true →
        s.relay.server.handler = .connecting ∨ s.relay.server.opened = true ∨
          s.attempts = maxRetries ∧ s.slept = maxRetries * retryDelay) := by
  have tallied : Tallied s := Runs.invariant_run Tallied
    (fun _ _ _ tallied stepped => step_tallied tallied stepped) init_tallied reached
  have bounds : s.attempts ≤ maxRetries ∧ s.slept ≤ s.attempts ∧ s.attempts ≤ s.slept + 1 := by
    unfold Tallied at tallied
    split at tallied <;> omega
  refine ⟨run_shows reached, bounds.1, bounds.2.1, bounds.2.2, fun every established => ?_⟩
  have ⟨_, patient⟩ : Tallied s ∧ Patient s :=
    Runs.invariant_actions (fun s => Tallied s ∧ Patient s) (fun a => waited a = true)
      (fun _ _ _ kept waits stepped =>
        ⟨step_tallied kept.1 stepped, step_patient kept.1 kept.2 waits stepped⟩)
      ⟨init_tallied, fun left => by simp [init] at left⟩ every reached
  cases loop : s.loop with
  | absent =>
    simp only [Tallied, loop] at tallied
    simp [tallied.1] at established
  | opening n | sleeping n =>
    simp only [Tallied, loop] at tallied
    exact .inl tallied.2.1
  | left => exact .inr (patient loop)

/-- The socket is refused once, is gone the next time, and is there after that. -/
def thirdAttempt : List Act :=
  [.establish true, .relay (.client .connected), .refused, .slept false, .slept true, .opened]

theorem retries_counted_third : ∃ s,
    Runs.run step (init [1] []) thirdAttempt = some s ∧ s.attempts = 3 ∧
    Runs.run ProxyRelay.step (ProxyRelay.init [1] [])
      [.establish, .client .connected, .server .connected] = some s.relay := by
  obtain ⟨s, reached, attempts⟩ : ∃ s,
      Runs.run step (init [1] []) thirdAttempt = some s ∧ s.attempts = 3 :=
    Runs.reaches (by decide +kernel)
  exact ⟨s, reached, attempts, (retries_counted reached).1⟩

def loopRank : LoopPc → Nat
  | .absent => 2 * maxRetries
  | .opening n => 2 * (maxRetries - n)
  | .sleeping n => 2 * (maxRetries - n) - 1
  | .left => 0

def rank (s : State) : Nat := relayRank s.relay + loopRank s.loop

def counts : Act → Bool
  | .relay a => counted a
  | _ => true

structure Kept (s : State) : Prop where
  steady : BothSteady s.relay
  tallied : Tallied s

theorem attempt_rank (n : Nat) (there : Bool) :
    loopRank (attempt n there) ≤ 2 * (maxRetries - n) := by
  cases there with
  | true => exact Nat.le_refl _
  | false => exact Nat.sub_le _ 1

theorem afterRelay_rank (loop : LoopPc) (a : ProxyRelay.Act) :
    loopRank (afterRelay loop a) ≤ loopRank loop := by
  unfold afterRelay
  split
  · split
    case isTrue absent => rw [absent]
    case isFalse => exact Nat.zero_le _
  · exact Nat.le_refl _

theorem step_kept (kept : Kept s) (stepped : step s a = some t) : Kept t := by
  refine ⟨?_, step_tallied kept.tallied stepped⟩
  cases step_effect stepped with
  | establish _ r moved | opened _ r _ moved | openRaises _ r _ moved | givesUp _ r _ _ moved
  | relay _ r _ moved => exact step_both_steady kept.steady moved
  | refused | slept => exact kept.steady

theorem step_lowers (kept : Kept s) (stepped : step s a = some t) :
    rank t ≤ rank s ∧ (counts a = true → rank t < rank s) := by
  have tallied := kept.tallied
  cases step_effect stepped with
  | establish there r moved =>
    have lower := (relay_rank kept.steady moved).2 rfl
    have loop : s.loop = .absent := by
      cases ProxyRelay.step_effect moved with
      | establish _ fresh => cases loop : s.loop <;> simp_all [Tallied]
    have tries := attempt_rank 0 there
    simp only [rank, loop, loopRank, Nat.sub_zero] at tries ⊢
    omega
  | opened n r opening moved | openRaises n r opening moved =>
    have lower := (relay_rank kept.steady moved).2 rfl
    simp only [rank, loopRank]
    omega
  | refused n opening =>
    simp only [Tallied, opening] at tallied
    have below := tallied.2.2.1
    simp only [rank, opening, loopRank]
    omega
  | slept n there sleeping more =>
    have tries := attempt_rank (n + 1) there
    have slept : loopRank (.sleeping n) = 2 * (maxRetries - n) - 1 := rfl
    simp only [rank, sleeping]
    omega
  | givesUp n r sleeping last moved =>
    have lower := (relay_rank kept.steady moved).2 rfl
    simp only [rank, loopRank]
    omega
  | relay x r apart moved =>
    have ⟨never, lowers⟩ := relay_rank kept.steady moved
    have loop := afterRelay_rank s.loop x
    simp only [rank, counts]
    refine ⟨by omega, fun counting => ?_⟩
    have lower := lowers counting
    omega

theorem retry_ranked : Ranked step counts Kept rank where
  preserved _ _ _ kept stepped := step_kept kept stepped
  never _ _ _ kept stepped := (step_lowers kept stepped).1
  lowers _ _ _ kept counting stepped := (step_lowers kept stepped).2 counting

/-- Nothing fails that is not retried, and no one cancels. -/
def usual : Act → Bool
  | .openRaises => false
  | .relay a => untroubled a
  | _ => true

/-- The loop always goes on, so only the two proxies can be stuck. -/
theorem stuck_relay (kept : Kept s) (stuck : Stuck step usual s) :
    Stuck ProxyRelay.step untroubled s.relay := by
  intro a fine
  by_cases apart : connects a = true
  · cases a with
    | establish => simpa [step] using stuck (.establish true) rfl
    | lose | client => simp [connects] at apart
    | server x =>
      cases x with
      | connected =>
        have tallied := kept.tallied
        cases loop : s.loop with
        | absent =>
          simp only [Tallied, loop] at tallied
          simp [ProxyRelay.step, tallied.1]
        | opening n => simpa [step, loop] using stuck .opened rfl
        | sleeping n =>
          simp only [Tallied, loop] at tallied
          obtain ⟨established, connecting, -⟩ := tallied
          have sleeps := stuck (.slept true) rfl
          have gives := stuck .givesUp rfl
          by_cases more : n + 1 < maxRetries
          · simp [step, loop, more] at sleeps
          · simp [step, loop, more, ProxyRelay.step, established, serverPossible,
              ProxySession.step, connecting] at gives
        | left =>
          simp only [Tallied, loop] at tallied
          simp [ProxyRelay.step, ProxySession.step, tallied.2.1]
      | connectRaises => simp [untroubled, undisturbed] at fine
      | _ => simp [connects] at apart
  · have refused := stuck (.relay a) fine
    simpa [step, apart] using refused

/-- As `usual`, but for an end of stream from a QEMU. -/
def ownUsual : Act → Bool
  | .openRaises => false
  | .relay a => ownRelay a
  | _ => true

theorem retries_wait (kept : Kept s) (stuck : Stuck step ownUsual s) :
    RelayOver s.relay ∨ AwaitsQemu s.relay := by
  have halted : Stuck step usual s ∨ AwaitsQemu s.relay := by
    apply stuck_or_awaits stuck
    intro a t fine foreign stepped
    cases step_effect stepped with
    | relay x r apart moved =>
      exact foreign_awaits fine foreign moved
    | openRaises => cases fine
    | establish | opened | refused | slept | givesUp => cases foreign
  rcases halted with stuck | awaits
  · exact .inl (relay_stuck_over kept.steady (stuck_relay kept stuck))
  · exact .inr awaits

/-- The destination never listens: the server gives up, and both sides still end. -/
def neverThere : List Act :=
  [.establish false] ++ List.replicate 29 (.slept false) ++ [.givesUp]

end ConnectRetry
