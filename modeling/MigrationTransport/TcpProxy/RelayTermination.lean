import MigrationTransport.TcpProxy.RelayComplete
import MigrationTransport.TcpProxy.Termination

/-!
Both proxies come to their end, if the two QEMUs send finite streams, each with an end of
stream after it: in every interleaving of the two sessions, with any failures, any cancellation
of the handlers and a connection that may be lost at any time. A byte is priced in the first
proxy for both. Of a QEMU that sends nothing the proxies wait, and for nothing else.
-/
namespace RelayTermination
open ByteStream ForwardData Lossless ProxySession HalfClose Ordering ProxyRelay RelayComplete
open Termination Ranking
open Histogram (Touched step_forwards)

/-- The bytes that a call may still hand to the connection. -/
def outstanding (f : Forward) : Nat :=
  f.unread.length + (readInHand f.readTask).length + (queued f.queue).length +
    (writeInHand f.writeTask).length

theorem step_outstanding {f g : Forward} {a : ForwardData.Act}
    (stepped : ForwardData.step f a = some g) :
    outstanding g + (handedOver f a).length ≤ outstanding f := by
  cases ForwardData.step_effect stepped with
  | read n reading kept positive small available =>
    simp only [outstanding, handedOver, reading, readInHand, List.length_drop, List.length_take,
      List.length_nil]
    omega
  | put data putting =>
    have shorter := (queued_put_sublist f.queue data).length_le
    rw [List.length_append] at shorter
    simp only [outstanding, handedOver, putting, readInHand, writeInHand_notify, List.length_nil]
    omega
  | getItem data rest getting kept got =>
    have shrunk := congrArg List.length (queued_get got)
    rw [List.length_append] at shrunk
    simp only [outstanding, handedOver, getting, writeInHand, List.length_nil]
    omega
  | write data writing =>
    simp only [outstanding, handedOver, writing, writeInHand, List.length_nil]
    omega
  | close =>
    simp only [outstanding, handedOver, readInHand, writeInHand_notify, queued_close,
      List.length_nil]
    omega
  | dropped | gathered => exact Nat.le_refl _
  | start | startRead | startWrite | eof | readRaises | getWaits | getNone | writeRaises
  | cancelReading | cancelRead | cancelWrite =>
    simp only [outstanding, handedOver, readInHand, writeInHand, List.length_nil]
    omega

theorem touched_outstanding {f g : Forward} (touched : Touched f g) :
    outstanding g = outstanding f := by
  cases touched with
  | kept => rfl
  | created => rfl
  | cancelled =>
    unfold cancel
    split <;> rfl

theorem session_outstanding {e : Endpoint} {s t : Session} {a : ProxySession.Act}
    (orderly : Orderly s) (stepped : ProxySession.step e s a = some t) (d : Direction) :
    outstanding (t.forward d) + (sent s d a).length ≤ outstanding (s.forward d) := by
  rcases step_forwards orderly stepped with ⟨moving, x, g, rfl, moved, changed⟩ | ⟨other, touched⟩
  · rw [changed]
    by_cases here : d = moving
    · subst here
      simpa [sent] using step_outstanding moved
    · have elsewhere : moving ≠ d := fun same => here same.symm
      simp [here, sent, elsewhere]
  · have silent : sent s d a = [] := by
      cases a with
      | forward moving x => exact absurd rfl (other moving x)
      | _ => rfl
    rw [silent, touched_outstanding (touched d)]
    exact Nat.le_refl _

theorem fed_rank (f : Forward) (data : Bytes) : rank (fed f data) = rank f + 5 * data.length := by
  simp only [rank, fed, List.length_append]
  omega

theorem deliver_rank (r : Relay) (s : Session) (d : Direction) (data : Bytes) :
    sessionRank (deliver r s d data) ≤ sessionRank s + 5 * data.length := by
  have less : ∀ other, (incoming r d other data).length ≤ data.length := by
    intro other
    unfold incoming
    split <;> simp
  have outward := less .outward
  have inward := less .inward
  simp only [sessionRank, deliver_handler, deliver_forward, fed_rank]
  cases d with
  | outward =>
    have none : incoming r .outward .inward data = [] := by simp [incoming]
    simp only [none, List.length_nil]
    omega
  | inward =>
    have none : incoming r .inward .outward data = [] := by simp [incoming]
    simp only [none, List.length_nil]
    omega

def relayRank (r : Relay) : Nat :=
  sessionRank r.client + sessionRank r.server +
    5 * (outstanding (r.client.forward .outward) + outstanding (r.server.forward .inward)) +
    ((if r.established then 0 else 1) + if r.lost then 0 else 1)

def counted : ProxyRelay.Act → Bool
  | .establish | .lose => true
  | .client a | .server a => countedAct a

def BothSteady (r : Relay) : Prop := Steady r.client ∧ Steady r.server

theorem fed_alert {f : Forward} (alert : Alert f) (data : Bytes) : Alert (fed f data) := by
  obtain ⟨idle, running, parked, ended, paired, asked⟩ := alert
  exact ⟨idle, running, parked, ended, paired, asked⟩

theorem deliver_steady {r : Relay} {s : Session} (steady : Steady s) (d : Direction)
    (data : Bytes) : Steady (deliver r s d data) := by
  refine ⟨deliver_orderly steady.orderly d data, fun other => ?_, fun trying other => ?_,
    fun other joining => ?_⟩
  · rw [deliver_forward]
    exact fed_alert (steady.alert other) _
  · rw [deliver_handler] at trying
    rw [deliver_forward]
    exact steady.started trying other
  · rw [deliver_handler] at joining
    rw [deliver_forward]
    exact steady.asked other joining

theorem step_both_steady {r q : Relay} {a : ProxyRelay.Act} (steady : BothSteady r)
    (stepped : ProxyRelay.step r a = some q) : BothSteady q := by
  obtain ⟨client, server⟩ := steady
  cases ProxyRelay.step_effect stepped with
  | establish => exact ⟨client, server⟩
  | lose => exact ⟨client, server⟩
  | client a t possible moved => exact ⟨step_steady client moved, deliver_steady server _ _⟩
  | server a t established possible moved =>
    exact ⟨deliver_steady client _ _, step_steady server moved⟩

theorem relay_rank {r q : Relay} {a : ProxyRelay.Act} (steady : BothSteady r)
    (stepped : ProxyRelay.step r a = some q) :
    relayRank q ≤ relayRank r ∧ (counted a = true → relayRank q < relayRank r) := by
  cases ProxyRelay.step_effect stepped with
  | establish connecting fresh =>
    simp only [relayRank, fresh, if_true, Bool.false_eq_true, if_false]
    omega
  | lose established intact =>
    simp only [relayRank, intact, if_true, Bool.false_eq_true, if_false]
    omega
  | client a t possible moved =>
    have ⟨never, lowers⟩ := session_rank steady.1.orderly moved
    have other := deliver_rank r r.server .outward (sent r.client .outward a)
    have carried := session_outstanding steady.1.orderly moved .outward
    have same := deliver_other r r.server (show Direction.inward ≠ .outward by decide)
      (sent r.client .outward a)
    simp only [relayRank, counted, same]
    refine ⟨by omega, fun counts => ?_⟩
    have lower := lowers counts
    omega
  | server a t established possible moved =>
    have ⟨never, lowers⟩ := session_rank steady.2.orderly moved
    have other := deliver_rank r r.client .inward (sent r.server .inward a)
    have carried := session_outstanding steady.2.orderly moved .inward
    have same := deliver_other r r.client (show Direction.outward ≠ .inward by decide)
      (sent r.server .inward a)
    simp only [relayRank, counted, same]
    refine ⟨by omega, fun counts => ?_⟩
    have lower := lowers counts
    omega

theorem both_ranked : Ranked ProxyRelay.step counted BothSteady relayRank where
  preserved _ _ _ steady stepped := step_both_steady steady stepped
  never _ _ _ steady stepped := (relay_rank steady stepped).1
  lowers _ _ _ steady counts stepped := (relay_rank steady stepped).2 counts

/-- Where a relay is stuck, so is the session of a side that nothing is withheld from. -/
theorem client_stuck {r : Relay} (stuck : Stuck ProxyRelay.step untroubled r)
    {a : ProxySession.Act} (fine : undisturbed a = true) (possible : clientPossible r a = true) :
    ProxySession.step .client r.client a = none := by
  have refused := stuck (.client a) fine
  simpa [ProxyRelay.step, possible] using refused

theorem server_stuck {r : Relay} (stuck : Stuck ProxyRelay.step untroubled r)
    (established : r.established = true) {a : ProxySession.Act} (fine : undisturbed a = true)
    (possible : serverPossible r a = true) : ProxySession.step .server r.server a = none := by
  have refused := stuck (.server a) fine
  simpa [ProxyRelay.step, established, possible] using refused

theorem stuck_connected {r : Relay} (stuck : Stuck ProxyRelay.step untroubled r) :
    r.client.handler ≠ .connecting := by
  intro connecting
  by_cases established : r.established = true
  · have refused := client_stuck (a := .connected) stuck rfl established
    simp [ProxySession.step, connecting] at refused
  · have refused := stuck .establish rfl
    simp [ProxyRelay.step, connecting, established] at refused

/-- The source's direction never waits for the connection, so the client's handler ends. -/
theorem stuck_client_ends {r : Relay} (steady : BothSteady r)
    (stuck : Stuck ProxyRelay.step untroubled r) : r.client.handler = .finished := by
  have connected := stuck_connected stuck
  have still : ∀ d a, faultless a = true → clientPossible r (.forward d a) = true →
      ForwardData.step (r.client.forward d) a = none := by
    intro d a fine possible
    have refused := client_stuck (a := .forward d a) stuck fine possible
    simpa [ProxySession.step] using refused
  have own : ∀ d a, ownStep a = true → ForwardData.step (r.client.forward d) a = none := by
    intro d a mine
    apply still d a
    · cases a <;> simp_all [ownStep, faultless]
    · cases d <;> cases a <;> simp_all [ownStep, clientPossible]
  have served : ¬ Waiting (r.client.forward .outward) := by
    intro waiting
    exact (eof_possible _).mpr waiting (still .outward .eof rfl rfl)
  apply handler_ends (e := .client) steady.1 ?_ own served connected
  intro a outside fine
  cases a with
  | connected => simp [ProxySession.step, connected]
  | forward d x => exact absurd rfl (outside d x)
  | _ => exact client_stuck stuck fine rfl

def RelayOver (r : Relay) : Prop :=
  SessionOver r.client ∧ (r.established = true → SessionOver r.server)

theorem relay_stuck_over {r : Relay} (steady : BothSteady r)
    (stuck : Stuck ProxyRelay.step untroubled r) : RelayOver r := by
  have finished := stuck_client_ends steady stuck
  have done : ended r = true := by simp [ended, hungUp, finished]
  constructor
  · apply stuck_over steady.1
    intro a fine
    cases a with
    | connected => simp [ProxySession.step, finished]
    | forward d x =>
      apply client_stuck stuck fine
      cases d <;> cases x <;> simp [clientPossible, done]
    | _ => exact client_stuck stuck fine rfl
  · intro established
    apply stuck_over steady.2
    intro a fine
    apply server_stuck stuck established fine
    cases a with
    | forward d x => cases d <;> cases x <;> simp [serverPossible, done]
    | _ => rfl

theorem init_both_steady (source destination : Bytes) :
    BothSteady (ProxyRelay.init source destination) :=
  ⟨init_steady _, init_steady _⟩

theorem init_rank (source destination : Bytes) :
    relayRank (ProxyRelay.init source destination) =
      48 + 10 * (source.length + destination.length) := by
  simp only [relayRank, ProxyRelay.init, sessionRank, ProxySession.init, outstanding, rank, absent,
    handlerRank, taskRank, readRank, writeRank, readInHand, writeInHand, queued_new,
    CircularQueue.new_items, Function.update_self, ne_eq, reduceCtorEq, not_false_eq_true,
    Function.update_of_ne, List.length_nil, Bool.false_eq_true, if_false]
  omega

theorem untroubled_counted (a : ProxyRelay.Act) (fine : untroubled a = true) :
    counted a = true := by
  cases a with
  | establish | lose => rfl
  | client a | server a => cases a <;> simp_all [untroubled, undisturbed, counted, countedAct]

/-- The steps of the proxies and of the connection: an end of stream from a QEMU is not one. -/
def ownRelay : ProxyRelay.Act → Bool
  | .client (.forward .outward .eof) | .server (.forward .inward .eof) => false
  | a => untroubled a

/-- A proxy reads from its QEMU, which sends nothing. -/
def AwaitsQemu (r : Relay) : Prop :=
  Waiting (r.client.forward .outward) ∨
    r.established = true ∧ Waiting (r.server.forward .inward)

theorem foreign_awaits {r q : Relay} {a : ProxyRelay.Act} (fine : untroubled a = true)
    (foreign : ownRelay a = false) (stepped : ProxyRelay.step r a = some q) : AwaitsQemu r := by
  unfold ownRelay at foreign
  split at foreign
  · cases ProxyRelay.step_effect stepped with
    | client _ t _ moved =>
      obtain ⟨g, ended, -⟩ := Option.map_eq_some_iff.mp moved
      exact .inl ((eof_possible _).mp (by simp [ended]))
  · cases ProxyRelay.step_effect stepped with
    | server _ t established _ moved =>
      obtain ⟨g, ended, -⟩ := Option.map_eq_some_iff.mp moved
      exact .inr ⟨established, (eof_possible _).mp (by simp [ended])⟩
  · rw [fine] at foreign
    cases foreign

theorem relay_waits {r : Relay} (steady : BothSteady r)
    (stuck : Stuck ProxyRelay.step ownRelay r) : RelayOver r ∨ AwaitsQemu r :=
  (stuck_or_awaits stuck fun _ _ fine foreign stepped =>
    foreign_awaits fine foreign stepped).imp_left (relay_stuck_over steady)

end RelayTermination
