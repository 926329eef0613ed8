import MigrationTransport.TcpProxy.HalfClose
import MigrationTransport.TcpProxy.Ordering

/-!
One migration connection through both proxies: `handle_new_qemu_connection` at the source
and `handle_client` at the destination, with the TCP connection between them. What one
side writes is there for the other to read, in order, until the connection is lost; what
is written to a lost connection is discarded. A side reads an end of stream once either
side has closed its end, or after the loss.
-/
namespace ProxyRelay
open ByteStream ForwardData Lossless ProxySession HalfClose Ordering
open Histogram (Touched step_forwards)

/-- `established` says that the connection exists, so that the server has a handler for it. -/
structure Relay where
  client : Session
  server : Session
  established : Bool
  lost : Bool

inductive Act where
  | establish
  | lose
  | client (a : ProxySession.Act)
  | server (a : ProxySession.Act)
  deriving DecidableEq

/-- `source` is what the migrating QEMU writes to its unix socket, `destination` what the
    other QEMU writes to its own. -/
def init (source destination : Bytes) : Relay where
  client := ProxySession.init (Function.update (fun _ => []) .outward source)
  server := ProxySession.init (Function.update (fun _ => []) .inward destination)
  established := false
  lost := false

/-- The `finally` block of the client closes the connection first. -/
def hungUp (s : Session) : Bool :=
  match s.handler with
  | .closingOpened | .closingAccepted | .finished => true
  | .connecting | .waiting | .joining _ => false

/-- Nothing more comes out of the connection than has arrived. -/
def ended (r : Relay) : Bool := hungUp r.client || r.server.acceptedClosed || r.lost

def clientPossible (r : Relay) : ProxySession.Act → Bool
  | .connected => r.established
  | .forward .inward .eof => ended r
  | _ => true

def serverPossible (r : Relay) : ProxySession.Act → Bool
  | .forward .outward .eof => ended r
  | _ => true

def handedOver (f : Forward) : ForwardData.Act → Bytes
  | .write => writeInHand f.writeTask
  | _ => []

def sent (s : Session) (d : Direction) : ProxySession.Act → Bytes
  | .forward other a => if other = d then handedOver (s.forward d) a else []
  | _ => []

def arrive (s : Session) (d : Direction) (data : Bytes) : Session :=
  { s with
    forward := Function.update s.forward d
      { s.forward d with unread := (s.forward d).unread ++ data } }

def deliver (r : Relay) (s : Session) (d : Direction) (data : Bytes) : Session :=
  if r.lost then s else arrive s d data

def step (r : Relay) : Act → Option Relay
  | .establish =>
    if r.client.handler = .connecting ∧ r.established = false then
      some { r with established := true }
    else none
  | .lose =>
    if r.established = true ∧ r.lost = false then some { r with lost := true } else none
  | .client a =>
    if clientPossible r a = true then
      (ProxySession.step .client r.client a).map fun t =>
        { r with client := t, server := deliver r r.server .outward (sent r.client .outward a) }
    else none
  | .server a =>
    if r.established = true ∧ serverPossible r a = true then
      (ProxySession.step .server r.server a).map fun t =>
        { r with server := t, client := deliver r r.client .inward (sent r.server .inward a) }
    else none

inductive Effect (r : Relay) : Act → Relay → Prop where
  | establish (connecting : r.client.handler = .connecting) (fresh : r.established = false) :
      Effect r .establish { r with established := true }
  | lose (established : r.established = true) (intact : r.lost = false) :
      Effect r .lose { r with lost := true }
  | client (a : ProxySession.Act) (t : Session) (possible : clientPossible r a = true)
      (moved : ProxySession.step .client r.client a = some t) :
      Effect r (.client a)
        { r with client := t, server := deliver r r.server .outward (sent r.client .outward a) }
  | server (a : ProxySession.Act) (t : Session) (established : r.established = true)
      (possible : serverPossible r a = true)
      (moved : ProxySession.step .server r.server a = some t) :
      Effect r (.server a)
        { r with server := t, client := deliver r r.client .inward (sent r.server .inward a) }

theorem step_effect {r q : Relay} {a : Act} (stepped : step r a = some q) : Effect r a q := by
  cases a with
  | establish =>
    simp only [step, Option.ite_none_right_eq_some, Option.some.injEq] at stepped
    obtain ⟨⟨connecting, fresh⟩, rfl⟩ := stepped
    exact .establish connecting fresh
  | lose =>
    simp only [step, Option.ite_none_right_eq_some, Option.some.injEq] at stepped
    obtain ⟨⟨established, intact⟩, rfl⟩ := stepped
    exact .lose established intact
  | client a =>
    simp only [step, Option.ite_none_right_eq_some, Option.map_eq_some_iff] at stepped
    obtain ⟨possible, t, moved, rfl⟩ := stepped
    exact .client a t possible moved
  | server a =>
    simp only [step, Option.ite_none_right_eq_some, Option.map_eq_some_iff] at stepped
    obtain ⟨⟨established, possible⟩, t, moved, rfl⟩ := stepped
    exact .server a t established possible moved

def received (f : Forward) : Bytes := f.bytesRead ++ f.unread

theorem step_received {f g : Forward} {a : ForwardData.Act}
    (stepped : ForwardData.step f a = some g) : received g = received f := by
  cases ForwardData.step_effect stepped with
  | read n => simp [received]
  | _ => rfl

theorem step_written {f g : Forward} {a : ForwardData.Act}
    (stepped : ForwardData.step f a = some g) : g.written = f.written ++ handedOver f a := by
  cases ForwardData.step_effect stepped with
  | write data writing => simp [handedOver, writing, writeInHand]
  | _ => simp [handedOver]

theorem touched_received {f g : Forward} (touched : Touched f g) : received g = received f := by
  cases touched with
  | kept => rfl
  | created => rfl
  | cancelled =>
    unfold cancel
    split <;> rfl

theorem touched_written {f g : Forward} (touched : Touched f g) : g.written = f.written := by
  cases touched with
  | kept => rfl
  | created => rfl
  | cancelled =>
    unfold cancel
    split <;> rfl

/-- A step of a session brings nothing in, and takes out what it writes. -/
theorem session_transfer {e : Endpoint} {s t : Session} {a : ProxySession.Act}
    (orderly : Orderly s) (stepped : ProxySession.step e s a = some t) (d : Direction) :
    received (t.forward d) = received (s.forward d) ∧
      (t.forward d).written = (s.forward d).written ++ sent s d a := by
  rcases step_forwards orderly stepped with ⟨moving, x, g, rfl, moved, changed⟩ | ⟨other, touched⟩
  · rw [changed]
    by_cases here : d = moving
    · subst here
      simpa [sent] using And.intro (step_received moved) (step_written moved)
    · have elsewhere : moving ≠ d := fun same => here same.symm
      simp [here, sent, elsewhere]
  · have silent : sent s d a = [] := by
      cases a with
      | forward moving x => exact absurd rfl (other moving x)
      | _ => rfl
    rw [silent, List.append_nil]
    exact ⟨touched_received (touched d), touched_written (touched d)⟩

def fed (f : Forward) (data : Bytes) : Forward := { f with unread := f.unread ++ data }

@[simp] theorem fed_nil (f : Forward) : fed f [] = f := by
  simp [fed]

/-- What of the data comes in for a call of the side they are sent to. -/
def incoming (r : Relay) (d other : Direction) (data : Bytes) : Bytes :=
  if r.lost = false ∧ other = d then data else []

theorem deliver_forward (r : Relay) (s : Session) (d other : Direction) (data : Bytes) :
    (deliver r s d data).forward other = fed (s.forward other) (incoming r d other data) := by
  unfold deliver incoming arrive
  cases lost : r.lost with
  | true => simp
  | false =>
    by_cases here : other = d
    · subst here
      simp [fed]
    · simp [here]

@[simp] theorem deliver_handler (r : Relay) (s : Session) (d : Direction) (data : Bytes) :
    (deliver r s d data).handler = s.handler := by
  unfold deliver arrive
  split <;> rfl

@[simp] theorem deliver_opened (r : Relay) (s : Session) (d : Direction) (data : Bytes) :
    (deliver r s d data).opened = s.opened := by
  unfold deliver arrive
  split <;> rfl

theorem fed_life {f : Forward} (life : Lifecycle f) (data : Bytes) : Lifecycle (fed f data) :=
  ⟨life.idle, life.ended⟩

theorem deliver_orderly {r : Relay} {s : Session} (orderly : Orderly s) (d : Direction)
    (data : Bytes) : Orderly (deliver r s d data) := by
  have task : ∀ other, ((deliver r s d data).forward other).task = (s.forward other).task := by
    intro other
    rw [deliver_forward]
    rfl
  refine ⟨fun other => ?_, fun connecting => ?_, fun trying => ?_, fun joined other joining => ?_⟩
  · rw [deliver_forward]
    exact fed_life (orderly.life other) _
  · rw [deliver_handler] at connecting
    rw [deliver_opened]
    exact ⟨(orderly.connecting connecting).1,
      fun other => (task other).trans ((orderly.connecting connecting).2 other)⟩
  · rw [deliver_handler] at trying
    rw [deliver_opened]
    exact orderly.opened trying
  · rw [deliver_handler] at joining
    rw [task]
    exact orderly.joining joined other joining

/-- One way through the connection: what has come in is what was written before the loss. -/
structure Link (lost : Bool) (sender receiver : Forward) : Prop where
  prior : received receiver <+: sender.written
  whole : lost = false → received receiver = sender.written

theorem Link.moved {lost : Bool} {f g sender receiver : Forward}
    (link : Link lost sender receiver) (data : Bytes) (written : f.written = sender.written ++ data)
    (came : received g = received receiver ++ if lost = false then data else []) :
    Link lost f g := by
  cases lost with
  | true =>
    simp only [Bool.true_eq_false, if_false, List.append_nil] at came
    refine ⟨?_, by simp⟩
    rw [came]
    exact link.prior.trans ⟨data, written.symm⟩
  | false =>
    rw [if_pos rfl, link.whole rfl, ← written] at came
    exact ⟨came ▸ List.prefix_refl _, fun _ => came⟩

theorem fed_received (f : Forward) (data : Bytes) : received (fed f data) = received f ++ data := by
  simp [received, fed]

/-- Where the bytes of both ways have come from, in every state. -/
structure Joined (source destination : Bytes) (r : Relay) : Prop where
  clientOrderly : Orderly r.client
  serverOrderly : Orderly r.server
  source : received (r.client.forward .outward) = source
  destination : received (r.server.forward .inward) = destination
  outward : Link r.lost (r.client.forward .outward) (r.server.forward .outward)
  inward : Link r.lost (r.server.forward .inward) (r.client.forward .inward)

theorem init_joined (source destination : Bytes) :
    Joined source destination (init source destination) := by
  refine ⟨init_orderly _, init_orderly _, ?_, ?_, ⟨?_, ?_⟩, ⟨?_, ?_⟩⟩ <;>
    simp [init, ProxySession.init, absent, received]

theorem step_joined {source destination : Bytes} {r q : Relay} {a : Act}
    (joined : Joined source destination r) (stepped : step r a = some q) :
    Joined source destination q := by
  obtain ⟨clientOrderly, serverOrderly, fromSource, fromDestination, outward, inward⟩ := joined
  cases step_effect stepped with
  | establish => exact ⟨clientOrderly, serverOrderly, fromSource, fromDestination, outward, inward⟩
  | lose =>
    exact ⟨clientOrderly, serverOrderly, fromSource, fromDestination,
      ⟨outward.prior, by simp⟩, ⟨inward.prior, by simp⟩⟩
  | client a t possible moved =>
    have transfer := session_transfer clientOrderly moved
    refine ⟨step_orderly clientOrderly moved, deliver_orderly serverOrderly _ _, ?_, ?_, ?_, ?_⟩
    · exact (transfer .outward).1.trans fromSource
    · rw [deliver_forward, fed_received]
      simpa [incoming] using fromDestination
    · apply outward.moved _ (transfer .outward).2
      rw [deliver_forward, fed_received]
      simp [incoming]
    · rw [deliver_forward]
      apply inward.moved []
      · simp [fed]
      · simpa using (transfer .inward).1
  | server a t established possible moved =>
    have transfer := session_transfer serverOrderly moved
    refine ⟨deliver_orderly clientOrderly _ _, step_orderly serverOrderly moved, ?_, ?_, ?_, ?_⟩
    · rw [deliver_forward, fed_received]
      simpa [incoming] using fromSource
    · exact (transfer .inward).1.trans fromDestination
    · rw [deliver_forward]
      apply outward.moved []
      · simp [fed]
      · simpa using (transfer .outward).1
    · apply inward.moved _ (transfer .inward).2
      rw [deliver_forward, fed_received]
      simp [incoming]

def Calls (keep : Forward → Prop) (r : Relay) : Prop :=
  ∀ d, keep (r.client.forward d) ∧ keep (r.server.forward d)

def OfCalls (allowed : Forward → ForwardData.Act → Prop) (r : Relay) : Act → Prop
  | .client (.forward d x) => allowed (r.client.forward d) x
  | .server (.forward d x) => allowed (r.server.forward d) x
  | _ => True

/-- What the two handlers and the connection leave alone in a call, and its own steps keep,
    holds of all four calls. -/
theorem step_calls (allowed : Forward → ForwardData.Act → Prop) {keep : Forward → Prop}
    {source destination : Bytes} {r q : Relay} {a : Act}
    (touched : ∀ f g, keep f → Touched f g → keep g)
    (more : ∀ f data, keep f → keep (fed f data))
    (moved : ∀ f x g, keep f → allowed f x → ForwardData.step f x = some g → keep g)
    (joined : Joined source destination r) (calls : Calls keep r) (can : OfCalls allowed r a)
    (stepped : step r a = some q) : Calls keep q := by
  cases step_effect stepped with
  | establish => exact calls
  | lose => exact calls
  | client a t possible turned =>
    have own : ∀ d, keep (t.forward d) := by
      apply session_forwards touched ?_ joined.clientOrderly (fun d => (calls d).1) turned
      rintro d x g rfl before stepped
      exact moved _ x g before can stepped
    intro d
    refine ⟨own d, ?_⟩
    rw [deliver_forward]
    exact more _ _ (calls d).2
  | server a t established possible turned =>
    have own : ∀ d, keep (t.forward d) := by
      apply session_forwards touched ?_ joined.serverOrderly (fun d => (calls d).2) turned
      rintro d x g rfl before stepped
      exact moved _ x g before can stepped
    intro d
    refine ⟨?_, own d⟩
    rw [deliver_forward]
    exact more _ _ (calls d).1

theorem step_all_in_order {source destination : Bytes} {r q : Relay} {a : Act}
    (joined : Joined source destination r) (calls : Calls InOrder r)
    (stepped : step r a = some q) : Calls InOrder q := by
  apply step_calls (fun _ _ => True) ?_ ?_ ?_ joined calls ?_ stepped
  · exact fun _ _ before touched => touched_in_order before touched
  · exact fun _ _ before => before
  · exact fun _ _ _ before _ moved => step_in_order before moved
  · unfold OfCalls
    split <;> trivial

/-- The far end of a way has written what it has read of what the near end has written. -/
theorem Link.in_order {lost : Bool} {sender receiver : Forward} (link : Link lost sender receiver)
    (near : InOrder sender) (far : InOrder receiver) :
    receiver.written.Sublist (received sender) := by
  have took : receiver.bytesRead.Sublist (received receiver) := List.sublist_append_left _ _
  have crossed := took.trans link.prior.sublist
  have gave : sender.bytesRead.Sublist (received sender) := List.sublist_append_left _ _
  exact (in_order_written far).trans (crossed.trans ((in_order_written near).trans gave))

theorem init_in_order (source destination : Bytes) : Calls InOrder (init source destination) :=
  fun _ => ⟨absent_in_order _, absent_in_order _⟩

theorem both_in_order {source destination : Bytes} {r : Relay}
    (joined : Joined source destination r) (calls : Calls InOrder r) :
    (r.server.forward .outward).written.Sublist source ∧
      (r.client.forward .inward).written.Sublist destination := by
  constructor
  · have outward := joined.outward.in_order (calls .outward).1 (calls .outward).2
    rwa [joined.source] at outward
  · have inward := joined.inward.in_order (calls .inward).2 (calls .inward).1
    rwa [joined.destination] at inward

theorem relay_in_order {source destination : Bytes} {r : Relay} {acts : List Act}
    (reached : Runs.run step (init source destination) acts = some r) :
    (r.server.forward .outward).written.Sublist source ∧
      (r.client.forward .inward).written.Sublist destination := by
  have both : Joined source destination r ∧ Calls InOrder r := by
    apply Runs.invariant_run (fun r => Joined source destination r ∧ Calls InOrder r) ?_ ?_ reached
    · rintro r a q ⟨joined, calls⟩ stepped
      exact ⟨step_joined joined stepped, step_all_in_order joined calls stepped⟩
    · exact ⟨init_joined source destination, init_in_order source destination⟩
  exact both_in_order both.1 both.2

def RoomInBoth : Relay → Act → Prop := OfCalls PutHasRoom

instance (r : Relay) : DecidablePred (RoomInBoth r)
  | .client (.forward d x) => inferInstanceAs (Decidable (PutHasRoom (r.client.forward d) x))
  | .server (.forward d x) => inferInstanceAs (Decidable (PutHasRoom (r.server.forward d) x))
  | .establish | .lose => isTrue trivial
  | .client .connected | .client .connectRaises | .client .waitReturns | .client .joined
  | .client .waitClosed | .client .waitClosedRaises | .client .cancelHandler => isTrue trivial
  | .server .connected | .server .connectRaises | .server .waitReturns | .server .joined
  | .server .waitClosed | .server .waitClosedRaises | .server .cancelHandler => isTrue trivial

def Sound (f : Forward) : Prop := Lifecycle f ∧ Prefixed f

theorem touched_sound {f g : Forward} (sound : Sound f) (touched : Touched f g) : Sound g := by
  refine ⟨?_, touched_prefixed sound.2 touched⟩
  cases touched with
  | kept => exact sound.1
  | created fresh => exact create_lifecycle fresh sound.1
  | cancelled => exact cancel_lifecycle sound.1

theorem fed_sound {f : Forward} (sound : Sound f) (data : Bytes) : Sound (fed f data) := by
  obtain ⟨life, written, held, flowing, shut⟩ := sound
  exact ⟨fed_life life data, written, held, flowing, shut⟩

theorem step_all_sound {source destination : Bytes} {r q : Relay} {a : Act}
    (joined : Joined source destination r) (calls : Calls Sound r) (room : RoomInBoth r a)
    (stepped : step r a = some q) : Calls Sound q := by
  apply step_calls PutHasRoom ?_ ?_ ?_ joined calls room stepped
  · exact fun _ _ before touched => touched_sound before touched
  · exact fun _ data before => fed_sound before data
  · intro f x g before room moved
    exact ⟨step_lifecycle before.1 moved, step_prefixed before.1 before.2 room moved⟩

theorem Link.sound {lost : Bool} {sender receiver : Forward} (link : Link lost sender receiver)
    (near : Sound sender) (far : Sound receiver) : receiver.written <+: received sender := by
  have took : receiver.bytesRead <+: received receiver := List.prefix_append _ _
  have gave : sender.bytesRead <+: received sender := List.prefix_append _ _
  exact far.2.written.trans (took.trans (link.prior.trans (near.2.written.trans gave)))

theorem init_sound (source destination : Bytes) : Calls Sound (init source destination) :=
  fun _ => ⟨⟨absent_lifecycle _, absent_prefixed _⟩, absent_lifecycle _, absent_prefixed _⟩

theorem both_prefixed {source destination : Bytes} {r : Relay}
    (joined : Joined source destination r) (calls : Calls Sound r) :
    (r.server.forward .outward).written <+: source ∧
      (r.client.forward .inward).written <+: destination := by
  constructor
  · have outward := joined.outward.sound (calls .outward).1 (calls .outward).2
    rwa [joined.source] at outward
  · have inward := joined.inward.sound (calls .inward).2 (calls .inward).1
    rwa [joined.destination] at inward

theorem relay_prefixed {source destination : Bytes} {r : Relay} {acts : List Act}
    (reached : Runs.run step (init source destination) acts = some r)
    (room : Runs.Along step RoomInBoth (init source destination) acts) :
    (r.server.forward .outward).written <+: source ∧
      (r.client.forward .inward).written <+: destination := by
  have both : Joined source destination r ∧ Calls Sound r := by
    apply Runs.invariant_along (fun r => Joined source destination r ∧ Calls Sound r) ?_ ?_
      room reached
    · rintro r a q ⟨joined, calls⟩ room stepped
      exact ⟨step_joined joined stepped, step_all_sound joined calls room stepped⟩
    · exact ⟨init_joined source destination, init_sound source destination⟩
  exact both_prefixed both.1 both.2

/-- The source sends two bytes and the connection is lost after the first: the second is
    discarded, and what the server has read of the first arrives. -/
def lostBetween : List Act :=
  .establish :: startBoth.map .client ++ startBoth.map .server ++
    [.client (.forward .outward (.read 1)), .client (.forward .outward .put),
      .client (.forward .outward .get), .client (.forward .outward .write), .lose,
      .client (.forward .outward (.read 1)), .client (.forward .outward .get),
      .client (.forward .outward .put), .client (.forward .outward .get),
      .client (.forward .outward .write), .server (.forward .outward (.read 1)),
      .server (.forward .outward .put), .server (.forward .outward .get),
      .server (.forward .outward .write)]

theorem relay_in_order_lost : ∃ r, Runs.run step (init [1, 2] []) lostBetween = some r ∧
    (r.client.forward .outward).written = [1, 2] ∧
    (r.server.forward .outward).written.Sublist [1, 2] := by
  obtain ⟨r, reached, written⟩ : ∃ r, Runs.run step (init [1, 2] []) lostBetween = some r ∧
      (r.client.forward .outward).written = [1, 2] :=
    Runs.reaches (by decide +kernel)
  exact ⟨r, reached, written, (relay_in_order reached).1⟩

theorem relay_prefixed_lost : ∃ r, Runs.run step (init [1, 2] []) lostBetween = some r ∧
    (r.server.forward .outward).written = [1] ∧
    (r.server.forward .outward).written <+: [1, 2] := by
  obtain ⟨r, reached, written⟩ : ∃ r, Runs.run step (init [1, 2] []) lostBetween = some r ∧
      (r.server.forward .outward).written = [1] :=
    Runs.reaches (by decide +kernel)
  exact ⟨r, reached, written, (relay_prefixed reached (by decide +kernel)).1⟩

end ProxyRelay
