import MigrationTransport.TcpProxy.Relay

/-!
What both proxies together deliver when nothing fails: each QEMU gets all that the other
wrote, if no `put` evicts and no direction is cancelled while bytes of it are still on
their way. The first of the two proxies may cancel what it has passed on whole; the second
may not as long as the first has anything left.
-/
namespace RelayComplete
open ByteStream ForwardData Lossless ProxySession HalfClose Ordering ProxyRelay
open Histogram (Touched step_forwards)

def untroubled : ProxyRelay.Act → Bool
  | .establish => true
  | .lose => false
  | .client a => undisturbed a
  | .server a => undisturbed a

/-- The call has written all it will ever have to write. -/
def Drained (f : Forward) : Prop := upstream f = [] ∧ writeInHand f.writeTask = []

instance : DecidablePred Drained := fun f =>
  inferInstanceAs (Decidable (upstream f = [] ∧ writeInHand f.writeTask = []))

/-- `near` and `far` are the two calls that the bytes of a direction pass. -/
def Spared (near far : Forward) : Prop := far.task = .finished ∨ upstream far = [] ∧ Drained near

instance (near far : Forward) : Decidable (Spared near far) :=
  inferInstanceAs (Decidable (_ ∨ _ ∧ Drained near))

def Uncut (r : Relay) : ProxyRelay.Act → Prop
  | .client .waitReturns =>
    ((r.client.forward .outward).task = .finished ∨ upstream (r.client.forward .outward) = []) ∧
      Spared (r.server.forward .inward) (r.client.forward .inward)
  | .server .waitReturns =>
    ((r.server.forward .inward).task = .finished ∨ upstream (r.server.forward .inward) = []) ∧
      Spared (r.client.forward .outward) (r.server.forward .outward)
  | a => RoomInBoth r a

instance (r : Relay) : DecidablePred (Uncut r)
  | .client .waitReturns | .server .waitReturns =>
    inferInstanceAs (Decidable ((_ = TaskPc.finished ∨ _ = []) ∧ Spared _ _))
  | .establish | .lose | .client (.forward _ _) | .client .connected | .client .connectRaises
  | .client .joined | .client .waitClosed | .client .waitClosedRaises | .client .cancelHandler
  | .server (.forward _ _) | .server .connected | .server .connectRaises | .server .joined
  | .server .waitClosed | .server .waitClosedRaises | .server .cancelHandler =>
    inferInstanceAs (Decidable (RoomInBoth r _))

/-- A call that will not read, or not write, what may still come in. -/
def Closed (f : Forward) : Prop :=
  Asked f ∨ f.readTask = .closing ∨ f.readTask = .finished ∨ f.writeTask = .finished

theorem fed_intact {stream : Bytes} {f : Forward} (intact : Intact stream f)
    (opened : ¬ Closed f) (data : Bytes) : Intact (stream ++ data) (fed f data) := by
  have ⟨order, history, count, closed, readEnd, writeEnd, asked⟩ := intact
  simp only [Closed, not_or] at opened
  obtain ⟨calm, notClosing, notFinished, writes⟩ := opened
  refine ⟨?_, ?_, count, closed, ?_, ?_, ?_⟩
  · rw [← order]
    simp [fed, upstream]
  · rw [← history]
    simp [fed]
  · rintro (here | here)
    · exact absurd here notClosing
    · exact absurd here notFinished
  · exact fun ended => absurd ended writes
  · exact fun wanted => absurd wanted calm

theorem sublist_nil_of {l m : Bytes} (shorter : l.Sublist m) (empty : m = []) : l = [] :=
  List.sublist_nil.mp (empty ▸ shorter)

theorem step_drained {f g : Forward} {a : ForwardData.Act} (drained : Drained f)
    (stepped : ForwardData.step f a = some g) : Drained g := by
  obtain ⟨empty, hand⟩ := drained
  have ⟨noQueue, noRead, noUnread⟩ := upstream_nil.mp empty
  cases ForwardData.step_effect stepped with
  | read n reading kept positive small available =>
    simp only [noUnread, List.length_nil] at available
    omega
  | put data putting =>
    have nothing : data = [] := by simpa [putting, readInHand] using noRead
    have queue := queued_put_sublist f.queue data
    refine ⟨upstream_nil.mpr ⟨?_, rfl, noUnread⟩, by simpa using hand⟩
    exact sublist_nil_of queue (by simp [noQueue, nothing])
  | getItem data rest getting kept got =>
    have shrunk := queued_get got
    rw [noQueue] at shrunk
    obtain ⟨nothing, later⟩ := List.append_eq_nil_iff.mp shrunk.symm
    exact ⟨upstream_nil.mpr ⟨later, noRead, noUnread⟩, nothing⟩
  | close => exact ⟨upstream_nil.mpr ⟨noQueue, rfl, noUnread⟩, by simpa using hand⟩
  | start | startRead | eof | readRaises | cancelReading | cancelRead =>
    refine ⟨upstream_nil.mpr ⟨noQueue, rfl, noUnread⟩, ?_⟩
    first | exact hand | rfl
  | startWrite | getWaits | getNone | write | writeRaises | cancelWrite => exact ⟨empty, rfl⟩
  | dropped | gathered => exact ⟨empty, hand⟩

theorem touched_drained {f g : Forward} (drained : Drained f) (touched : Touched f g) :
    Drained g := by
  obtain ⟨empty, hand⟩ := drained
  cases touched with
  | kept => exact ⟨empty, hand⟩
  | created => exact ⟨empty, hand⟩
  | cancelled =>
    unfold cancel
    split <;> exact ⟨empty, hand⟩

theorem step_closed {stream : Bytes} {f g : Forward} {a : ForwardData.Act}
    (intact : Intact stream f) (fine : faultless a = true)
    (stepped : ForwardData.step f a = some g) (closed : Closed g) : Closed f ∨ a = .eof := by
  cases ForwardData.step_effect stepped with
  | readRaises => simp [faultless] at fine
  | writeRaises => simp [faultless] at fine
  | eof => exact .inr rfl
  | close closing => exact .inl (.inr (.inl closing))
  | getNone getting kept got =>
    exact .inl (.inr (.inr (.inl (intact.closed (CircularQueue.get_none.mp got).2))))
  | cancelReading wanted | cancelRead wanted => exact .inl (.inl (.inr (.inl wanted)))
  | cancelWrite wanted => exact .inl (.inl (.inr (.inr wanted)))
  | put data putting =>
    left
    simpa [Closed, Asked, putting] using closed
  | dropped | gathered => exact .inl closed
  | start created | startRead created | startWrite created | read _ created
  | getWaits created | getItem _ _ created | write _ created =>
    left
    simp_all [Closed, Asked]

theorem step_accepted {e : Endpoint} {s t : Session} {a : ProxySession.Act}
    (before : s.acceptedClosed = true → PastTry s.handler)
    (stepped : ProxySession.step e s a = some t) :
    t.acceptedClosed = true → PastTry t.handler := by
  intro shut
  cases ProxySession.step_effect stepped with
  | connected connecting | bothDone connecting | oneDone _ connecting =>
    first | exact enterFinally_past _ | simpa [PastTry, connecting] using before shut
  | connectRaises | joined => exact enterFinally_past s
  | cancelTrying => exact enterFinally_past _
  | forward => exact before shut
  | cancelJoining d joining => simpa [PastTry, joining] using before shut
  | closedOpened => exact .inr (.inl rfl)
  | closedAccepted | waitClosedRaises | cancelClosing => exact .inr (.inr rfl)

def clientStream (source : Bytes) (r : Relay) : Direction → Bytes
  | .outward => source
  | .inward => (r.server.forward .inward).written

def serverStream (destination : Bytes) (r : Relay) : Direction → Bytes
  | .outward => (r.client.forward .outward).written
  | .inward => destination

/-- A far call that is closed has nothing more to come. -/
def Settled (near far : Forward) : Prop := Closed far → Drained near

structure Complete (source destination : Bytes) (r : Relay) : Prop where
  intact : r.lost = false
  client : Whole (clientStream source r) r.client
  server : Whole (serverStream destination r) r.server
  accepted : r.server.acceptedClosed = true → PastTry r.server.handler
  outward : Settled (r.client.forward .outward) (r.server.forward .outward)
  inward : Settled (r.server.forward .inward) (r.client.forward .inward)

theorem init_complete (source destination : Bytes) :
    Complete source destination (ProxyRelay.init source destination) := by
  have calm : ∀ stream, ¬ Closed (absent stream) := by
    intro stream
    simp [Closed, Asked, absent]
  refine ⟨rfl, ⟨fun d => ?_, ?_⟩, ⟨fun d => ?_, ?_⟩, ?_, ?_, ?_⟩
  · cases d <;> exact absent_intact _
  · simp [ProxyRelay.init, ProxySession.init, PastTry]
  · cases d <;> exact absent_intact _
  · simp [ProxyRelay.init, ProxySession.init, PastTry]
  · simp [ProxyRelay.init, ProxySession.init]
  · exact fun closed => absurd closed (calm _)
  · exact fun closed => absurd closed (calm _)

theorem fed_whole {r : Relay} {stream longer : Direction → Bytes} {s : Session} {d : Direction}
    {data : Bytes} (whole : Whole stream s) (intact : r.lost = false)
    (longest : longer = Function.update stream d (stream d ++ data))
    (taken : data = [] ∨ ¬ Closed (s.forward d)) : Whole longer (deliver r s d data) := by
  subst longest
  refine ⟨fun other => ?_, fun past other => ?_⟩
  · rw [deliver_forward]
    by_cases here : other = d
    · subst here
      rw [Function.update_self]
      simp only [incoming, intact, and_self, if_true]
      rcases taken with rfl | opened
      · simpa using whole.intact other
      · exact fed_intact (whole.intact other) opened data
    · simpa [incoming, here] using whole.intact other
  · rw [deliver_forward]
    exact whole.ended (by simpa using past) other

/-- Once the handler has left its `try` block, a direction has nothing left to write. -/
theorem past_drained {stream : Direction → Bytes} {s : Session} (orderly : Orderly s)
    (whole : Whole stream s) (past : PastTry s.handler) (d : Direction) :
    Drained (s.forward d) := by
  have complete := ended_complete (orderly.life d) (whole.intact d) (whole.ended past d)
  have order := (whole.intact d).order
  rw [complete, List.append_assoc, List.append_right_eq_self] at order
  obtain ⟨hand, empty⟩ := List.append_eq_nil_iff.mp order
  exact ⟨empty, hand⟩

theorem sent_undrained {s : Session} {d : Direction} {a : ProxySession.Act}
    (drained : Drained (s.forward d)) : sent s d a = [] := by
  cases a with
  | forward other x =>
    by_cases here : other = d
    · cases x <;> simp [sent, here, handedOver, drained.2]
    · simp [sent, here]
  | _ => rfl

theorem session_drained {e : Endpoint} {s t : Session} {a : ProxySession.Act} {d : Direction}
    (orderly : Orderly s) (drained : Drained (s.forward d))
    (stepped : ProxySession.step e s a = some t) : Drained (t.forward d) := by
  rcases step_forwards orderly stepped with ⟨moving, x, g, rfl, moved, changed⟩ | ⟨-, touched⟩
  · rw [changed]
    by_cases here : d = moving
    · subst here
      simpa using step_drained drained moved
    · simpa [here] using drained
  · exact touched_drained drained (touched d)

theorem far_settled {e : Endpoint} {stream : Direction → Bytes} {s t : Session}
    {a : ProxySession.Act} {d : Direction} {near : Forward} (whole : Whole stream s)
    (fine : undisturbed a = true) (settled : Settled near (s.forward d))
    (eof : a = .forward d .eof → Drained near)
    (spared : a = .waitReturns → Spared near (s.forward d))
    (stepped : ProxySession.step e s a = some t) : Settled near (t.forward d) := by
  intro closed
  cases ProxySession.step_effect stepped with
  | connectRaises => simp [undisturbed] at fine
  | waitClosedRaises => simp [undisturbed] at fine
  | cancelTrying => simp [undisturbed] at fine
  | cancelJoining => simp [undisturbed] at fine
  | cancelClosing => simp [undisturbed] at fine
  | connected => exact settled closed
  | forward moving moved =>
    by_cases here : d = moving
    · subst here
      simp only [Function.update_self] at closed
      rcases step_closed (whole.intact d) fine moved closed with before | same
      · exact settled before
      · exact eof (by rw [same])
    · simp only [Function.update_of_ne here] at closed
      exact settled closed
  | oneDone other waiting pending =>
    by_cases here : d = other
    · subst here
      exact ((spared rfl).resolve_left pending).2
    · simp only [cancelForward, Function.update_of_ne here] at closed
      exact settled closed
  | bothDone | joined =>
    rw [enterFinally_forward] at closed
    exact settled closed
  | closedOpened => exact settled closed
  | closedAccepted => exact settled closed

theorem near_settled {e : Endpoint} {r : Relay} {s t far : Session} {a : ProxySession.Act}
    {d : Direction} {data : Bytes} (orderly : Orderly s)
    (settled : Settled (s.forward d) (far.forward d))
    (stepped : ProxySession.step e s a = some t) :
    Settled (t.forward d) ((deliver r far d data).forward d) := by
  intro closed
  rw [deliver_forward] at closed
  exact session_drained orderly (settled closed) stepped

/-- What a step hands to the connection will still be read. -/
theorem sent_taken {s far : Session} {a : ProxySession.Act} {d : Direction}
    (settled : Settled (s.forward d) (far.forward d)) :
    sent s d a = [] ∨ ¬ Closed (far.forward d) := by
  by_cases closed : Closed (far.forward d)
  · exact .inl (sent_undrained (settled closed))
  · exact .inr closed

theorem eof_running {e : Endpoint} {s t : Session} {d : Direction} (orderly : Orderly s)
    (stepped : ProxySession.step e s (.forward d .eof) = some t) :
    (s.forward d).task ≠ .finished := by
  intro done
  simp only [ProxySession.step, Option.map_eq_some_iff] at stepped
  obtain ⟨g, moved, -⟩ := stepped
  cases ForwardData.step_effect moved with
  | eof reading =>
    rcases (orderly.life d).ended done with here | here <;> simp [reading] at here

theorem hung_up_past {s : Session} : hungUp s = true ↔ PastTry s.handler := by
  unfold hungUp PastTry
  cases s.handler <;> simp

@[simp] theorem deliver_accepted (r : Relay) (s : Session) (d : Direction) (data : Bytes) :
    (deliver r s d data).acceptedClosed = s.acceptedClosed := by
  unfold deliver arrive
  split <;> rfl

theorem deliver_written (r : Relay) (s : Session) (d other : Direction) (data : Bytes) :
    ((deliver r s d data).forward other).written = (s.forward other).written := by
  rw [deliver_forward]
  rfl

theorem deliver_other (r : Relay) (s : Session) {d other : Direction} (different : other ≠ d)
    (data : Bytes) : (deliver r s d data).forward other = s.forward other := by
  rw [deliver_forward]
  simp [incoming, different]

/-- A side may read the end of the stream only once the other has nothing left to write. -/
theorem ended_drained {source destination : Bytes} {r : Relay}
    (joined : Joined source destination r) (complete : Complete source destination r)
    (done : ended r = true) :
    (∀ d, (r.client.forward d).task = .finished ∧ Drained (r.client.forward d)) ∨
      ∀ d, (r.server.forward d).task = .finished ∧ Drained (r.server.forward d) := by
  simp only [ended, complete.intact, Bool.or_false, Bool.or_eq_true] at done
  rcases done with hung | accepted
  · have past := hung_up_past.mp hung
    exact .inl fun d => ⟨complete.client.ended past d,
      past_drained joined.clientOrderly complete.client past d⟩
  · have past := complete.accepted accepted
    exact .inr fun d => ⟨complete.server.ended past d,
      past_drained joined.serverOrderly complete.server past d⟩

theorem client_complete {source destination : Bytes} {r : Relay} {t : Session}
    {a : ProxySession.Act} (joined : Joined source destination r)
    (complete : Complete source destination r) (fine : undisturbed a = true)
    (uncut : Uncut r (.client a)) (possible : clientPossible r a = true)
    (moved : ProxySession.step .client r.client a = some t) :
    Complete source destination { r with
      client := t, server := deliver r r.server .outward (sent r.client .outward a) } := by
  have transfer := session_transfer joined.clientOrderly moved
  have nothingCut : NothingCut r.client a := by
    cases a with
    | forward d x => exact uncut
    | waitReturns =>
      intro d
      cases d with
      | outward => exact uncut.1
      | inward => exact uncut.2.imp id And.left
    | _ => trivial
  refine ⟨complete.intact, ?_, ?_, ?_, ?_, ?_⟩
  · have whole := step_whole joined.clientOrderly complete.client fine nothingCut moved
    refine ⟨fun d => ?_, whole.ended⟩
    have intact := whole.intact d
    cases d with
    | outward => exact intact
    | inward => simpa only [clientStream, deliver_written] using intact
  · apply fed_whole complete.server complete.intact ?_ (sent_taken complete.outward)
    funext d
    cases d with
    | outward => simp [serverStream, (transfer .outward).2]
    | inward => simp [serverStream]
  · simpa using complete.accepted
  · exact near_settled joined.clientOrderly complete.outward moved
  · rw [deliver_other r r.server (by decide)]
    apply far_settled complete.client fine complete.inward ?_ ?_ moved
    · rintro rfl
      rcases ended_drained joined complete possible with client | server
      · exact absurd (client .inward).1 (eof_running joined.clientOrderly moved)
      · exact (server .inward).2
    · rintro rfl
      exact uncut.2

theorem server_complete {source destination : Bytes} {r : Relay} {t : Session}
    {a : ProxySession.Act} (joined : Joined source destination r)
    (complete : Complete source destination r) (fine : undisturbed a = true)
    (uncut : Uncut r (.server a)) (possible : serverPossible r a = true)
    (moved : ProxySession.step .server r.server a = some t) :
    Complete source destination { r with
      server := t, client := deliver r r.client .inward (sent r.server .inward a) } := by
  have transfer := session_transfer joined.serverOrderly moved
  have nothingCut : NothingCut r.server a := by
    cases a with
    | forward d x => exact uncut
    | waitReturns =>
      intro d
      cases d with
      | outward => exact uncut.2.imp id And.left
      | inward => exact uncut.1
    | _ => trivial
  refine ⟨complete.intact, ?_, ?_, ?_, ?_, ?_⟩
  · apply fed_whole complete.client complete.intact ?_ (sent_taken complete.inward)
    funext d
    cases d with
    | outward => simp [clientStream]
    | inward => simp [clientStream, (transfer .inward).2]
  · have whole := step_whole joined.serverOrderly complete.server fine nothingCut moved
    refine ⟨fun d => ?_, whole.ended⟩
    have intact := whole.intact d
    cases d with
    | outward => simpa only [serverStream, deliver_written] using intact
    | inward => exact intact
  · exact step_accepted complete.accepted moved
  · rw [deliver_other r r.client (by decide)]
    apply far_settled complete.server fine complete.outward ?_ ?_ moved
    · rintro rfl
      rcases ended_drained joined complete possible with client | server
      · exact (client .outward).2
      · exact absurd (server .outward).1 (eof_running joined.serverOrderly moved)
    · rintro rfl
      exact uncut.2
  · exact near_settled joined.serverOrderly complete.inward moved

theorem step_complete {source destination : Bytes} {r q : Relay} {a : ProxyRelay.Act}
    (joined : Joined source destination r) (complete : Complete source destination r)
    (fine : untroubled a = true) (uncut : Uncut r a) (stepped : ProxyRelay.step r a = some q) :
    Complete source destination q := by
  cases ProxyRelay.step_effect stepped with
  | establish =>
    obtain ⟨intact, client, server, accepted, outward, inward⟩ := complete
    exact ⟨intact, client, server, accepted, outward, inward⟩
  | lose => simp [untroubled] at fine
  | client a t possible moved => exact client_complete joined complete fine uncut possible moved
  | server a t established possible moved =>
    exact server_complete joined complete fine uncut possible moved

theorem complete_written {source destination : Bytes} {r : Relay}
    (joined : Joined source destination r) (complete : Complete source destination r)
    (clientDone : r.client.handler = .finished) (serverDone : r.server.handler = .finished) :
    (r.server.forward .outward).written = source ∧
      (r.client.forward .inward).written = destination := by
  have clientPast : PastTry r.client.handler := .inr (.inr clientDone)
  have serverPast : PastTry r.server.handler := .inr (.inr serverDone)
  have fromClient := fun d => ended_complete (joined.clientOrderly.life d)
    (complete.client.intact d) (complete.client.ended clientPast d)
  have fromServer := fun d => ended_complete (joined.serverOrderly.life d)
    (complete.server.intact d) (complete.server.ended serverPast d)
  exact ⟨(fromServer .outward).trans (fromClient .outward),
    (fromClient .inward).trans (fromServer .inward)⟩

theorem relay_complete {source destination : Bytes} {r : Relay} {acts : List ProxyRelay.Act}
    (fine : ∀ a ∈ acts, untroubled a = true)
    (uncut : Runs.Along ProxyRelay.step Uncut (ProxyRelay.init source destination) acts)
    (reached : Runs.run ProxyRelay.step (ProxyRelay.init source destination) acts = some r)
    (clientDone : r.client.handler = .finished) (serverDone : r.server.handler = .finished) :
    (r.server.forward .outward).written = source ∧
      (r.client.forward .inward).written = destination := by
  have both : Joined source destination r ∧ Complete source destination r := by
    apply Runs.invariant_along
      (fun r => Joined source destination r ∧ Complete source destination r) ?_ ?_
      (Runs.along_and.mpr ⟨Runs.along_of_actions (untroubled · = true) fine, uncut⟩) reached
    · rintro r a q ⟨joined, complete⟩ ⟨fine, uncut⟩ stepped
      exact ⟨step_joined joined stepped, step_complete joined complete fine uncut stepped⟩
    · exact ⟨init_joined source destination, init_complete source destination⟩
  exact complete_written both.1 both.2 clientDone serverDone

def chunkThrough (d : Direction) : List ProxySession.Act :=
  [.forward d (.read 1), .forward d .put, .forward d .get, .forward d .write, .forward d .get]

/-- The accepted peer ends, when the other direction has nothing left to forward. -/
def outwardCloses : List ProxySession.Act :=
  [.forward .outward .eof, .forward .outward .close, .forward .outward .get,
    .forward .outward .gathered, .waitReturns, .forward .inward .cancelRead,
    .forward .inward .close, .forward .inward .cancelWrite, .forward .inward .gathered, .joined,
    .waitClosed, .waitClosed]

def twoEachWay : List ProxyRelay.Act :=
  let outward := chunkThrough .outward ++ chunkThrough .outward
  let inward := chunkThrough .inward ++ chunkThrough .inward
  .establish :: startBoth.map .client ++ startBoth.map .server ++ outward.map .client ++
    outward.map .server ++ inward.map .server ++ inward.map .client ++
    outwardCloses.map .client ++ outwardCloses.map .server

theorem relay_complete_two_chunks : ∃ r,
    Runs.run ProxyRelay.step (ProxyRelay.init [1, 2] [3, 4]) twoEachWay = some r ∧
    (r.server.forward .outward).written = [1, 2] ∧
    (r.client.forward .inward).written = [3, 4] := by
  obtain ⟨r, reached, clientDone, serverDone⟩ : ∃ r,
      Runs.run ProxyRelay.step (ProxyRelay.init [1, 2] [3, 4]) twoEachWay = some r ∧
      r.client.handler = .finished ∧ r.server.handler = .finished :=
    Runs.reaches (by decide +kernel)
  exact ⟨r, reached,
    relay_complete (by decide) (by decide +kernel) reached clientDone serverDone⟩

end RelayComplete
