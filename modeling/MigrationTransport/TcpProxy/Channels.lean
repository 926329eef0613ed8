import MigrationTransport.Lib.Family
import MigrationTransport.TcpProxy.RelayTermination

/-!
Any number of QEMU connections at a time through the two TCP proxies, as a migration with
`multifd` makes them. Each has a TCP connection of its own, and the handlers and tasks of all of
them interleave. Nothing of the proxies is shared but the counter and the histogram.
-/
namespace Channels
open ByteStream Family Ranking
open ProxyRelay (Relay Joined Calls RoomInBoth Sound)
open RelayComplete (untroubled Uncut Complete)
open RelayTermination (AwaitsQemu BothSteady RelayOver ownRelay relayRank)

structure Streams where
  source : Bytes
  destination : Bytes
  deriving DecidableEq

def bytes (x : Streams) : Nat := x.source.length + x.destination.length

def relay (x : Streams) : Relay := ProxyRelay.init x.source x.destination

def relayStep : List (Streams × Relay) → Act Streams ProxyRelay.Act →
    Option (List (Streams × Relay)) := familyStep relay ProxyRelay.step

variable {f : List (Streams × Relay)} {acts : List (Act Streams ProxyRelay.Act)}

theorem every_in_order (reached : Runs.run relayStep [] acts = some f) :
    ∀ m ∈ f, Joined m.1.source m.1.destination m.2 ∧ Calls Ordering.InOrder m.2 := by
  apply every_member (fun x r => Joined x.source x.destination r ∧ Calls Ordering.InOrder r)
    ?_ ?_ reached
  · intro x
    exact ⟨ProxyRelay.init_joined _ _, ProxyRelay.init_in_order _ _⟩
  · rintro x r a q ⟨joined, calls⟩ stepped
    exact ⟨ProxyRelay.step_joined joined stepped, ProxyRelay.step_all_in_order joined calls stepped⟩

theorem every_sound (room : Runs.Along relayStep (InEach RoomInBoth) [] acts)
    (reached : Runs.run relayStep [] acts = some f) :
    ∀ m ∈ f, Joined m.1.source m.1.destination m.2 ∧ Calls Sound m.2 := by
  apply every_along RoomInBoth (fun x r => Joined x.source x.destination r ∧ Calls Sound r)
    ?_ ?_ room reached
  · intro x
    exact ⟨ProxyRelay.init_joined _ _, ProxyRelay.init_sound _ _⟩
  · rintro x r a q ⟨joined, calls⟩ room stepped
    exact ⟨ProxyRelay.step_joined joined stepped,
      ProxyRelay.step_all_sound joined calls room stepped⟩

/-- No failure, and no direction is cut off with bytes on their way. -/
def Gentle (r : Relay) (a : ProxyRelay.Act) : Prop := untroubled a = true ∧ Uncut r a

instance (r : Relay) (a : ProxyRelay.Act) : Decidable (Gentle r a) :=
  inferInstanceAs (Decidable (_ ∧ _))

theorem every_complete (gentle : Runs.Along relayStep (InEach Gentle) [] acts)
    (reached : Runs.run relayStep [] acts = some f) :
    ∀ m ∈ f, Joined m.1.source m.1.destination m.2 ∧ Complete m.1.source m.1.destination m.2 := by
  apply every_along Gentle
    (fun x r => Joined x.source x.destination r ∧ Complete x.source x.destination r)
    ?_ ?_ gentle reached
  · intro x
    exact ⟨ProxyRelay.init_joined _ _, RelayComplete.init_complete _ _⟩
  · rintro x r a q ⟨joined, complete⟩ ⟨fine, uncut⟩ stepped
    exact ⟨ProxyRelay.step_joined joined stepped,
      RelayComplete.step_complete joined complete fine uncut stepped⟩

structure Delivers (acts : List (Act Streams ProxyRelay.Act)) (x : Streams) (r : Relay) : Prop where
  outward : (r.server.forward .outward).written.Sublist x.source
  inward : (r.client.forward .inward).written.Sublist x.destination
  cut : Runs.Along relayStep (InEach RoomInBoth) [] acts →
    (r.server.forward .outward).written <+: x.source ∧
      (r.client.forward .inward).written <+: x.destination
  whole : Runs.Along relayStep (InEach Gentle) [] acts → r.client.handler = .finished →
    r.server.handler = .finished → (r.server.forward .outward).written = x.source ∧
      (r.client.forward .inward).written = x.destination

/-- No byte of one connection ever turns up in another. -/
theorem channels_deliver (reached : Runs.run relayStep [] acts = some f) :
    ∀ m ∈ f, Delivers acts m.1 m.2 := by
  intro m member
  obtain ⟨joined, calls⟩ := every_in_order reached m member
  obtain ⟨outward, inward⟩ := ProxyRelay.both_in_order joined calls
  refine ⟨outward, inward, ?_, ?_⟩
  · intro room
    obtain ⟨joined, sound⟩ := every_sound room reached m member
    exact ProxyRelay.both_prefixed joined sound
  · intro gentle clientDone serverDone
    obtain ⟨joined, complete⟩ := every_complete gentle reached m member
    exact RelayComplete.complete_written joined complete clientDone serverDone

/-- Two connections; the second ends before the first begins. -/
def twoChannels : List (Act Streams ProxyRelay.Act) :=
  [.starts ⟨[1, 2], [3, 4]⟩, .starts ⟨[5, 6], [7, 8]⟩] ++
    RelayComplete.twoEachWay.map (.member 1) ++ RelayComplete.twoEachWay.map (.member 0)

theorem channels_deliver_two : ∃ f, Runs.run relayStep [] twoChannels = some f ∧ f.length = 2 ∧
    ∀ m ∈ f, (m.2.server.forward .outward).written = m.1.source ∧
      (m.2.client.forward .inward).written = m.1.destination := by
  obtain ⟨f, reached, two, done⟩ : ∃ f, Runs.run relayStep [] twoChannels = some f ∧
      f.length = 2 ∧ ∀ m ∈ f, m.2.client.handler = .finished ∧ m.2.server.handler = .finished :=
    Runs.reaches (by decide +kernel)
  have gentle : Runs.Along relayStep (InEach Gentle) [] twoChannels := by decide +kernel
  refine ⟨f, reached, two, ?_⟩
  intro m member
  obtain ⟨clientDone, serverDone⟩ := done m member
  exact (channels_deliver reached m member).whole gentle clientDone serverDone

theorem every_steady (reached : Runs.run relayStep [] acts = some f) :
    ∀ m ∈ f, BothSteady m.2 := by
  apply every_member (fun _ r => BothSteady r) ?_ ?_ reached
  · intro x
    exact RelayTermination.init_both_steady _ _
  · intro _ r a q steady stepped
    exact RelayTermination.step_both_steady steady stepped

/-- One connection is lost while another has just been accepted. -/
def oneLost : List (Act Streams ProxyRelay.Act) :=
  .starts ⟨[1, 2], []⟩ :: ProxyRelay.lostBetween.map (.member 0) ++ [.starts ⟨[], [3]⟩]

end Channels
