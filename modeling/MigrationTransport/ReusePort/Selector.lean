import MigrationTransport.ByteStream

/-!
The eBPF program of `reuse-port` and the map it selects from. `mig_servers` holds
listening sockets; the kernel takes a socket out when it closes, so that every socket in
the map is live. `hot_standby_selector` reads the TCP source port of an incoming packet
and selects the socket at index 0 or 1 by its parity.
-/
namespace ReusePort
open ByteStream

abbrev maxEntries : Nat := 128

def ipprotoTcp : UInt32 := 6

def tcphdrSize : Nat := 20

inductive Verdict where
  | pass
  | drop
  deriving DecidableEq

/-- What the program is given of a packet: `data` is what lies in `data..data_end`. -/
structure Packet where
  ipProtocol : UInt32
  data : Bytes

inductive HostOrder where
  | littleEndian
  | bigEndian

/-- The host reads the two bytes of `tcp->source` in its own order. -/
def loadSource (order : HostOrder) : Bytes → UInt16
  | first :: second :: _ =>
    match order with
    | .littleEndian => UInt16.ofNat (first.toNat + 256 * second.toNat)
    | .bigEndian => UInt16.ofNat (256 * first.toNat + second.toNat)
  | _ => 0

def bpfNtohs (order : HostOrder) (x : UInt16) : UInt16 :=
  match order with
  | .littleEndian => UInt16.ofNat (256 * (x.toNat % 256) + x.toNat / 256)
  | .bigEndian => x

/-- The source port as it is on the wire, in network order. -/
def sourcePort : Bytes → Nat
  | first :: second :: _ => 256 * first.toNat + second.toNat
  | _ => 0

theorem ntohs_load (order : HostOrder) (data : Bytes) :
    (bpfNtohs order (loadSource order data)).toNat = sourcePort data := by
  match data with
  | [] => cases order <;> simp [bpfNtohs, loadSource, sourcePort]
  | [_] => cases order <;> simp [bpfNtohs, loadSource, sourcePort]
  | first :: second :: _ =>
    have firstByte := first.toNat_lt
    have secondByte := second.toNat_lt
    cases order with
    | littleEndian =>
      have low : (first.toNat + 256 * second.toNat) % 256 = first.toNat := by omega
      have high : (first.toNat + 256 * second.toNat) / 256 = second.toNat := by omega
      simp only [bpfNtohs, loadSource, sourcePort, UInt16.toNat_ofNat']
      rw [Nat.mod_eq_of_lt (show first.toNat + 256 * second.toNat < 2 ^ 16 by omega), low, high]
      omega
    | bigEndian =>
      simp only [bpfNtohs, loadSource, sourcePort, UInt16.toNat_ofNat']
      omega

variable {Socket : Type}

abbrev Servers (Socket : Type) := Fin maxEntries → Option Socket

/-- `bpf_sk_select_reuseport`: returns 0 and selects the socket of the slot, or selects
    nothing and returns an error where the slot is empty. -/
def bpfSkSelectReuseport (migServers : Servers Socket) (key : Fin maxEntries) :
    Option Socket :=
  migServers key

def hotStandbySelector (order : HostOrder) (migServers : Servers Socket) (reuse : Packet) :
    Verdict × Option Socket :=
  if reuse.ipProtocol ≠ ipprotoTcp then (.drop, none)
  else if reuse.data.length < tcphdrSize then (.drop, none)
  else
    let srcPort := bpfNtohs order (loadSource order reuse.data)
    if srcPort % 2 = 0 then
      match bpfSkSelectReuseport migServers 0 with
      | some selected => (.pass, some selected)
      | none => (.drop, none)
    else
      match bpfSkSelectReuseport migServers 1 with
      | some selected => (.pass, some selected)
      | none => (.drop, none)

def Packet.HasTcpHeader (packet : Packet) : Prop :=
  packet.ipProtocol = ipprotoTcp ∧ tcphdrSize ≤ packet.data.length

instance (packet : Packet) : Decidable packet.HasTcpHeader := by
  unfold Packet.HasTcpHeader
  infer_instance

def slotFor (port : Nat) : Fin maxEntries := ⟨port % 2, by unfold maxEntries; omega⟩

def towards : Option Socket → Verdict × Option Socket
  | some selected => (.pass, some selected)
  | none => (.drop, none)

theorem port_parity (order : HostOrder) (data : Bytes) :
    bpfNtohs order (loadSource order data) % 2 = 0 ↔ sourcePort data % 2 = 0 := by
  rw [← ntohs_load order data, ← UInt16.toNat_inj, UInt16.toNat_mod]
  rfl

theorem selector_routes (order : HostOrder) (migServers : Servers Socket) (packet : Packet) :
    hotStandbySelector order migServers packet =
      if packet.HasTcpHeader then towards (migServers (slotFor (sourcePort packet.data)))
      else (.drop, none) := by
  unfold hotStandbySelector Packet.HasTcpHeader
  by_cases tcp : packet.ipProtocol = ipprotoTcp
  · by_cases short : packet.data.length < tcphdrSize
    · simp [tcp, short]
    · have fits : tcphdrSize ≤ packet.data.length := by omega
      simp only [tcp, short, fits, ne_eq, not_true_eq_false, if_false, and_self, if_true,
        bpfSkSelectReuseport]
      by_cases even : sourcePort packet.data % 2 = 0
      · rw [if_pos ((port_parity order packet.data).mpr even)]
        have slot : slotFor (sourcePort packet.data) = 0 := Fin.ext even
        rw [slot]
        cases migServers 0 <;> simp [towards]
      · rw [if_neg (mt (port_parity order packet.data).mp even)]
        have odd : sourcePort packet.data % 2 = 1 := by omega
        have slot : slotFor (sourcePort packet.data) = 1 := Fin.ext odd
        rw [slot]
        cases migServers 1 <;> simp [towards]
  · simp [tcp]

def segment (port : UInt16) : Packet where
  ipProtocol := ipprotoTcp
  data := UInt8.ofNat (port.toNat / 256) :: UInt8.ofNat port.toNat :: List.replicate 18 0

theorem segment_header (port : UInt16) : (segment port).HasTcpHeader := by
  simp [Packet.HasTcpHeader, segment, tcphdrSize]

theorem segment_port (port : UInt16) : sourcePort (segment port).data = port.toNat := by
  have := port.toNat_lt
  simp only [sourcePort, segment, UInt8.toNat_ofNat']
  omega

def ChosenFor (order : HostOrder) (migServers : Servers Socket) (sock : Socket)
    (port : UInt16) : Prop :=
  ∀ packet : Packet, packet.HasTcpHeader → sourcePort packet.data = port.toNat →
    hotStandbySelector order migServers packet = (.pass, some sock)

def Reachable (order : HostOrder) (migServers : Servers Socket) (sock : Socket) : Prop :=
  ∃ port, ChosenFor order migServers sock port

theorem towards_pass {held : Option Socket} {sock : Socket} :
    towards held = (.pass, some sock) ↔ held = some sock := by
  cases held <;> simp [towards]

theorem chosen_iff {order : HostOrder} {migServers : Servers Socket} {sock : Socket}
    {port : UInt16} : ChosenFor order migServers sock port ↔
      migServers (slotFor port.toNat) = some sock := by
  constructor
  · intro chosen
    have picked := chosen (segment port) (segment_header port) (segment_port port)
    rw [selector_routes, if_pos (segment_header port), segment_port] at picked
    exact towards_pass.mp picked
  · intro held packet header fromPort
    rw [selector_routes, if_pos header, fromPort, held]
    rfl

theorem reachable_iff {order : HostOrder} {migServers : Servers Socket} {sock : Socket} :
    Reachable order migServers sock ↔
      migServers 0 = some sock ∨ migServers 1 = some sock := by
  constructor
  · rintro ⟨port, chosen⟩
    have held := chosen_iff.mp chosen
    rcases Nat.mod_two_eq_zero_or_one port.toNat with even | odd
    · exact .inl (by rwa [show slotFor port.toNat = 0 from Fin.ext even] at held)
    · exact .inr (by rwa [show slotFor port.toNat = 1 from Fin.ext odd] at held)
  · rintro (held | held)
    · exact ⟨0, chosen_iff.mpr held⟩
    · exact ⟨1, chosen_iff.mpr held⟩

/-- The kernel's side: sockets that were created, those still open, and the pinned map. -/
structure Kernel (Socket : Type) where
  migServers : Servers Socket
  created : List Socket
  live : List Socket
  holdsLive : ∀ key sock, migServers key = some sock → sock ∈ live
  liveCreated : ∀ sock ∈ live, sock ∈ created

namespace Kernel

def empty : Kernel Socket where
  migServers _ := none
  created := []
  live := []
  holdsLive _ _ held := by simp at held
  liveCreated _ member := by simp at member

def socket (k : Kernel Socket) (sock : Socket) : Kernel Socket where
  migServers := k.migServers
  created := sock :: k.created
  live := sock :: k.live
  holdsLive key other held := List.mem_cons_of_mem _ (k.holdsLive key other held)
  liveCreated other member := by
    rcases List.mem_cons.mp member with rfl | older
    · exact List.mem_cons_self
    · exact List.mem_cons_of_mem _ (k.liveCreated other older)

/-- Only what concerns the one socket may have changed. -/
structure Beside (sock : Socket) (k l : Kernel Socket) : Prop where
  live : ∀ other, other ≠ sock → (other ∈ l.live ↔ other ∈ k.live)
  created : ∀ other ∈ k.created, other ∈ l.created

theorem fresh_unheld {sock : Socket} {k : Kernel Socket} (fresh : sock ∉ k.created)
    (key : Fin maxEntries) : k.migServers key ≠ some sock :=
  fun held => fresh (k.liveCreated sock (k.holdsLive key sock held))

theorem beside_refl (sock : Socket) (k : Kernel Socket) : Beside sock k k :=
  ⟨fun _ _ => Iff.rfl, fun _ member => member⟩

theorem beside_socket (sock : Socket) (k : Kernel Socket) : Beside sock k (k.socket sock) where
  live other different := by simp [socket, different]
  created other member := List.mem_cons_of_mem _ member

@[simp] theorem socket_servers (k : Kernel Socket) (sock : Socket) :
    (k.socket sock).migServers = k.migServers := rfl

variable [DecidableEq Socket]

def close (k : Kernel Socket) (sock : Socket) : Kernel Socket where
  migServers key := (k.migServers key).filter (· ≠ sock)
  created := k.created
  live := k.live.filter (· ≠ sock)
  holdsLive key other held := by
    obtain ⟨held, different⟩ := Option.filter_eq_some_iff.mp held
    exact List.mem_filter.mpr ⟨k.holdsLive key other held, different⟩
  liveCreated other member := k.liveCreated other (List.mem_filter.mp member).1

/-- `bpf_map_update_elem(.., BPF_ANY)`: replaces what the slot held. An index past the end
    is refused (`E2BIG`), as is a descriptor that is no open socket; `refused` stands for
    any other reason of the kernel. -/
def bpfMapUpdateElem (k : Kernel Socket) (key : UInt32) (sock : Socket) (refused : Bool) :
    Int32 × Kernel Socket :=
  if accepted : key.toNat < maxEntries ∧ refused = false ∧ sock ∈ k.live then
    (0, {
      migServers := Function.update k.migServers ⟨key.toNat, accepted.1⟩ (some sock)
      created := k.created
      live := k.live
      holdsLive := by
        intro slot other held
        by_cases same : slot = ⟨key.toNat, accepted.1⟩
        · rw [same, Function.update_self, Option.some.injEq] at held
          exact held ▸ accepted.2.2
        · rw [Function.update_of_ne same] at held
          exact k.holdsLive slot other held
      liveCreated := k.liveCreated })
  else (-1, k)

theorem close_servers (k : Kernel Socket) (sock : Socket) (key : Fin maxEntries) :
    (k.close sock).migServers key = (k.migServers key).filter (· ≠ sock) := rfl

theorem beside_close {sock : Socket} {k l : Kernel Socket} (beside : Beside sock k l) :
    Beside sock k (l.close sock) where
  live other different := by simp [close, different, beside.live other different]
  created := beside.created

theorem close_unheld {k : Kernel Socket} {sock : Socket} {key : Fin maxEntries}
    (unheld : k.migServers key ≠ some sock) :
    (k.close sock).migServers key = k.migServers key := by
  rw [close_servers]
  cases held : k.migServers key with
  | none => rfl
  | some other =>
    have different : other ≠ sock := fun same => unheld (same ▸ held)
    simp [different]

theorem update_accepted {k : Kernel Socket} {key : UInt32} {sock : Socket}
    (fits : key.toNat < maxEntries) (opened : sock ∈ k.live) :
    (k.bpfMapUpdateElem key sock false).1 = 0 ∧
      (k.bpfMapUpdateElem key sock false).2.migServers =
        Function.update k.migServers ⟨key.toNat, fits⟩ (some sock) := by
  have accepted : key.toNat < maxEntries ∧ false = false ∧ sock ∈ k.live := ⟨fits, rfl, opened⟩
  rw [bpfMapUpdateElem, dif_pos accepted]
  exact ⟨rfl, rfl⟩

@[simp] theorem update_live (k : Kernel Socket) (key : UInt32) (sock : Socket)
    (refused : Bool) : (k.bpfMapUpdateElem key sock refused).2.live = k.live := by
  unfold bpfMapUpdateElem
  split <;> rfl

@[simp] theorem update_created (k : Kernel Socket) (key : UInt32) (sock : Socket)
    (refused : Bool) : (k.bpfMapUpdateElem key sock refused).2.created = k.created := by
  unfold bpfMapUpdateElem
  split <;> rfl

theorem update_refused {k : Kernel Socket} {key : UInt32} {sock : Socket} {refused : Bool}
    (reason : ¬ (key.toNat < maxEntries ∧ refused = false ∧ sock ∈ k.live)) :
    k.bpfMapUpdateElem key sock refused = (-1, k) :=
  dif_neg reason

end Kernel

end ReusePort
