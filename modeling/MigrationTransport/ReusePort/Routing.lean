import MigrationTransport.ReusePort.TcpServer
import MigrationTransport.Lib.Runs

/-!
Servers come and go, and each packet is routed by the history of one index. What the map
holds there is the socket registered last, as long as it is open; nothing that happens at
another index matters.
-/
namespace ReusePort
variable {Socket : Type} [DecidableEq Socket]

inductive Event (Socket : Type) where
  | start (sock : Socket) (keyIndex : Int32) (o : Outcomes)
  | exit (sock : Socket)
  deriving DecidableEq

/-- A server is started on a new socket, or exits, which closes its socket. -/
def step (k : Kernel Socket) : Event Socket → Option (Kernel Socket)
  | .start sock keyIndex o =>
    if sock ∈ k.created then none else some (startServer sock keyIndex o k)
  | .exit sock => if sock ∈ k.live then some (k.close sock) else none

def registersAt (keyIndex : Int32) (o : Outcomes) : Option (Fin maxEntries) :=
  if o.Attached then slotGiven keyIndex o else none

def noteLatest (key : Fin maxEntries) (latest : Option Socket) : Event Socket → Option Socket
  | .start sock keyIndex o => if registersAt keyIndex o = some key then some sock else latest
  | .exit _ => latest

def latestAt (key : Fin maxEntries) (events : List (Event Socket)) : Option Socket :=
  events.foldl (noteLatest key) none

inductive SlotEvent (Socket : Type) where
  | registered (sock : Socket)
  | exited (sock : Socket)
  deriving DecidableEq

def noteSlot (key : Fin maxEntries) (seen : List (SlotEvent Socket)) :
    Event Socket → List (SlotEvent Socket)
  | .start sock keyIndex o =>
    if registersAt keyIndex o = some key then seen ++ [.registered sock] else seen
  | .exit sock => if .registered sock ∈ seen then seen ++ [.exited sock] else seen

def eventsAt (key : Fin maxEntries) (events : List (Event Socket)) : List (SlotEvent Socket) :=
  events.foldl (noteSlot key) []

def slotStep (held : Option Socket) : SlotEvent Socket → Option Socket
  | .registered sock => some sock
  | .exited sock => held.filter (· ≠ sock)

def slotContent (seen : List (SlotEvent Socket)) : Option Socket := seen.foldl slotStep none

theorem start_failed {sock : Socket} {keyIndex : Int32} {o : Outcomes} {k : Kernel Socket}
    (negative : (createTcpServer sock keyIndex o k).1 < 0) :
    startServer sock keyIndex o k = (createTcpServer sock keyIndex o k).2.close sock :=
  if_pos negative

theorem start_attached {sock : Socket} {keyIndex : Int32} {o : Outcomes} {k : Kernel Socket}
    (attached : o.Attached) :
    startServer sock keyIndex o k = (createTcpServer sock keyIndex o k).2 := by
  have ready : ¬ (createTcpServer sock keyIndex o k).1 < 0 := by
    rw [create_attached attached]
    exact (not_neg_iff _).mpr (Int32.le_of_lt attached.1)
  exact if_neg ready

theorem start_beside {sock : Socket} {keyIndex : Int32} {o : Outcomes} {k : Kernel Socket}
    (fresh : sock ∉ k.created) : Kernel.Beside sock k (startServer sock keyIndex o k) := by
  by_cases attached : o.Attached
  · obtain ⟨live, created⟩ := update_beside sock keyIndex.toUInt32 o (k.socket sock)
    obtain ⟨liveSocket, createdSocket⟩ := Kernel.beside_socket sock k
    rw [start_attached attached, create_attached attached]
    exact ⟨fun other different => live ▸ liveSocket other different,
      fun other member => created ▸ createdSocket other member⟩
  · obtain ⟨negative, -, beside⟩ := create_failed fresh attached
    rw [start_failed negative]
    exact Kernel.beside_close beside

theorem start_servers {sock : Socket} {k : Kernel Socket} (keyIndex : Int32) (o : Outcomes)
    (fresh : sock ∉ k.created) (key : Fin maxEntries) :
    (startServer sock keyIndex o k).migServers key =
      if registersAt keyIndex o = some key then some sock else k.migServers key := by
  by_cases attached : o.Attached
  · rw [registersAt, if_pos attached, start_attached attached, create_servers attached]
  · obtain ⟨negative, servers, -⟩ := create_failed fresh attached
    have unheld : (createTcpServer sock keyIndex o k).2.migServers key ≠ some sock :=
      servers key ▸ Kernel.fresh_unheld fresh key
    rw [registersAt, if_neg attached, start_failed negative, Kernel.close_unheld unheld, servers]
    simp

/-- The slot holds the socket registered last, unless that has exited. -/
structure LatestHeld (key : Fin maxEntries) (latest : Option Socket) (k : Kernel Socket) :
    Prop where
  held : ∀ sock, k.migServers key = some sock ↔ latest = some sock ∧ sock ∈ k.live
  known : ∀ sock, latest = some sock → sock ∈ k.created

theorem start_latest {key : Fin maxEntries} {latest : Option Socket} {k : Kernel Socket}
    {sock : Socket} (keyIndex : Int32) (o : Outcomes) (fresh : sock ∉ k.created)
    (tracked : LatestHeld key latest k) :
    LatestHeld key (noteLatest key latest (.start sock keyIndex o))
      (startServer sock keyIndex o k) := by
  have servers := start_servers keyIndex o fresh key
  have beside : Kernel.Beside sock k (startServer sock keyIndex o k) := start_beside fresh
  simp only [noteLatest]
  by_cases registers : registersAt keyIndex o = some key
  · rw [if_pos registers] at servers ⊢
    have opened := (startServer sock keyIndex o k).holdsLive key sock servers
    constructor
    · intro other
      rw [servers]
      constructor
      · rintro ⟨⟩
        exact ⟨rfl, opened⟩
      · exact fun found => found.1
    · rintro other ⟨⟩
      exact (startServer sock keyIndex o k).liveCreated sock opened
  · rw [if_neg registers] at servers ⊢
    constructor
    · intro other
      rw [servers, tracked.held]
      refine and_congr_right fun last => ?_
      have different : other ≠ sock := fun same => fresh (same ▸ tracked.known other last)
      exact (beside.live other different).symm
    · exact fun other last => beside.created other (tracked.known other last)

theorem step_latest {key : Fin maxEntries} {latest : Option Socket} {k l : Kernel Socket}
    {e : Event Socket} (tracked : LatestHeld key latest k) (stepped : step k e = some l) :
    LatestHeld key (noteLatest key latest e) l := by
  cases e with
  | start sock keyIndex o =>
    simp only [step, Option.ite_none_left_eq_some, Option.some.injEq] at stepped
    obtain ⟨fresh, rfl⟩ := stepped
    exact start_latest keyIndex o fresh tracked
  | exit sock =>
    simp only [step, Option.ite_none_right_eq_some, Option.some.injEq] at stepped
    obtain ⟨-, rfl⟩ := stepped
    constructor
    · intro other
      rw [Kernel.close_servers, Option.filter_eq_some_iff, tracked.held]
      simp only [noteLatest, Kernel.close, List.mem_filter]
      tauto
    · exact tracked.known

/-- The slot is what the events at its index alone make of it. -/
structure ContentHeld (key : Fin maxEntries) (seen : List (SlotEvent Socket))
    (k : Kernel Socket) : Prop where
  content : k.migServers key = slotContent seen
  registered : ∀ sock, k.migServers key = some sock → .registered sock ∈ seen

theorem slot_content_append (seen : List (SlotEvent Socket)) (e : SlotEvent Socket) :
    slotContent (seen ++ [e]) = slotStep (slotContent seen) e := by
  simp [slotContent]

theorem step_content {key : Fin maxEntries} {seen : List (SlotEvent Socket)}
    {k l : Kernel Socket} {e : Event Socket} (tracked : ContentHeld key seen k)
    (stepped : step k e = some l) : ContentHeld key (noteSlot key seen e) l := by
  cases e with
  | start sock keyIndex o =>
    simp only [step, Option.ite_none_left_eq_some, Option.some.injEq] at stepped
    obtain ⟨fresh, rfl⟩ := stepped
    have servers := start_servers keyIndex o fresh key
    simp only [noteSlot]
    by_cases registers : registersAt keyIndex o = some key
    · rw [if_pos registers] at servers ⊢
      constructor
      · rw [servers, slot_content_append, slotStep]
      · intro other held
        rw [servers, Option.some.injEq] at held
        simp [held]
    · rw [if_neg registers] at servers ⊢
      exact ⟨servers.trans tracked.content,
        fun other held => tracked.registered other (servers ▸ held)⟩
  | exit sock =>
    simp only [step, Option.ite_none_right_eq_some, Option.some.injEq] at stepped
    obtain ⟨-, rfl⟩ := stepped
    simp only [noteSlot]
    by_cases member : SlotEvent.registered sock ∈ seen
    · rw [if_pos member]
      constructor
      · rw [slot_content_append, ← tracked.content, slotStep, Kernel.close_servers]
      · intro other held
        rw [Kernel.close_servers, Option.filter_eq_some_iff] at held
        exact List.mem_append_left _ (tracked.registered other held.1)
    · rw [if_neg member]
      have unheld : k.migServers key ≠ some sock := fun held =>
        member (tracked.registered sock held)
      have same : (k.close sock).migServers key = k.migServers key := Kernel.close_unheld unheld
      exact ⟨same.trans tracked.content,
        fun other held => tracked.registered other (same ▸ held)⟩

theorem run_latest (key : Fin maxEntries) {events : List (Event Socket)} {k : Kernel Socket}
    (reached : Runs.run step Kernel.empty events = some k) :
    LatestHeld key (latestAt key events) k := by
  have start : LatestHeld key none (Kernel.empty : Kernel Socket) := by
    constructor <;> simp [Kernel.empty]
  exact Runs.invariant_fold (noteLatest key) (LatestHeld key)
    (fun _ _ _ _ tracked stepped => step_latest tracked stepped) start reached

theorem run_content (key : Fin maxEntries) {events : List (Event Socket)} {k : Kernel Socket}
    (reached : Runs.run step Kernel.empty events = some k) :
    k.migServers key = slotContent (eventsAt key events) := by
  have start : ContentHeld key [] (Kernel.empty : Kernel Socket) := by
    constructor <;> simp [Kernel.empty, slotContent]
  exact (Runs.invariant_fold (noteSlot key) (ContentHeld key)
    (fun _ _ _ _ tracked stepped => step_content tracked stepped) start reached).content

theorem packets_follow_their_index (order : HostOrder) {events : List (Event Socket)}
    {k : Kernel Socket} (reached : Runs.run step Kernel.empty events = some k)
    (packet : Packet) :
    (∀ sock, hotStandbySelector order k.migServers packet = (.pass, some sock) ↔
      packet.ipProtocol = ipprotoTcp ∧ tcphdrSize ≤ packet.data.length ∧
        latestAt (slotFor (sourcePort packet.data)) events = some sock ∧ sock ∈ k.live) ∧
    ((¬ ∃ sock, hotStandbySelector order k.migServers packet = (.pass, some sock)) →
      hotStandbySelector order k.migServers packet = (.drop, none)) ∧
    ∀ (others : List (Event Socket)) (l : Kernel Socket),
      Runs.run step Kernel.empty others = some l →
      eventsAt (slotFor (sourcePort packet.data)) others =
        eventsAt (slotFor (sourcePort packet.data)) events →
      hotStandbySelector order l.migServers packet =
        hotStandbySelector order k.migServers packet := by
  have latest := run_latest (slotFor (sourcePort packet.data)) reached
  refine ⟨?_, ?_, ?_⟩
  · intro sock
    rw [selector_routes, ← latest.held sock, ← towards_pass, ← and_assoc]
    by_cases header : packet.HasTcpHeader
    · rw [if_pos header]
      exact (and_iff_right header).symm
    · rw [if_neg header]
      constructor
      · rintro ⟨⟩
      · exact fun routed => absurd routed.1 header
  · intro nowhere
    rw [selector_routes] at nowhere ⊢
    split
    · rename_i header
      rw [if_pos header] at nowhere
      cases held : k.migServers (slotFor (sourcePort packet.data)) with
      | none => rfl
      | some sock => exact absurd ⟨sock, towards_pass.mpr held⟩ nowhere
    · rfl
  · intro others l reachedOther same
    rw [selector_routes, selector_routes, run_content _ reached, run_content _ reachedOther, same]

/-- The second server has exited, so that odd ports have none. -/
theorem packets_follow_their_index_even : ∃ k,
    Runs.run step Kernel.empty [.start 7 0 succeeding, .start 8 1 succeeding, .exit 8] = some k ∧
      hotStandbySelector .littleEndian k.migServers (segment 50000) = (.pass, some 7) := by
  obtain ⟨k, reached, opened⟩ : ∃ k,
      Runs.run step Kernel.empty [.start 7 0 succeeding, .start 8 1 succeeding, .exit 8] =
        some k ∧ 7 ∈ k.live := Runs.reaches (by decide)
  obtain ⟨tcp, header⟩ := segment_header 50000
  have routed := ((packets_follow_their_index .littleEndian reached (segment 50000)).1 7).mpr
    ⟨tcp, header, by decide, opened⟩
  exact ⟨k, reached, routed⟩

end ReusePort
