import MigrationTransport.ReusePort.Selector

/-!
Start of `tcp-server`. The results of its system calls are inputs. A map that cannot be
opened or updated is only warned about, so that a server may be ready and yet be in no
slot, or in a slot that the selector never looks at.
-/
namespace ReusePort
variable {Socket : Type} [DecidableEq Socket]

/-- What the system calls return, in the order in which they are made. -/
structure Outcomes where
  serverFd : Int32
  reuseAddr : Int32
  reusePort : Int32
  bind : Int32
  listen : Int32
  progFd : Int32
  attach : Int32
  mapFd : Int32
  updateRefused : Bool
  deriving DecidableEq

def updateBpfMapPinned (value : Socket) (key : UInt32) (o : Outcomes) (k : Kernel Socket) :
    Int32 × Kernel Socket :=
  if o.mapFd < 0 then (-1, k)
  else
    let (result, updated) := k.bpfMapUpdateElem key value o.updateRefused
    if result < 0 then (-1, k) else (0, updated)

/-- The descriptor that is returned. `sock` is the socket that `socket()` creates; where it
    returns -1 there is none. The calls for 0 and for a missing program leave the socket
    open. -/
def createTcpServer (sock : Socket) (keyIndex : Int32) (o : Outcomes) (k : Kernel Socket) :
    Int32 × Kernel Socket :=
  let k := if o.serverFd < 0 then k else k.socket sock
  if o.serverFd = 0 then (-1, k)
  else if o.reuseAddr ≠ 0 then (-1, k.close sock)
  else if o.reusePort ≠ 0 then (-1, k.close sock)
  else if o.bind < 0 then (-1, k.close sock)
  else if o.listen < 0 then (-1, k.close sock)
  else if o.progFd < 0 then (-1, k)
  else if o.attach ≠ 0 then (-1, k.close sock)
  else
    -- a negative result is only reported: "Continue anyway"
    let (_, k) := updateBpfMapPinned sock keyIndex.toUInt32 o k
    (o.serverFd, k)

/-- `main` up to its accept loop. Leaving with `EXIT_FAILURE` closes the socket. -/
def startServer (sock : Socket) (keyIndex : Int32) (o : Outcomes) (k : Kernel Socket) :
    Kernel Socket :=
  let (serverFd, k) := createTcpServer sock keyIndex o k
  if serverFd < 0 then k.close sock else k

def Outcomes.Attached (o : Outcomes) : Prop :=
  0 < o.serverFd ∧ o.reuseAddr = 0 ∧ o.reusePort = 0 ∧ 0 ≤ o.bind ∧ 0 ≤ o.listen ∧
    0 ≤ o.progFd ∧ o.attach = 0

instance (o : Outcomes) : Decidable o.Attached := by
  unfold Outcomes.Attached
  infer_instance

def slotGiven (keyIndex : Int32) (o : Outcomes) : Option (Fin maxEntries) :=
  if fits : keyIndex.toUInt32.toNat < maxEntries then
    if 0 ≤ o.mapFd ∧ o.updateRefused = false then some ⟨keyIndex.toUInt32.toNat, fits⟩ else none
  else none

theorem not_neg_iff (x : Int32) : ¬ x < 0 ↔ 0 ≤ x := by
  rw [Int32.not_lt]

theorem update_effect {sock : Socket} {key : UInt32} {o : Outcomes} {k : Kernel Socket}
    (opened : sock ∈ k.live) (fits : key.toNat < maxEntries) (found : 0 ≤ o.mapFd)
    (accepted : o.updateRefused = false) :
    (updateBpfMapPinned sock key o k).2.migServers =
      Function.update k.migServers ⟨key.toNat, fits⟩ (some sock) := by
  obtain ⟨done, servers⟩ := Kernel.update_accepted fits opened
  have notNegative : ¬ (0 : Int32) < 0 := by decide
  simp only [updateBpfMapPinned, if_neg ((not_neg_iff _).mpr found), accepted, done,
    if_neg notNegative, servers]

theorem update_fails {sock : Socket} {key : UInt32} {o : Outcomes} {k : Kernel Socket}
    (reason : ¬ (key.toNat < maxEntries ∧ 0 ≤ o.mapFd ∧ o.updateRefused = false ∧
      sock ∈ k.live)) : updateBpfMapPinned sock key o k = (-1, k) := by
  by_cases found : o.mapFd < 0
  · simp only [updateBpfMapPinned, if_pos found]
  · have refused : ¬ (key.toNat < maxEntries ∧ o.updateRefused = false ∧ sock ∈ k.live) := by
      rintro ⟨fits, accepted, opened⟩
      exact reason ⟨fits, (not_neg_iff _).mp found, accepted, opened⟩
    have negative : (-1 : Int32) < 0 := by decide
    simp only [updateBpfMapPinned, if_neg found, Kernel.update_refused refused, if_pos negative]

theorem update_beside (sock : Socket) (key : UInt32) (o : Outcomes) (k : Kernel Socket) :
    (updateBpfMapPinned sock key o k).2.live = k.live ∧
      (updateBpfMapPinned sock key o k).2.created = k.created := by
  simp only [updateBpfMapPinned]
  split
  · exact ⟨rfl, rfl⟩
  · split
    · exact ⟨rfl, rfl⟩
    · exact ⟨Kernel.update_live k key sock _, Kernel.update_created k key sock _⟩

theorem create_attached {sock : Socket} {keyIndex : Int32} {o : Outcomes} {k : Kernel Socket}
    (attached : o.Attached) : createTcpServer sock keyIndex o k =
      (o.serverFd, (updateBpfMapPinned sock keyIndex.toUInt32 o (k.socket sock)).2) := by
  obtain ⟨opened, addr, port, bound, listening, found, attach⟩ := attached
  have notNegative : ¬ o.serverFd < 0 := (not_neg_iff _).mpr (Int32.le_of_lt opened)
  have notZero : ¬ o.serverFd = 0 := fun zero => Int32.lt_irrefl (zero ▸ opened)
  simp only [createTcpServer, if_neg notNegative, if_neg notZero, addr, port, attach, ne_eq,
    not_true_eq_false, if_false, if_neg ((not_neg_iff _).mpr bound),
    if_neg ((not_neg_iff _).mpr listening), if_neg ((not_neg_iff _).mpr found)]

theorem create_ready {sock : Socket} {keyIndex : Int32} {o : Outcomes} {k : Kernel Socket}
    (ready : 0 ≤ (createTcpServer sock keyIndex o k).1) : o.Attached := by
  have failed : ¬ (0 : Int32) ≤ -1 := by decide
  simp only [createTcpServer] at ready
  by_cases zero : o.serverFd = 0
  · simp [zero, failed] at ready
  by_cases addr : o.reuseAddr = 0
  swap; · simp [zero, addr, failed] at ready
  by_cases port : o.reusePort = 0
  swap; · simp [zero, addr, port, failed] at ready
  by_cases bound : o.bind < 0
  · simp [zero, addr, port, bound, failed] at ready
  by_cases listening : o.listen < 0
  · simp [zero, addr, port, bound, listening, failed] at ready
  by_cases found : o.progFd < 0
  · simp [zero, addr, port, bound, listening, found, failed] at ready
  by_cases attach : o.attach = 0
  swap; · simp [zero, addr, port, bound, listening, found, attach, failed] at ready
  simp only [zero, addr, port, bound, listening, found, attach, ne_eq, not_true_eq_false,
    if_false] at ready
  refine ⟨?_, addr, port, ?_, ?_, ?_, attach⟩
  · exact Int32.lt_of_le_of_ne ready (Ne.symm zero)
  · exact (not_neg_iff _).mp bound
  · exact (not_neg_iff _).mp listening
  · exact (not_neg_iff _).mp found

theorem create_servers {sock : Socket} {keyIndex : Int32} {o : Outcomes} {k : Kernel Socket}
    (attached : o.Attached) (key : Fin maxEntries) :
    (createTcpServer sock keyIndex o k).2.migServers key =
      if slotGiven keyIndex o = some key then some sock else k.migServers key := by
  have opened : sock ∈ (k.socket sock).live := List.mem_cons_self
  rw [create_attached attached]
  by_cases fits : keyIndex.toUInt32.toNat < maxEntries
  · by_cases updated : 0 ≤ o.mapFd ∧ o.updateRefused = false
    · rw [slotGiven, dif_pos fits, if_pos updated]
      simp only [update_effect opened fits updated.1 updated.2, Function.update_apply,
        Option.some.injEq, eq_comm, Kernel.socket_servers]
    · have failed : updateBpfMapPinned sock keyIndex.toUInt32 o (k.socket sock) =
          (-1, k.socket sock) := update_fails fun all => updated ⟨all.2.1, all.2.2.1⟩
      simp [slotGiven, fits, updated, failed]
  · have failed : updateBpfMapPinned sock keyIndex.toUInt32 o (k.socket sock) =
        (-1, k.socket sock) := update_fails fun all => fits all.1
    simp [slotGiven, fits, failed]

/-- Whatever fails, the socket is left as `socket()` made it or is closed. -/
theorem create_cases (sock : Socket) (keyIndex : Int32) (o : Outcomes) (k : Kernel Socket) :
    ∃ opened, opened = (if o.serverFd < 0 then k else k.socket sock) ∧
      (createTcpServer sock keyIndex o k = (-1, opened) ∨
        createTcpServer sock keyIndex o k = (-1, opened.close sock) ∨
        createTcpServer sock keyIndex o k =
          (o.serverFd, (updateBpfMapPinned sock keyIndex.toUInt32 o opened).2)) := by
  refine ⟨_, rfl, ?_⟩
  dsimp only [createTcpServer]
  by_cases zero : o.serverFd = 0
  · exact .inl (if_pos zero)
  rw [if_neg zero]
  by_cases addr : o.reuseAddr ≠ 0
  · exact .inr (.inl (if_pos addr))
  rw [if_neg addr]
  by_cases port : o.reusePort ≠ 0
  · exact .inr (.inl (if_pos port))
  rw [if_neg port]
  by_cases bound : o.bind < 0
  · exact .inr (.inl (if_pos bound))
  rw [if_neg bound]
  by_cases listening : o.listen < 0
  · exact .inr (.inl (if_pos listening))
  rw [if_neg listening]
  by_cases found : o.progFd < 0
  · exact .inl (if_pos found)
  rw [if_neg found]
  by_cases attach : o.attach ≠ 0
  · exact .inr (.inl (if_pos attach))
  rw [if_neg attach]
  exact .inr (.inr rfl)

theorem create_failed {sock : Socket} {keyIndex : Int32} {o : Outcomes} {k : Kernel Socket}
    (fresh : sock ∉ k.created) (failed : ¬ o.Attached) :
    (createTcpServer sock keyIndex o k).1 < 0 ∧
      (∀ key, (createTcpServer sock keyIndex o k).2.migServers key = k.migServers key) ∧
      Kernel.Beside sock k (createTcpServer sock keyIndex o k).2 := by
  have negative : (createTcpServer sock keyIndex o k).1 < 0 := by
    rw [← Int32.not_le]
    exact fun ready => failed (create_ready ready)
  refine ⟨negative, ?_⟩
  have unheld := Kernel.fresh_unheld fresh
  have closedServers : ∀ l : Kernel Socket, (∀ key, l.migServers key = k.migServers key) →
      ∀ key, (l.close sock).migServers key = k.migServers key := by
    intro l same key
    rw [Kernel.close_unheld (same key ▸ unheld key), same key]
  obtain ⟨opened, isOpened, result⟩ := create_cases sock keyIndex o k
  have openedServers : ∀ key, opened.migServers key = k.migServers key := by
    intro key
    rw [isOpened]
    split <;> rfl
  have openedBeside : Kernel.Beside sock k opened := by
    rw [isOpened]
    split
    · exact Kernel.beside_refl sock k
    · exact Kernel.beside_socket sock k
  rcases result with result | result | result
  · rw [result]
    exact ⟨openedServers, openedBeside⟩
  · rw [result]
    exact ⟨closedServers opened openedServers, Kernel.beside_close openedBeside⟩
  · rw [result] at negative ⊢
    have noSocket : opened = k := by rw [isOpened, if_pos negative]
    have absent : sock ∉ opened.live := noSocket ▸ fun member => fresh (k.liveCreated sock member)
    rw [update_fails fun all => absent all.2.2.2]
    exact ⟨openedServers, openedBeside⟩

theorem slot_given {keyIndex : Int32} {o : Outcomes} {key : Fin maxEntries} :
    slotGiven keyIndex o = some key ↔
      keyIndex.toUInt32.toNat = key ∧ 0 ≤ o.mapFd ∧ o.updateRefused = false := by
  unfold slotGiven
  by_cases fits : keyIndex.toUInt32.toNat < maxEntries
  · by_cases updated : 0 ≤ o.mapFd ∧ o.updateRefused = false
    · simp [fits, updated, Fin.ext_iff]
    · simp [fits, updated]
  · have elsewhere : keyIndex.toUInt32.toNat ≠ key := fun same => fits (same ▸ key.isLt)
    simp [fits, elsewhere]

theorem index_iff (keyIndex small : Int32) :
    keyIndex.toUInt32.toNat = small.toUInt32.toNat ↔ keyIndex = small := by
  obtain ⟨bits⟩ := keyIndex
  obtain ⟨smallBits⟩ := small
  rw [UInt32.toNat_inj, Int32.ofUInt32.injEq]

theorem ready_server_reachable (order : HostOrder) (sock : Socket) (keyIndex : Int32)
    (o : Outcomes) (k : Kernel Socket) (fresh : sock ∉ k.created)
    (ready : 0 ≤ (createTcpServer sock keyIndex o k).1) :
    Reachable order (createTcpServer sock keyIndex o k).2.migServers sock ↔
      (keyIndex = 0 ∨ keyIndex = 1) ∧ 0 ≤ o.mapFd ∧ o.updateRefused = false := by
  have held : ∀ key, (createTcpServer sock keyIndex o k).2.migServers key = some sock ↔
      slotGiven keyIndex o = some key := by
    intro key
    rw [create_servers (create_ready ready)]
    by_cases given : slotGiven keyIndex o = some key
    · simp [given]
    · simp [given, Kernel.fresh_unheld fresh key]
  rw [reachable_iff, held, held, slot_given, slot_given]
  have first : keyIndex.toUInt32.toNat = ((0 : Fin maxEntries) : Nat) ↔ keyIndex = 0 :=
    index_iff keyIndex 0
  have second : keyIndex.toUInt32.toNat = ((1 : Fin maxEntries) : Nat) ↔ keyIndex = 1 :=
    index_iff keyIndex 1
  rw [first, second]
  tauto

def succeeding : Outcomes := ⟨3, 0, 0, 0, 0, 4, 0, 5, false⟩

theorem ready_server_reachable_first :
    Reachable .littleEndian (createTcpServer 7 0 succeeding Kernel.empty).2.migServers 7 ∧
      ¬ Reachable .littleEndian
        (createTcpServer 7 128 succeeding Kernel.empty).2.migServers 7 := by
  constructor
  · apply (ready_server_reachable .littleEndian 7 0 succeeding Kernel.empty (by simp [Kernel.empty])
      (by decide)).mpr
    decide
  · rw [ready_server_reachable .littleEndian 7 128 succeeding Kernel.empty (by simp [Kernel.empty])
      (by decide)]
    decide

/-- A server for index 2 is ready although every call succeeded, and no port leads to it. -/
theorem ready_server_unreachable : ¬ ∀ (order : HostOrder) (sock : Nat) (keyIndex : Int32)
    (o : Outcomes) (k : Kernel Nat), sock ∉ k.created →
      0 ≤ (createTcpServer sock keyIndex o k).1 →
      Reachable order (createTcpServer sock keyIndex o k).2.migServers sock := by
  intro reachable
  have chosen := reachable .littleEndian 7 2 succeeding Kernel.empty (by simp [Kernel.empty])
    (by decide)
  have elsewhere := reachable_iff.mp chosen
  exact absurd elsewhere (by decide)

end ReusePort
