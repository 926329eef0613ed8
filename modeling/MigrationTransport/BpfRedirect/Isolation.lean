import MigrationTransport.BpfRedirect.Sockmap

/-!
Whom the redirect serves: each port has one slot, so of all sessions only the one whose
sockets were established last on both ports is redirected to itself.
-/
namespace Isolation
open Sockmap

structure Sessions where
  proxySocket : Nat → Socket
  serverSocket : Nat → Socket
  proxied : ∀ i, (proxySocket i).localPort = proxyPort
  served : ∀ i, (serverSocket i).localPort = serverPort
  proxyDistinct : Function.Injective proxySocket
  serverDistinct : Function.Injective serverSocket

def noteLatest (port : UInt32) (latest : Option Socket) : Event → Option Socket
  | .sockOps .passiveEstablished sock err =>
    if sock.localPort = port ∧ err = 0 then some sock else latest
  | _ => latest

def latestOn (port : UInt32) (events : List Event) : Option Socket :=
  events.foldl (noteLatest port) none

def stillOpen (opened : List Socket) (latest : Option Socket) : Option Socket :=
  latest.filter (· ∈ opened)

structure Tracks (latest : Option Socket × Option Socket) (k : Kernel) : Prop where
  proxySlot : k.sockmap 1 = stillOpen k.opened latest.1
  serverSlot : k.sockmap 2 = stillOpen k.opened latest.2
  otherSlots : ∀ key, key ≠ 1 → key ≠ 2 → k.sockmap key = none
  proxyLatest : ∀ sock, latest.1 = some sock → sock.localPort = proxyPort ∧ sock ∈ k.established
  serverLatest : ∀ sock, latest.2 = some sock →
    sock.localPort = serverPort ∧ sock ∈ k.established

def noteBoth (latest : Option Socket × Option Socket) (e : Event) :
    Option Socket × Option Socket :=
  (noteLatest proxyPort latest.1 e, noteLatest serverPort latest.2 e)

theorem fold_both (events : List Event) (first second : Option Socket) :
    events.foldl noteBoth (first, second) =
      (events.foldl (noteLatest proxyPort) first, events.foldl (noteLatest serverPort) second) := by
  induction events generalizing first second with
  | nil => rfl
  | cons e events ih => exact ih _ _

theorem stillOpen_some {opened : List Socket} {latest : Option Socket} {sock : Socket} :
    stillOpen opened latest = some sock ↔ latest = some sock ∧ sock ∈ opened := by
  simp [stillOpen, Option.filter_eq_some_iff]

theorem stillOpen_new (opened : List Socket) (sock : Socket) :
    stillOpen (sock :: opened) (some sock) = some sock := by
  simp [stillOpen_some]

theorem stillOpen_established (opened : List Socket) {sock : Socket} {latest : Option Socket}
    (other : latest ≠ some sock) : stillOpen (sock :: opened) latest = stillOpen opened latest := by
  ext held
  rw [stillOpen_some, stillOpen_some, List.mem_cons]
  constructor
  · rintro ⟨rfl, rfl | opened⟩
    · exact absurd rfl other
    · exact ⟨rfl, opened⟩
  · rintro ⟨rfl, opened⟩
    exact ⟨rfl, .inr opened⟩

theorem stillOpen_closed (opened : List Socket) (sock : Socket) (latest : Option Socket) :
    stillOpen (opened.filter (· ≠ sock)) latest = (stillOpen opened latest).filter (· ≠ sock) := by
  ext held
  simp only [stillOpen_some, Option.filter_eq_some_iff, List.mem_filter]
  tauto

theorem closed_tracks {latest : Option Socket × Option Socket} {k : Kernel} (sock : Socket)
    (tracks : Tracks latest k) : Tracks latest { k with
      sockmap := fun key => (k.sockmap key).filter (· ≠ sock)
      opened := k.opened.filter (· ≠ sock) } := by
  obtain ⟨proxySlot, serverSlot, otherSlots, proxyLatest, serverLatest⟩ := tracks
  refine ⟨?_, ?_, ?_, proxyLatest, serverLatest⟩
  · rw [stillOpen_closed, ← proxySlot]
  · rw [stillOpen_closed, ← serverSlot]
  · intro key notProxy notServer
    simp [otherSlots key notProxy notServer]

theorem ports_differ : proxyPort ≠ serverPort := by decide

section Established
variable {latest : Option Socket × Option Socket} {k : Kernel} {sock : Socket}

def withSocket (k : Kernel) (sock : Socket) (sockmap : Slots) : Kernel where
  sockmap := sockmap
  established := sock :: k.established
  opened := sock :: k.opened

theorem unmapped_tracks (fresh : sock ∉ k.established) (tracks : Tracks latest k) :
    Tracks latest (withSocket k sock k.sockmap) := by
  have notProxy : latest.1 ≠ some sock := fun same => fresh (tracks.proxyLatest sock same).2
  have notServer : latest.2 ≠ some sock := fun same => fresh (tracks.serverLatest sock same).2
  refine ⟨?_, ?_, tracks.otherSlots, ?_, ?_⟩
  · exact tracks.proxySlot.trans (stillOpen_established k.opened notProxy).symm
  · exact tracks.serverSlot.trans (stillOpen_established k.opened notServer).symm
  · intro held last
    obtain ⟨port, known⟩ := tracks.proxyLatest held last
    exact ⟨port, List.mem_cons_of_mem sock known⟩
  · intro held last
    obtain ⟨port, known⟩ := tracks.serverLatest held last
    exact ⟨port, List.mem_cons_of_mem sock known⟩

theorem proxied_tracks (fresh : sock ∉ k.established) (proxied : sock.localPort = proxyPort)
    (tracks : Tracks latest k) : Tracks (some sock, latest.2)
      (withSocket k sock (Function.update k.sockmap 1 (some sock))) := by
  have others := unmapped_tracks fresh tracks
  have taken : Function.update k.sockmap 1 (some sock) 1 = some sock := Function.update_self ..
  have kept {key : Fin maxEntries} (other : key ≠ 1) :
      Function.update k.sockmap 1 (some sock) key = k.sockmap key := Function.update_of_ne other ..
  refine ⟨?_, ?_, ?_, ?_, others.serverLatest⟩
  · exact taken.trans (stillOpen_new k.opened sock).symm
  · exact (kept (by decide)).trans others.serverSlot
  · intro key notProxy notServer
    exact (kept notProxy).trans (others.otherSlots key notProxy notServer)
  · rintro held ⟨⟩
    exact ⟨proxied, List.mem_cons_self⟩

theorem served_tracks (fresh : sock ∉ k.established) (served : sock.localPort = serverPort)
    (tracks : Tracks latest k) : Tracks (latest.1, some sock)
      (withSocket k sock (Function.update k.sockmap 2 (some sock))) := by
  have others := unmapped_tracks fresh tracks
  have taken : Function.update k.sockmap 2 (some sock) 2 = some sock := Function.update_self ..
  have kept {key : Fin maxEntries} (other : key ≠ 2) :
      Function.update k.sockmap 2 (some sock) key = k.sockmap key := Function.update_of_ne other ..
  refine ⟨?_, ?_, ?_, others.proxyLatest, ?_⟩
  · exact (kept (by decide)).trans others.proxySlot
  · exact taken.trans (stillOpen_new k.opened sock).symm
  · intro key notProxy notServer
    exact (kept notServer).trans (others.otherSlots key notProxy notServer)
  · rintro held ⟨⟩
    exact ⟨served, List.mem_cons_self⟩

theorem established_tracks (err : UInt32) (fresh : sock ∉ k.established)
    (tracks : Tracks latest k) :
    Tracks (noteBoth latest (.sockOps .passiveEstablished sock err))
      (withSocket k sock (sockopsProg k.sockmap .passiveEstablished sock err)) := by
  have differ := ports_differ
  simp only [noteBoth, noteLatest, sockopsProg, sockMapUpdate]
  by_cases done : err = 0
  · by_cases proxied : sock.localPort = proxyPort
    · simpa [done, proxied, differ] using proxied_tracks fresh proxied tracks
    · by_cases served : sock.localPort = serverPort
      · simpa [done, served, differ.symm] using served_tracks fresh served tracks
      · simpa [proxied, served] using unmapped_tracks fresh tracks
  · simpa [done] using unmapped_tracks fresh tracks

end Established

theorem step_tracks {latest : Option Socket × Option Socket} {k l : Kernel} {e : Event}
    (tracks : Tracks latest k) (stepped : step k e = some l) : Tracks (noteBoth latest e) l := by
  cases e with
  | sockOps op sock err =>
    cases op with
    | passiveEstablished =>
      simp only [step, Option.ite_none_left_eq_some, Option.some.injEq] at stepped
      obtain ⟨fresh, rfl⟩ := stepped
      exact established_tracks err fresh tracks
    | other op =>
      simp only [step, Option.some.injEq] at stepped
      subst stepped
      exact tracks
  | closed sock =>
    simp only [step, Option.ite_none_right_eq_some, Option.some.injEq] at stepped
    obtain ⟨-, rfl⟩ := stepped
    exact closed_tracks sock tracks
  | packet sock =>
    simp only [step, Option.ite_none_right_eq_some, Option.some.injEq] at stepped
    obtain ⟨-, rfl⟩ := stepped
    exact tracks

theorem run_tracks {events : List Event} {k : Kernel}
    (reached : Runs.run step init events = some k) :
    Tracks (latestOn proxyPort events, latestOn serverPort events) k := by
  have start : Tracks (none, none) init := by
    constructor <;> simp [init, stillOpen]
  have tracks := Runs.invariant_fold noteBoth Tracks
    (fun _ _ _ _ tracks stepped => step_tracks tracks stepped) start reached
  rwa [fold_both] at tracks

/-- Where a packet goes that the program redirects to the slot of a port. -/
def towardsLatest (opened : List Socket) (latest : Option Socket) (ingress : Bool) : Verdict :=
  match stillOpen opened latest with
  | some target => .redirect target ingress
  | none => .drop

theorem redirect_towardsLatest {m : Slots} {key : Fin maxEntries} {opened : List Socket}
    {latest : Option Socket} (slot : m key = stillOpen opened latest) (ingress : Bool) :
    skRedirectMap m key ingress = towardsLatest opened latest ingress := by
  cases held : stillOpen opened latest <;> simp [skRedirectMap, towardsLatest, slot, held]

theorem in_map {latest : Option Socket × Option Socket} {k : Kernel} {sock : Socket}
    (tracks : Tracks latest k) : (∃ key, k.sockmap key = some sock) ↔
      (latest.1 = some sock ∨ latest.2 = some sock) ∧ sock ∈ k.opened := by
  constructor
  · rintro ⟨key, held⟩
    by_cases first : key = 1
    · rw [first, tracks.proxySlot, stillOpen_some] at held
      exact ⟨.inl held.1, held.2⟩
    · by_cases second : key = 2
      · rw [second, tracks.serverSlot, stillOpen_some] at held
        exact ⟨.inr held.1, held.2⟩
      · simp [tracks.otherSlots key first second] at held
  · rintro ⟨last | last, opened⟩
    · exact ⟨1, tracks.proxySlot.trans (stillOpen_some.mpr ⟨last, opened⟩)⟩
    · exact ⟨2, tracks.serverSlot.trans (stillOpen_some.mpr ⟨last, opened⟩)⟩

theorem proxied_arrives {latest : Option Socket × Option Socket} {k : Kernel} {sock : Socket}
    (tracks : Tracks latest k) (proxied : sock.localPort = proxyPort) (opened : sock ∈ k.opened) :
    packetArrives k.sockmap sock =
      if latest.1 = some sock then some (towardsLatest k.opened latest.2 true) else none := by
  have elsewhere : latest.2 ≠ some sock := fun last =>
    ports_differ (proxied.symm.trans (tracks.serverLatest sock last).1)
  by_cases last : latest.1 = some sock
  · rw [packetArrives, if_pos ((in_map tracks).mpr ⟨.inl last, opened⟩), if_pos last]
    simp only [skSkbStreamVerdictProg, proxied, if_true, redirect_towardsLatest tracks.serverSlot]
  · rw [packetArrives, if_neg, if_neg last]
    intro held
    exact ((in_map tracks).mp held).1.elim last elsewhere

theorem served_arrives {latest : Option Socket × Option Socket} {k : Kernel} {sock : Socket}
    (tracks : Tracks latest k) (served : sock.localPort = serverPort) (opened : sock ∈ k.opened) :
    packetArrives k.sockmap sock =
      if latest.2 = some sock then some (towardsLatest k.opened latest.1 false) else none := by
  have elsewhere : latest.1 ≠ some sock := fun last =>
    ports_differ ((tracks.proxyLatest sock last).1.symm.trans served)
  by_cases last : latest.2 = some sock
  · rw [packetArrives, if_pos ((in_map tracks).mpr ⟨.inr last, opened⟩), if_pos last]
    simp only [skSkbStreamVerdictProg, served, ports_differ.symm, if_false, if_true,
      redirect_towardsLatest tracks.proxySlot]
  · rw [packetArrives, if_neg, if_neg last]
    intro held
    exact ((in_map tracks).mp held).1.elim elsewhere last

theorem latest_session_redirected (sessions : Sessions) {events : List Event} {k : Kernel}
    (reached : Runs.run step init events = some k) (i : Nat)
    (proxyOpen : sessions.proxySocket i ∈ k.opened)
    (serverOpen : sessions.serverSocket i ∈ k.opened) :
    (latestOn proxyPort events = some (sessions.proxySocket i) →
      latestOn serverPort events = some (sessions.serverSocket i) →
      packetArrives k.sockmap (sessions.proxySocket i) =
          some (.redirect (sessions.serverSocket i) true) ∧
        packetArrives k.sockmap (sessions.serverSocket i) =
          some (.redirect (sessions.proxySocket i) false)) ∧
    packetArrives k.sockmap (sessions.proxySocket i) =
      (if latestOn proxyPort events = some (sessions.proxySocket i) then
        some (towardsLatest k.opened (latestOn serverPort events) true) else none) ∧
    packetArrives k.sockmap (sessions.serverSocket i) =
      (if latestOn serverPort events = some (sessions.serverSocket i) then
        some (towardsLatest k.opened (latestOn proxyPort events) false) else none) := by
  have tracks := run_tracks reached
  have fromProxy := proxied_arrives tracks (sessions.proxied i) proxyOpen
  have fromServer := served_arrives tracks (sessions.served i) serverOpen
  refine ⟨?_, fromProxy, fromServer⟩
  intro proxyLast serverLast
  rw [fromProxy, fromServer]
  simp only [proxyLast, serverLast, if_true, towardsLatest, stillOpen_some.mpr ⟨rfl, proxyOpen⟩,
    stillOpen_some.mpr ⟨rfl, serverOpen⟩, and_self]

def numbered : Sessions where
  proxySocket i := ⟨i, proxyPort⟩
  serverSocket i := ⟨i, serverPort⟩
  proxied _ := rfl
  served _ := rfl
  proxyDistinct _ _ same := by injection same
  serverDistinct _ _ same := by injection same

def establish (sock : Socket) : Event := .sockOps .passiveEstablished sock 0

theorem latest_session_redirected_second : ∃ k,
    Runs.run step init [establish ⟨0, proxyPort⟩, establish ⟨0, serverPort⟩,
      establish ⟨1, proxyPort⟩, establish ⟨1, serverPort⟩] = some k ∧
      packetArrives k.sockmap ⟨1, proxyPort⟩ = some (.redirect ⟨1, serverPort⟩ true) ∧
      packetArrives k.sockmap ⟨1, serverPort⟩ = some (.redirect ⟨1, proxyPort⟩ false) := by
  obtain ⟨k, reached, proxyOpen, serverOpen⟩ : ∃ k,
      Runs.run step init [establish ⟨0, proxyPort⟩, establish ⟨0, serverPort⟩,
        establish ⟨1, proxyPort⟩, establish ⟨1, serverPort⟩] = some k ∧
        ⟨1, proxyPort⟩ ∈ k.opened ∧ ⟨1, serverPort⟩ ∈ k.opened := Runs.reaches (by decide)
  have ours := (latest_session_redirected numbered reached 1 proxyOpen serverOpen).1
    (by decide) (by decide)
  exact ⟨k, reached, ours⟩

/-- The packets of the first session reach the server socket of the second. -/
theorem first_session_leaks : ¬ ∀ (sessions : Sessions) (events : List Event) (k : Kernel)
    (i : Nat), Runs.run step init events = some k → sessions.proxySocket i ∈ k.opened →
      sessions.serverSocket i ∈ k.opened →
      packetArrives k.sockmap (sessions.proxySocket i) =
          some (.redirect (sessions.serverSocket i) true) ∧
        packetArrives k.sockmap (sessions.serverSocket i) =
          some (.redirect (sessions.proxySocket i) false) := by
  intro isolated
  obtain ⟨k, reached, proxyOpen, serverOpen, leak⟩ : ∃ k,
      Runs.run step init [establish ⟨0, proxyPort⟩, establish ⟨0, serverPort⟩,
        establish ⟨1, serverPort⟩] = some k ∧ ⟨0, proxyPort⟩ ∈ k.opened ∧
        ⟨0, serverPort⟩ ∈ k.opened ∧
        packetArrives k.sockmap ⟨0, proxyPort⟩ = some (.redirect ⟨1, serverPort⟩ true) :=
    Runs.reaches (by decide)
  have own := (isolated numbered _ k 0 reached proxyOpen serverOpen).1
  rw [show numbered.proxySocket 0 = ⟨0, proxyPort⟩ from rfl, leak] at own
  exact absurd own (by decide)

end Isolation
