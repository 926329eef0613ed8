import MigrationTransport.Lib.Runs
import MigrationTransport.ReusePort.Selector
import MigrationTransport.ReusePort.ServeLoop

/-!
Any number of `tcp-server` processes on one port, and the kernel that spreads connections over
them: by a hash until one of them has attached the selector, then by the selector, as long as a
server is left that listens. The calls of all processes interleave, so a server may register
between two calls of another one's start, and a process may be killed at any of its calls.
-/
namespace Deployment
open ReusePort Descriptors ServeLoop
variable {Socket Conn : Type}

/-- A process is named by the socket that it creates. `keyIndex` is its argument, `inherited`
    its first descriptor table, and `syn` the packet that a connection begins with. -/
structure Setup (Socket Conn : Type) where
  order : HostOrder
  keyIndex : Socket → Int32
  inherited : Socket → Table (Object Conn)
  syn : Conn → Packet

/-- A connection, the socket that it was passed to, and whether the selector chose that. -/
structure Passed (Socket Conn : Type) where
  conn : Conn
  sock : Socket
  bySelector : Bool
  deriving DecidableEq

/-- `attached` says that the sockets which listen on the port have the selector. -/
structure System (Socket Conn : Type) where
  kernel : Kernel Socket
  processes : Socket → Process Conn
  attached : Bool
  routed : List (Passed Socket Conn)

/-- `hashes` is a connection that the kernel passes without the selector. -/
inductive Act (Socket Conn : Type) where
  | process (sock : Socket) (a : ServeLoop.Act Conn)
  | connects (c : Conn)
  | hashes (c : Conn) (sock : Socket)
  deriving DecidableEq

def init (setup : Setup Socket Conn) : System Socket Conn where
  kernel := .empty
  processes sock := ServeLoop.init (setup.inherited sock)
  attached := false
  routed := []

variable [DecidableEq Socket]

/-- What a call does to the kernel, from the call that it was and the one that comes next. -/
def touch (setup : Setup Socket Conn) (k : Kernel Socket) (sock : Socket) :
    Pc Conn → ServeLoop.Act Conn → Pc Conn → Option (Kernel Socket)
  | .socket, .works, .exited => some ((k.socket sock).close sock)
  | .socket, .works, _ => some (k.socket sock)
  | .updateElem _ _, .works, _ =>
    match k.bpfMapUpdateElem (setup.keyIndex sock).toUInt32 sock false with
    | (result, updated) => if result = 0 then some updated else none
  | _, _, .exited => some (k.close sock)
  | _, _, _ => some k

def attaches : Pc Conn → ServeLoop.Act Conn → Bool
  | .attach _ _, .works => true
  | _, _ => false

/-- The selector goes with the last of the sockets that listen. -/
def someListen (k : Kernel Socket) (processes : Socket → Process Conn) : Bool :=
  k.live.any fun sock => listening (processes sock).pc

def pass (s : System Socket Conn) (c : Conn) (sock : Socket) (bySelector : Bool) :
    Option (System Socket Conn) :=
  (ServeLoop.step (s.processes sock) (.arrives c)).map fun q =>
    { s with
      processes := Function.update s.processes sock q
      routed := s.routed ++ [⟨c, sock, bySelector⟩] }

def step (setup : Setup Socket Conn) (s : System Socket Conn) :
    Act Socket Conn → Option (System Socket Conn)
  | .process _ (.arrives _) => none
  | .process sock a =>
    (ServeLoop.step (s.processes sock) a).bind fun q =>
      (touch setup s.kernel sock (s.processes sock).pc a q.pc).map fun k =>
        let processes := Function.update s.processes sock q
        { s with
          kernel := k
          processes := processes
          attached := (s.attached || attaches (s.processes sock).pc a) && someListen k processes }
  | .connects c =>
    if s.attached then
      match hotStandbySelector setup.order s.kernel.migServers (setup.syn c) with
      | (.pass, some sock) => pass s c sock true
      | _ => some s
    else none
  | .hashes c sock => if s.attached then none else pass s c sock false

/-- The process has put its socket into the map: it is in its accept loop, or about to be. -/
def registered : Pc Conn → Bool
  | .closeMap _ _ | .accept _ | .read _ _ _ | .send _ _ _ => true
  | _ => false

def hasAttached : Pc Conn → Bool
  | .closeProgram _ _ | .getMap _ | .lookupElem _ _ | .updateElem _ _ => true
  | pc => registered pc

def passedTo (routed : List (Passed Socket Conn)) (sock : Socket) : List Conn :=
  (routed.filter (·.sock = sock)).map Passed.conn

variable {setup : Setup Socket Conn} {s t : System Socket Conn} {sock : Socket}
  {acts : List (Act Socket Conn)}

/-- What holds of every process, of the map that the selector reads, and of the selector. -/
structure Sound (setup : Setup Socket Conn) (s : System Socket Conn) : Prop where
  tidy : ∀ sock, Tidy (setup.inherited sock) (s.processes sock) ∨ Ended (s.processes sock)
  held : ∀ key sock, s.kernel.migServers key = some sock →
    registered (s.processes sock).pc = true ∧ (setup.keyIndex sock).toUInt32.toNat = key.val
  live : ∀ sock, opened (s.processes sock).pc ≠ [] → sock ∈ s.kernel.live
  attached : ∀ sock, hasAttached (s.processes sock).pc = true → s.attached = true
  arrived : ∀ sock, (s.processes sock).arrived = passedTo s.routed sock
  parity : ∀ r ∈ s.routed, r.bySelector = true → (setup.syn r.conn).HasTcpHeader ∧
    (setup.keyIndex r.sock).toUInt32.toNat = sourcePort (setup.syn r.conn).data % 2

theorem init_sound (setup : Setup Socket Conn) : Sound setup (init setup) where
  tidy sock := .inl (init_tidy (setup.inherited sock))
  held := by simp [init, Kernel.empty]
  live := by simp [init, ServeLoop.init, opened]
  attached := by simp [init, ServeLoop.init, hasAttached, registered]
  arrived := by simp [init, ServeLoop.init, passedTo]
  parity := by simp [init]

theorem attached_listening {pc : Pc Conn} (attached : hasAttached pc = true) :
    listening pc = true ∧ opened pc ≠ [] := by
  cases pc <;> simp_all [hasAttached, registered, listening, opened]

/-- What a process is past it stays past until its end, and only connections arrive. -/
structure Moves (p q : Process Conn) (a : ServeLoop.Act Conn) : Prop where
  arrived : q.arrived = p.arrived
  stays : registered p.pc = true → q.pc ≠ .exited → registered q.pc = true
  registers : ∀ fd map, p.pc = .updateElem fd map → a = .works → registered q.pc = true
  attaches : hasAttached q.pc = true → hasAttached p.pc = true ∨ attaches p.pc a = true
  opens : opened q.pc ≠ [] → q.pc ≠ .exited ∧ (opened p.pc ≠ [] ∨ p.pc = .socket ∧ a = .works)

theorem process_moves {p q : Process Conn} {a : ServeLoop.Act Conn}
    (stepped : ServeLoop.step p a = some q) (own : ∀ c, a ≠ .arrives c) : Moves p q a := by
  cases a with
  | works =>
    simp only [ServeLoop.step, works] at stepped
    split at stepped
    case h_1 | h_14 =>
      split at stepped <;> cases stepped <;> constructor <;>
        simp_all [exits, registered, hasAttached, attaches, opened]
    all_goals
      cases stepped <;> constructor <;>
        simp_all [closeClient, closeProgram, closeMap, registered, hasAttached, attaches, opened]
  | fails =>
    simp only [ServeLoop.step, fails] at stepped
    split at stepped <;> cases stepped <;> constructor <;>
      simp_all [exits, closeClient, closeProgram, closeMap, registered, hasAttached, opened]
  | killed =>
    simp only [ServeLoop.step] at stepped
    split at stepped <;> cases stepped
    constructor <;> simp [exits, hasAttached, registered, opened]
  | arrives c => exact absurd rfl (own c)

/-- Only what ends is taken out of the kernel's list. -/
theorem touch_live {k l : Kernel Socket} {before after : Pc Conn} {a : ServeLoop.Act Conn}
    (touched : touch setup k sock before a after = some l) {other : Socket}
    (kept : other ∈ k.live ∧ (other ≠ sock ∨ after ≠ .exited) ∨
      other = sock ∧ before = .socket ∧ a = .works ∧ after ≠ .exited) : other ∈ l.live := by
  rw [touch.eq_def] at touched
  split at touched
  case h_1 =>
    cases touched
    rcases kept with ⟨member, different | running⟩ | ⟨-, -, -, running⟩
    · simp [Kernel.close, Kernel.socket, member, different]
    · exact absurd rfl running
    · exact absurd rfl running
  case h_2 =>
    cases touched
    rcases kept with ⟨member, -⟩ | ⟨rfl, -⟩ <;> simp [Kernel.socket, *]
  case h_3 =>
    split at touched
    rename_i result updated ran
    obtain ⟨-, rfl⟩ : result = 0 ∧ updated = l := by simpa using touched
    have same : updated.live = k.live := by
      rw [← Kernel.update_live k (setup.keyIndex sock).toUInt32 sock false, ran]
    rcases kept with ⟨member, -⟩ | ⟨-, before, -⟩
    · exact same ▸ member
    · cases before
  case h_4 =>
    cases touched
    rcases kept with ⟨member, different | running⟩ | ⟨-, -, -, running⟩
    · simp [Kernel.close, member, different]
    · exact absurd rfl running
    · exact absurd rfl running
  case h_5 =>
    cases touched
    rcases kept with ⟨member, -⟩ | ⟨-, rfl, rfl, -⟩
    · exact member
    · simp_all

theorem update_servers {k l : Kernel Socket} {key : UInt32} {sock : Socket}
    (updated : k.bpfMapUpdateElem key sock false = (0, l)) (slot : Fin maxEntries) :
    l.migServers slot = if slot.val = key.toNat then some sock else k.migServers slot := by
  by_cases possible : key.toNat < maxEntries ∧ sock ∈ k.live
  · have servers := (Kernel.update_accepted possible.1 possible.2).2
    rw [updated] at servers
    rw [servers]
    by_cases same : slot.val = key.toNat
    · have here : slot = ⟨key.toNat, possible.1⟩ := Fin.ext same
      rw [if_pos same, here, Function.update_self]
    · rw [if_neg same, Function.update_of_ne]
      intro here
      exact same (by rw [here])
  · have refused : k.bpfMapUpdateElem key sock false = (-1, k) :=
      Kernel.update_refused (by tauto)
    rw [refused] at updated
    cases updated

/-- What a call may do to a slot: the process that registers gets it, and one that ends loses it. -/
theorem touch_servers {k l : Kernel Socket} {before after : Pc Conn} {a : ServeLoop.Act Conn}
    (touched : touch setup k sock before a after = some l) {slot : Fin maxEntries} {other : Socket}
    (held : l.migServers slot = some other) :
    other ≠ sock ∧ k.migServers slot = some other ∨
      other = sock ∧ ((∃ fd map, before = .updateElem fd map ∧ a = .works ∧
        (slot.val = (setup.keyIndex sock).toUInt32.toNat ∨ k.migServers slot = some sock)) ∨
        after ≠ .exited ∧ k.migServers slot = some sock) := by
  have closed : ∀ m : Kernel Socket, (m.close sock).migServers slot = some other →
      other ≠ sock ∧ m.migServers slot = some other := by
    intro m kept
    rw [Kernel.close_servers, Option.filter_eq_some_iff] at kept
    simpa [and_comm] using kept
  rw [touch.eq_def] at touched
  split at touched
  case h_1 =>
    cases touched
    exact .inl (closed _ held)
  case h_3 =>
    split at touched
    rename_i result updated ran
    obtain ⟨rfl, rfl⟩ : result = 0 ∧ updated = l := by simpa using touched
    rw [update_servers ran] at held
    by_cases here : slot.val = (setup.keyIndex sock).toUInt32.toNat
    · rw [if_pos here, Option.some.injEq] at held
      exact .inr ⟨held.symm, .inl ⟨_, _, rfl, rfl, .inl here⟩⟩
    · rw [if_neg here] at held
      by_cases same : other = sock
      · subst same
        exact .inr ⟨rfl, .inl ⟨_, _, rfl, rfl, .inr held⟩⟩
      · exact .inl ⟨same, held⟩
  case h_4 =>
    cases touched
    exact .inl (closed _ held)
  all_goals
    cases touched
    by_cases same : other = sock
    · subst same
      exact .inr ⟨rfl, .inr ⟨by assumption, held⟩⟩
    · exact .inl ⟨same, held⟩

theorem passedTo_append (routed : List (Passed Socket Conn)) (c : Conn) (sock other : Socket)
    (bySelector : Bool) :
    passedTo (routed ++ [⟨c, sock, bySelector⟩]) other =
      if sock = other then passedTo routed other ++ [c] else passedTo routed other := by
  by_cases same : sock = other <;> simp [passedTo, same]

theorem moved_tidy {p : Process Conn} {a : ServeLoop.Act Conn}
    (tidy : ∀ sock, Tidy (setup.inherited sock) (s.processes sock) ∨ Ended (s.processes sock))
    (stepped : ServeLoop.step (s.processes sock) a = some p) (other : Socket) :
    Tidy (setup.inherited other) (Function.update s.processes sock p other) ∨
      Ended (Function.update s.processes sock p other) := by
  by_cases here : other = sock
  · subst here
    rw [Function.update_self]
    rcases tidy other with before | ended
    · exact step_tidy before stepped
    · rw [ended_stays ended] at stepped
      cases stepped
  · rw [Function.update_of_ne here]
    exact tidy other

theorem process_sound {p : Process Conn} {k : Kernel Socket} {a : ServeLoop.Act Conn}
    (sound : Sound setup s) (own : ∀ c, a ≠ .arrives c)
    (stepped : ServeLoop.step (s.processes sock) a = some p)
    (touched : touch setup s.kernel sock (s.processes sock).pc a p.pc = some k) :
    Sound setup { s with
      kernel := k
      processes := Function.update s.processes sock p
      attached := (s.attached || attaches (s.processes sock).pc a) &&
        someListen k (Function.update s.processes sock p) } := by
  obtain ⟨tidy, held, live, attached, arrived, parity⟩ := sound
  have moves := process_moves stepped own
  have lives : ∀ other, opened (Function.update s.processes sock p other).pc ≠ [] →
      other ∈ k.live := by
    intro other more
    apply touch_live touched
    by_cases here : other = sock
    · subst here
      rw [Function.update_self] at more
      obtain ⟨running, before | ⟨before, worked⟩⟩ := moves.opens more
      · exact .inl ⟨live other before, .inr running⟩
      · exact .inr ⟨rfl, before, worked, running⟩
    · rw [Function.update_of_ne here] at more
      exact .inl ⟨live other more, .inl here⟩
  refine ⟨moved_tidy tidy stepped, fun slot other found => ?_, lives, fun other has => ?_,
    fun other => ?_, parity⟩
  · dsimp only at found ⊢
    rcases touch_servers touched found with ⟨different, old⟩ | ⟨rfl, now⟩
    · rw [Function.update_of_ne different]
      exact held slot other old
    · rw [Function.update_self]
      rcases now with ⟨fd, map, before, worked, key | old⟩ | ⟨alive, old⟩
      · exact ⟨moves.registers fd map before worked, key.symm⟩
      · have serves := (held slot other old).1
        simp [before, registered] at serves
      · obtain ⟨serves, key⟩ := held slot other old
        exact ⟨moves.stays serves alive, key⟩
  · dsimp only at has ⊢
    obtain ⟨listens, more⟩ := attached_listening has
    have some : someListen k (Function.update s.processes sock p) = true :=
      List.any_eq_true.mpr ⟨other, lives other more, listens⟩
    rw [some, Bool.and_true, Bool.or_eq_true]
    by_cases here : other = sock
    · subst here
      rw [Function.update_self] at has
      exact (moves.attaches has).imp_left (attached other)
    · rw [Function.update_of_ne here] at has
      exact .inl (attached other has)
  · dsimp only
    by_cases here : other = sock
    · subst here
      rw [Function.update_self, moves.arrived]
      exact arrived other
    · rw [Function.update_of_ne here]
      exact arrived other

/-- A connection in a backlog changes nothing that the selector or the kernel goes by. -/
theorem pass_sound {c : Conn} {bySelector : Bool} (sound : Sound setup s)
    (chosen : bySelector = true → (setup.syn c).HasTcpHeader ∧
      (setup.keyIndex sock).toUInt32.toNat = sourcePort (setup.syn c).data % 2)
    (passed : pass s c sock bySelector = some t) : Sound setup t := by
  obtain ⟨p, stepped, rfl⟩ := Option.map_eq_some_iff.mp passed
  obtain ⟨tidy, held, live, attached, arrived, parity⟩ := sound
  obtain ⟨-, same⟩ := Option.ite_none_right_eq_some.mp stepped
  have pc : ∀ other, (Function.update s.processes sock p other).pc = (s.processes other).pc := by
    intro other
    by_cases here : other = sock
    · subst here
      cases same
      rw [Function.update_self]
    · rw [Function.update_of_ne here]
  refine ⟨moved_tidy tidy stepped, fun slot other found => ?_, fun other more => ?_,
    fun other has => ?_, fun other => ?_, fun r member => ?_⟩
  · rw [pc]
    exact held slot other found
  · rw [pc] at more
    exact live other more
  · rw [pc] at has
    exact attached other has
  · dsimp only
    rw [passedTo_append]
    by_cases here : other = sock
    · subst here
      cases same
      rw [Function.update_self, if_pos rfl, ← arrived other]
    · rw [Function.update_of_ne here, if_neg (Ne.symm here)]
      exact arrived other
  · rcases List.mem_append.mp member with old | new
    · exact parity r old
    · cases List.mem_singleton.mp new
      exact chosen

theorem selected_parity {c : Conn} (sound : Sound setup s)
    (selected : hotStandbySelector setup.order s.kernel.migServers (setup.syn c) =
      (.pass, some sock)) :
    (setup.syn c).HasTcpHeader ∧
      (setup.keyIndex sock).toUInt32.toNat = sourcePort (setup.syn c).data % 2 := by
  rw [selector_routes] at selected
  split at selected
  · rename_i header
    exact ⟨header, (sound.held _ _ (towards_pass.mp selected)).2⟩
  · cases selected

theorem step_sound {act : Act Socket Conn} (sound : Sound setup s)
    (stepped : step setup s act = some t) : Sound setup t := by
  cases act with
  | process sock a =>
    have own : ∀ c, a ≠ .arrives c := by
      rintro c rfl
      cases stepped
    have parts : (ServeLoop.step (s.processes sock) a).bind (fun q =>
        (touch setup s.kernel sock (s.processes sock).pc a q.pc).map fun k =>
          { s with
            kernel := k
            processes := Function.update s.processes sock q
            attached := (s.attached || attaches (s.processes sock).pc a) &&
              someListen k (Function.update s.processes sock q) }) = some t := by
      cases a with
      | arrives c => exact absurd rfl (own c)
      | _ => exact stepped
    obtain ⟨p, moved, rest⟩ := Option.bind_eq_some_iff.mp parts
    obtain ⟨k, touched, rfl⟩ := Option.map_eq_some_iff.mp rest
    exact process_sound sound own moved touched
  | connects c =>
    obtain ⟨-, stepped⟩ := Option.ite_none_right_eq_some.mp stepped
    split at stepped
    case h_1 sock selected =>
      exact pass_sound sound (fun _ => selected_parity sound selected) stepped
    case h_2 =>
      cases stepped
      exact sound
  | hashes c sock =>
    obtain ⟨-, stepped⟩ := Option.ite_none_left_eq_some.mp stepped
    exact pass_sound sound (by simp) stepped

/-- In every run of the servers and the kernel: a server that has not ended has accepted the
    connections passed to it in their order, one at a time, with all but the last closed, and has
    open what it is working with. What the selector passed to it is from a port of its parity.
    While a server is past its attach, connections go through the selector, and this passes them
    only to a server that has registered. -/
theorem connections_served (reached : Runs.run (step setup) (init setup) acts = some s)
    (sock : Socket) :
    (∀ r ∈ s.routed, r.sock = sock → r.bySelector = true → (setup.syn r.conn).HasTcpHeader ∧
      sourcePort (setup.syn r.conn).data % 2 = (setup.keyIndex sock).toUInt32.toNat) ∧
    (s.processes sock).accepted <+: passedTo s.routed sock ∧
    (s.processes sock).answered.Sublist (s.processes sock).closed ∧
    ((s.processes sock).pc ≠ .exited →
      passedTo s.routed sock = (s.processes sock).accepted ++ (s.processes sock).backlog ∧
      (s.processes sock).accepted = (s.processes sock).closed ++ inHand (s.processes sock).pc ∧
      Extends (setup.inherited sock) (opened (s.processes sock).pc) (s.processes sock).table) ∧
    (hasAttached (s.processes sock).pc = true → s.attached = true) ∧
    ∀ packet, hotStandbySelector setup.order s.kernel.migServers packet = (.pass, some sock) →
      registered (s.processes sock).pc = true := by
  have sound : Sound setup s := Runs.invariant_run (Sound setup)
    (fun _ _ _ sound stepped => step_sound sound stepped) (init_sound setup) reached
  have arrived := sound.arrived sock
  refine ⟨?_, ?_, ?_, ?_, sound.attached sock, ?_⟩
  · rintro r member rfl chosen
    obtain ⟨header, key⟩ := sound.parity r member chosen
    exact ⟨header, key.symm⟩
  · rcases sound.tidy sock with tidy | ended
    · exact ⟨_, tidy.arrived.symm.trans arrived⟩
    · exact arrived ▸ ended.arrived
  · rcases sound.tidy sock with tidy | ended
    · exact tidy.answered
    · exact ended.answered
  · intro alive
    rcases sound.tidy sock with tidy | ended
    · exact ⟨arrived.symm.trans tidy.arrived, tidy.turn, tidy.table⟩
    · exact absurd ended.exited alive
  · intro packet selected
    rw [selector_routes] at selected
    split at selected
    · exact (sound.held _ _ (towards_pass.mp selected)).1
    · cases selected

/-- Two servers, for even and for odd ports; a connection is named by its source port. -/
def twoServers : Setup Nat UInt16 where
  order := .littleEndian
  keyIndex sock := if sock = 0 then 0 else 1
  inherited _ := ⟨[some (.inherited 0), some (.inherited 1), some (.inherited 2)]⟩
  syn := segment

/-- The starts interleave, and a connection from an odd port comes to the first server before the
    selector is there; later that server has two connections and the second one has one. -/
def bothServe : List (Act Nat UInt16) :=
  (List.replicate 5 [.process 0 .works, .process 1 .works]).flatten ++ [.hashes 50001 0] ++
    (List.replicate 7 [.process 0 .works, .process 1 .works]).flatten ++
    [.connects 50000, .connects 50003, .connects 50002, .process 0 .works, .process 0 .works,
      .process 0 .works, .process 0 .works, .process 1 .works, .process 1 .killed]

theorem connections_served_two : ∃ s,
    Runs.run (step twoServers) (init twoServers) bothServe = some s ∧
    (s.processes 0).closed = [50001] ∧ (s.processes 0).pc = .read 3 4 50000 ∧
    passedTo s.routed 0 = (s.processes 0).accepted ++ (s.processes 0).backlog ∧
    (s.processes 0).accepted = [50001, 50000] ∧ s.attached = true ∧
    ∀ packet, hotStandbySelector .littleEndian s.kernel.migServers packet ≠ (.pass, some 1) := by
  obtain ⟨s, reached, closed, reading, ended⟩ : ∃ s,
      Runs.run (step twoServers) (init twoServers) bothServe = some s ∧
      (s.processes 0).closed = [50001] ∧ (s.processes 0).pc = .read 3 4 50000 ∧
      (s.processes 1).pc = .exited :=
    Runs.reaches (by decide +kernel)
  obtain ⟨-, -, -, alive, selects, -⟩ := connections_served reached 0
  obtain ⟨-, -, -, -, -, selected⟩ := connections_served reached 1
  obtain ⟨passed, turn, -⟩ := alive (by simp [reading])
  refine ⟨s, reached, closed, reading, passed, by simpa [closed, reading, inHand] using turn,
    selects (by simp [reading, hasAttached, registered]), ?_⟩
  intro packet chosen
  have serves := selected packet chosen
  simp [ended, registered] at serves

end Deployment
