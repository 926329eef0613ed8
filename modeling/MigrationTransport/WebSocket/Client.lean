import MigrationTransport.WebSocket.TunnelSafety
import MigrationTransport.WebSocket.Cleanup

/-!
The WebSocket client with all its QEMU connections: one run of `handle_qemu_connection`
for each, the registry they share under truncated ids, and the loop over what is left
in the registry when `start_unix_server` ends.
-/
namespace WebSocketClient
open ByteStream WebSocketPipe
open Cleanup (ConnectionId ConnInfo Registry)

inductive Caller where
  | handler (c : Nat)
  | shutdown
  deriving DecidableEq

/-- `cleaning` is the `finally` block; a handler has finished when its cleanup has. -/
inductive HandlerPc where
  | absent
  | starting
  | connecting
  | forwarding
  | joining
  | cleaning (pc : Cleanup.Pc)
  deriving DecidableEq

structure Handler where
  pc : HandlerPc
  id : ConnectionId
  pipes : Pipes
  deriving DecidableEq

/-- `serving` is `serve_forever`; `cleaning` is the final loop inside its call for `id`, with
    the keys still to come. -/
inductive ServerPc where
  | serving
  | cleaning (id : ConnectionId) (pc : Cleanup.Pc) (rest : List ConnectionId)
  | finished
  deriving DecidableEq

/-- `accepted` lists the connections in the order of arrival, the latest first. -/
structure Client where
  accepted : List Nat
  handlers : Nat → Handler
  registry : Registry Caller
  server : ServerPc

/-- The websocket and the unix socket of connection `c` are called `c`. -/
def own (c : Nat) : ConnInfo := ⟨c, c, c⟩

def init (source destination : Nat → Bytes) : Client where
  accepted := []
  handlers := fun c => ⟨.absent, 0, .init (source c) (destination c)⟩
  registry := ⟨.empty, []⟩
  server := .serving

inductive Act where
  | accept (c : Nat) (id : ConnectionId)
  | sslRaises (c : Nat)
  | sslCreated (c : Nat)
  | connectRaises (c : Nat)
  | connected (c : Nat)
  | traffic (c : Nat) (a : PipesAct)
  | waitReturns (c : Nat)
  | joined (c : Nat)
  | interrupted (c : Nat)
  | cleanup (c : Nat) (a : Cleanup.Act)
  | serverEnds
  | serverCleanup (a : Cleanup.Act)
  | serverNext
  deriving DecidableEq

def setPc (s : Client) (c : Nat) (pc : HandlerPc) : Client :=
  { s with handlers := Function.update s.handlers c { s.handlers c with pc := pc } }

def setPipes (s : Client) (c : Nat) (pipes : Pipes) : Client :=
  { s with handlers := Function.update s.handlers c { s.handlers c with pipes := pipes } }

/-- `finally: await self.cleanup_connection(connection_id)` -/
def enterFinally (s : Client) (c : Nat) : Client := setPc s c (.cleaning .entering)

/-- The handler alone creates and cancels the loops of its own side. -/
def isTraffic : PipesAct → Bool
  | .createClientTasks | .askUpSend | .askDownReceive => false
  | _ => true

def nextKey : List ConnectionId → ServerPc
  | [] => .finished
  | id :: rest => .cleaning id .entering rest

def step (s : Client) : Act → Option Client
  | .accept c id =>
    if (s.handlers c).pc = .absent then
      some { s with
        accepted := c :: s.accepted
        handlers := Function.update s.handlers c { s.handlers c with pc := .starting, id := id } }
    else none
  | .sslRaises c => if (s.handlers c).pc = .starting then some (enterFinally s c) else none
  | .sslCreated c => if (s.handlers c).pc = .starting then some (setPc s c .connecting) else none
  | .connectRaises c => if (s.handlers c).pc = .connecting then some (enterFinally s c) else none
  | .connected c =>
    if (s.handlers c).pc = .connecting then
      some { s with
        handlers := Function.update s.handlers c { s.handlers c with
          pc := .forwarding, pipes := (s.handlers c).pipes.createClientTasks }
        registry := { s.registry with
          activeConnections := s.registry.activeConnections.set (s.handlers c).id (own c) } }
    else none
  | .traffic c a =>
    if isTraffic a then ((s.handlers c).pipes.step a).map (setPipes s c) else none
  | .waitReturns c =>
    let pipes := (s.handlers c).pipes
    if (s.handlers c).pc = .forwarding then
      if pipes.up.unixToWs = .finished then
        if pipes.down.wsToUnix = .finished then some (enterFinally s c)
        else some (setPc (setPipes s c { pipes with down := askReceive pipes.down }) c .joining)
      else if pipes.down.wsToUnix = .finished then
        some (setPc (setPipes s c { pipes with up := askSend pipes.up }) c .joining)
      else none
    else none
  | .joined c =>
    let pipes := (s.handlers c).pipes
    if (s.handlers c).pc = .joining ∧ pipes.up.unixToWs = .finished ∧
        pipes.down.wsToUnix = .finished then some (enterFinally s c)
    else none
  | .interrupted c =>
    if (s.handlers c).pc = .forwarding ∨ (s.handlers c).pc = .joining then
      some (enterFinally s c)
    else none
  | .cleanup c a =>
    match (s.handlers c).pc with
    | .cleaning pc =>
      (Cleanup.step (.handler c) (s.handlers c).id s.registry pc a).map fun moved =>
        setPc { s with registry := moved.1 } c (.cleaning moved.2)
    | _ => none
  | .serverEnds =>
    match s.server with
    | .serving => some { s with server := nextKey s.registry.activeConnections.keys }
    | _ => none
  | .serverCleanup a =>
    match s.server with
    | .cleaning id pc rest =>
      (Cleanup.step .shutdown id s.registry pc a).map fun moved =>
        { s with registry := moved.1, server := .cleaning id moved.2 rest }
    | _ => none
  | .serverNext =>
    match s.server with
    | .cleaning _ .returned rest => some { s with server := nextKey rest }
    | .cleaning _ (.raised _) _ => some { s with server := .finished }
    | _ => none

/-- Steps of the handler of `c` that leave the registry alone. -/
inductive Onwards (c : Nat) : Act → HandlerPc → HandlerPc → Prop where
  | sslRaises : Onwards c (.sslRaises c) .starting (.cleaning .entering)
  | sslCreated : Onwards c (.sslCreated c) .starting .connecting
  | connectRaises : Onwards c (.connectRaises c) .connecting (.cleaning .entering)
  | traffic (a : PipesAct) (pc : HandlerPc) : Onwards c (.traffic c a) pc pc
  | joins : Onwards c (.waitReturns c) .forwarding .joining
  | waitReturns : Onwards c (.waitReturns c) .forwarding (.cleaning .entering)
  | joined : Onwards c (.joined c) .joining (.cleaning .entering)
  | interrupted {pc : HandlerPc} (trying : pc = .forwarding ∨ pc = .joining) :
      Onwards c (.interrupted c) pc (.cleaning .entering)

inductive Effect (s t : Client) : Act → Prop where
  | accepted (c : Nat) (id : ConnectionId) (others : ∀ d, d ≠ c → t.handlers d = s.handlers d)
      (registry : t.registry = s.registry) (server : t.server = s.server)
      (before : (s.handlers c).pc = .absent) (after : (t.handlers c).pc = .starting)
      (given : (t.handlers c).id = id) (known : t.accepted = c :: s.accepted) :
      Effect s t (.accept c id)
  | moved (c : Nat) {a : Act} (others : ∀ d, d ≠ c → t.handlers d = s.handlers d)
      (registry : t.registry = s.registry) (server : t.server = s.server)
      (id : (t.handlers c).id = (s.handlers c).id) (known : t.accepted = s.accepted)
      (onwards : Onwards c a (s.handlers c).pc (t.handlers c).pc) : Effect s t a
  | registered (c : Nat) (others : ∀ d, d ≠ c → t.handlers d = s.handlers d)
      (server : t.server = s.server) (before : (s.handlers c).pc = .connecting)
      (after : (t.handlers c).pc = .forwarding) (id : (t.handlers c).id = (s.handlers c).id)
      (known : t.accepted = s.accepted)
      (registry : t.registry = { s.registry with
        activeConnections := s.registry.activeConnections.set (s.handlers c).id (own c) }) :
      Effect s t (.connected c)
  | cleaned (c : Nat) {a : Cleanup.Act} {pc next : Cleanup.Pc}
      (others : ∀ d, d ≠ c → t.handlers d = s.handlers d) (server : t.server = s.server)
      (before : (s.handlers c).pc = .cleaning pc) (after : (t.handlers c).pc = .cleaning next)
      (id : (t.handlers c).id = (s.handlers c).id) (known : t.accepted = s.accepted)
      (cleanup : Cleanup.Moved (.handler c) (s.handlers c).id s.registry pc a t.registry next) :
      Effect s t (.cleanup c a)
  | looped {a : Cleanup.Act} {id : ConnectionId} {pc next : Cleanup.Pc}
      {rest : List ConnectionId} (handlers : t.handlers = s.handlers)
      (known : t.accepted = s.accepted)
      (before : s.server = .cleaning id pc rest) (after : t.server = .cleaning id next rest)
      (cleanup : Cleanup.Moved .shutdown id s.registry pc a t.registry next) :
      Effect s t (.serverCleanup a)
  | turned {a : Act} (handlers : t.handlers = s.handlers) (known : t.accepted = s.accepted)
      (registry : t.registry = s.registry)
      (fresh : ∀ id pc rest, t.server = .cleaning id pc rest → pc = .entering) : Effect s t a

theorem nextKey_fresh (keys : List ConnectionId) :
    ∀ id pc rest, nextKey keys = .cleaning id pc rest → pc = .entering := by
  intro id pc rest next
  cases keys with
  | nil => simp [nextKey] at next
  | cons key keys =>
    simp only [nextKey, ServerPc.cleaning.injEq] at next
    exact next.2.1.symm

theorem joins_effect {s : Client} {c : Nat} (waiting : (s.handlers c).pc = .forwarding)
    (pipes : Pipes) :
    Effect s (setPc (setPipes s c pipes) c .joining) (.waitReturns c) := by
  refine .moved c ?_ rfl rfl (by simp [setPc, setPipes]) rfl ?_
  · intro d other
    simp [setPc, setPipes, Function.update_of_ne other]
  · simp only [setPc, setPipes, Function.update_self, waiting]
    constructor

theorem step_effect {s t : Client} {a : Act} (stepped : step s a = some t) : Effect s t a := by
  cases a with
  | accept c id =>
    simp only [step, Option.ite_none_right_eq_some, Option.some.injEq] at stepped
    obtain ⟨absent, rfl⟩ := stepped
    exact .accepted c id (fun d other => Function.update_of_ne other ..) rfl rfl absent
      (by simp) (by simp) rfl
  | sslRaises c | sslCreated c | connectRaises c | joined c | interrupted c =>
    simp only [step, Option.ite_none_right_eq_some, Option.some.injEq] at stepped
    obtain ⟨here, rfl⟩ := stepped
    refine .moved c (fun d other => Function.update_of_ne other ..) rfl rfl
      (by simp [enterFinally, setPc]) rfl ?_
    simp only [enterFinally, setPc, Function.update_self, here]
    constructor <;> assumption
  | connected c =>
    simp only [step, Option.ite_none_right_eq_some, Option.some.injEq] at stepped
    obtain ⟨here, rfl⟩ := stepped
    exact .registered c (fun d other => Function.update_of_ne other ..) rfl here (by simp)
      (by simp) rfl rfl
  | traffic c a =>
    simp only [step, Option.ite_none_right_eq_some, Option.map_eq_some_iff] at stepped
    obtain ⟨-, pipes, -, rfl⟩ := stepped
    refine .moved c (fun d other => Function.update_of_ne other ..) rfl rfl
      (by simp [setPipes]) rfl ?_
    simp only [setPipes, Function.update_self]
    constructor
  | waitReturns c =>
    simp only [step, Option.ite_none_right_eq_some] at stepped
    obtain ⟨here, stepped⟩ := stepped
    split at stepped
    · split at stepped <;> (rw [Option.some.injEq] at stepped; subst stepped)
      · refine .moved c (fun d other => Function.update_of_ne other ..) rfl rfl
          (by simp [enterFinally, setPc]) rfl ?_
        simp only [enterFinally, setPc, Function.update_self, here]
        constructor
      · exact joins_effect here _
    · rw [Option.ite_none_right_eq_some, Option.some.injEq] at stepped
      obtain ⟨-, rfl⟩ := stepped
      exact joins_effect here _
  | cleanup c a =>
    simp only [step] at stepped
    split at stepped
    · rename_i pc here
      simp only [Option.map_eq_some_iff] at stepped
      obtain ⟨⟨r, next⟩, moved, rfl⟩ := stepped
      exact .cleaned c (fun d other => Function.update_of_ne other ..) rfl here (by simp [setPc])
        (by simp [setPc]) rfl (Cleanup.step_moved moved)
    · simp at stepped
  | serverEnds =>
    simp only [step] at stepped
    split at stepped
    · rw [Option.some.injEq] at stepped
      subst stepped
      exact .turned rfl rfl rfl (nextKey_fresh _)
    · simp at stepped
  | serverCleanup a =>
    simp only [step] at stepped
    split at stepped
    · rename_i id pc rest here
      simp only [Option.map_eq_some_iff] at stepped
      obtain ⟨⟨r, next⟩, moved, rfl⟩ := stepped
      exact .looped rfl rfl here rfl (Cleanup.step_moved moved)
    · simp at stepped
  | serverNext =>
    simp only [step] at stepped
    split at stepped
    · rw [Option.some.injEq] at stepped
      subst stepped
      exact .turned rfl rfl rfl (nextKey_fresh _)
    · rw [Option.some.injEq] at stepped
      subst stepped
      exact .turned rfl rfl rfl (by simp)
    · simp at stepped

@[simp] theorem setPc_pipes (s : Client) (d c : Nat) (pc : HandlerPc) :
    ((setPc s d pc).handlers c).pipes = (s.handlers c).pipes := by
  by_cases same : c = d
  · simp [setPc, same]
  · simp [setPc, Function.update_of_ne same]

@[simp] theorem enterFinally_pipes (s : Client) (d c : Nat) :
    ((enterFinally s d).handlers c).pipes = (s.handlers c).pipes :=
  setPc_pipes s d c _

theorem setPipes_run {s : Client} {d : Nat} {pipes : Pipes} {a : PipesAct} (c : Nat)
    (moved : (s.handlers d).pipes.step a = some pipes) :
    ∃ moves, Runs.run Pipes.step (s.handlers c).pipes moves =
      some ((setPipes s d pipes).handlers c).pipes := by
  by_cases same : c = d
  · exact ⟨[a], by simp [setPipes, same, moved]⟩
  · exact ⟨[], by simp [setPipes, Function.update_of_ne same]⟩

/-- What a step of the client is for the tunnel of one connection. -/
theorem step_pipes {s t : Client} {a : Act} (c : Nat) (stepped : step s a = some t) :
    ∃ moves, Runs.run Pipes.step (s.handlers c).pipes moves = some (t.handlers c).pipes := by
  cases a with
  | accept d id =>
    simp only [step, Option.ite_none_right_eq_some, Option.some.injEq] at stepped
    obtain ⟨-, rfl⟩ := stepped
    refine ⟨[], ?_⟩
    by_cases same : c = d
    · simp [same]
    · simp [Function.update_of_ne same]
  | connected d =>
    simp only [step, Option.ite_none_right_eq_some, Option.some.injEq] at stepped
    obtain ⟨-, rfl⟩ := stepped
    by_cases same : c = d
    · exact ⟨[.createClientTasks], by simp [same, Pipes.step]⟩
    · exact ⟨[], by simp [Function.update_of_ne same]⟩
  | traffic d move =>
    simp only [step, Option.ite_none_right_eq_some, Option.map_eq_some_iff] at stepped
    obtain ⟨-, pipes, moved, rfl⟩ := stepped
    exact setPipes_run c moved
  | waitReturns d =>
    simp only [step, Option.ite_none_right_eq_some] at stepped
    obtain ⟨-, stepped⟩ := stepped
    split at stepped
    · split at stepped <;> (rw [Option.some.injEq] at stepped; subst stepped)
      · exact ⟨[], by simp⟩
      · rw [setPc_pipes]
        exact setPipes_run (a := .askDownReceive) c rfl
    · rw [Option.ite_none_right_eq_some, Option.some.injEq] at stepped
      obtain ⟨-, rfl⟩ := stepped
      rw [setPc_pipes]
      exact setPipes_run (a := .askUpSend) c rfl
  | cleanup d act =>
    simp only [step] at stepped
    split at stepped
    · simp only [Option.map_eq_some_iff] at stepped
      obtain ⟨moved, -, rfl⟩ := stepped
      exact ⟨[], by simp⟩
    · simp at stepped
  | serverEnds | serverNext =>
    simp only [step] at stepped
    split at stepped <;> simp only [Option.some.injEq, reduceCtorEq] at stepped
    all_goals
      subst stepped
      exact ⟨[], by simp⟩
  | serverCleanup act =>
    simp only [step] at stepped
    split at stepped
    · simp only [Option.map_eq_some_iff] at stepped
      obtain ⟨moved, -, rfl⟩ := stepped
      exact ⟨[], by simp⟩
    · simp at stepped
  | _ =>
    simp only [step, Option.ite_none_right_eq_some, Option.some.injEq] at stepped
    obtain ⟨-, rfl⟩ := stepped
    exact ⟨[], by simp⟩

theorem run_pipes {source destination : Nat → Bytes} {acts : List Act} {s : Client}
    (reached : Runs.run step (init source destination) acts = some s) (c : Nat) :
    ∃ moves, Runs.run Pipes.step (.init (source c) (destination c)) moves =
      some (s.handlers c).pipes :=
  Runs.refines (fun s => (s.handlers c).pipes) (fun _ _ _ => step_pipes c) reached

/-- Every connection of the client is a tunnel that loses nothing but the last chunk read,
    whatever becomes of the others. -/
theorem connections_safe {source destination : Nat → Bytes} {acts : List Act} {s : Client}
    (reached : Runs.run step (init source destination) acts = some s) (c : Nat) :
    TunnelSafety.NothingReordered (source c) (s.handlers c).pipes.up ∧
      TunnelSafety.NothingReordered (destination c) (s.handlers c).pipes.down := by
  obtain ⟨moves, seen⟩ := run_pipes reached c
  have framed := TunnelSafety.run_framed seen
  exact ⟨TunnelSafety.framed_ordered framed.1, TunnelSafety.framed_ordered framed.2⟩

/-- Two connections under one id; the second is interrupted while the first sends. -/
def sendsBeside : List Act :=
  [.accept 1 7, .sslCreated 1, .connected 1, .accept 2 7, .sslCreated 2, .connected 2,
    .traffic 1 .createServerTasks, .traffic 1 (.up .startSend), .traffic 1 (.up (.read 1)),
    .traffic 2 (.up .startSend), .traffic 2 (.up (.read 2)), .traffic 1 (.up .accept),
    .traffic 1 (.up .sendReturns), .traffic 1 (.up .startReceive), .traffic 1 (.up .receive),
    .interrupted 2, .cleanup 2 .enter, .cleanup 2 .webSocketClosed, .traffic 1 (.up (.read 1))]

theorem connections_safe_beside : ∃ s,
    Runs.run step (init (fun c => [1, 2, 3].map (· + 10 * c.toUInt8)) fun _ => []) sendsBeside =
        some s ∧
      (s.handlers 1).pipes.up.written = [11] ∧
      TunnelSafety.NothingReordered [11, 12, 13] (s.handlers 1).pipes.up ∧
      TunnelSafety.NothingReordered [21, 22, 23] (s.handlers 2).pipes.up := by
  obtain ⟨s, reached, written⟩ : ∃ s,
      Runs.run step (init (fun c => [1, 2, 3].map (· + 10 * c.toUInt8)) fun _ => []) sendsBeside =
        some s ∧ (s.handlers 1).pipes.up.written = [11] :=
    Runs.reaches (by decide)
  exact ⟨s, reached, written, (connections_safe reached 1).1, (connections_safe reached 2).1⟩

end WebSocketClient
