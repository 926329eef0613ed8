import MigrationTransport.ProxyPerf.BenchLoops

/-!
What `benchmark_send_unix` and `receive_data` leave behind. Both close their sockets in one
`finally` block under one bare `except`, and the first line of it names the accepted
connection, a variable that is not bound before `accept` has returned.
-/
namespace BenchmarkRelease
open ProxyPerf
open UnixSender (Config)
open BenchLoops (tenSeconds)

/-- A variable for a socket. One that was handed to `wrap_socket` is `detached`. -/
inductive Sock where
  | unbound
  | opened
  | detached
  | closed
  deriving DecidableEq

/-- `sock.close()`; `none` is `NameError`. -/
def Sock.close : Sock → Option Sock
  | .unbound => none
  | .opened | .closed => some .closed
  | .detached => some .detached

/-- The lines of a block under a bare `except`, up to the first that raises. -/
def untilRaises {State : Type} : List (State → Option State) → State → State
  | [], s => s
  | line :: rest, s =>
    match line s with
    | some t => untilRaises rest t
    | none => s

theorem untilRaises_none {State : Type} {line : State → Option State} {s : State}
    (raises : line s = none) (rest : List (State → Option State)) :
    untilRaises (line :: rest) s = s := by
  rw [untilRaises, raises]

theorem untilRaises_some {State : Type} {line : State → Option State} {s t : State}
    (returns : line s = some t) (rest : List (State → Option State)) :
    untilRaises (line :: rest) s = untilRaises rest t := by
  rw [untilRaises, returns]

inductive Stage where
  | creating
  | binding
  | listening
  | tcpSocket
  | wrapping
  | connecting
  | accepting
  | transferring
  | returned
  | raised
  deriving DecidableEq

/-- Each action but the last three is the return of one call. -/
inductive Act (Turn : Type) where
  | socket
  | bind
  | listen
  | tcpSocket
  | wrapSocket
  | connect
  | accept
  | turn (t : Turn)
  | ends
  | raises
  deriving DecidableEq

/-- A call of `benchmark_send_unix`; `path` is whether the path of the unix socket exists. -/
structure Sending where
  stage : Stage
  path : Bool
  unixServer : Sock
  tcpSock : Sock
  sslSock : Sock
  unixClient : Sock
  sender : UnixSender.Sender
  deriving DecidableEq

namespace Sending

def init (cfg : Config) (path : Bool) : Sending where
  stage := .creating
  path := path
  unixServer := .unbound
  tcpSock := .unbound
  sslSock := .unbound
  unixClient := .unbound
  sender := UnixSender.init cfg.startTime

def closeUnixClient (b : Sending) : Option Sending :=
  b.unixClient.close.map fun sock => { b with unixClient := sock }

def closeUnixServer (b : Sending) : Option Sending :=
  b.unixServer.close.map fun sock => { b with unixServer := sock }

def unlink (b : Sending) : Option Sending :=
  if b.path then some { b with path := false } else none

def closeSslSock (b : Sending) : Option Sending :=
  b.sslSock.close.map fun sock => { b with sslSock := sock }

def finalBlock (b : Sending) : Sending :=
  { untilRaises [closeUnixClient, closeUnixServer, unlink, closeSslSock] b with
    stage := .returned }

/-- An exception of `create_unix_socket_server` leaves the function, one in the `try` block is
    logged; the loop itself goes on after a `socket.error`. -/
def raises (b : Sending) : Option Sending :=
  match b.stage with
  | .creating | .binding | .listening => some { b with stage := .raised }
  | .tcpSocket | .wrapping | .connecting | .accepting | .transferring => some b.finalBlock
  | .returned | .raised => none

def step (cfg : Config) (b : Sending) : Act UnixSender.Turn → Option Sending
  | .socket =>
    if b.stage = .creating then
      some { b with stage := .binding, path := false, unixServer := .opened }
    else none
  | .bind =>
    if b.stage = .binding then some { b with stage := .listening, path := true } else none
  | .listen => if b.stage = .listening then some { b with stage := .tcpSocket } else none
  | .tcpSocket =>
    if b.stage = .tcpSocket then some { b with stage := .wrapping, tcpSock := .opened } else none
  | .wrapSocket =>
    if b.stage = .wrapping then
      some { b with stage := .connecting, tcpSock := .detached, sslSock := .opened }
    else none
  | .connect => if b.stage = .connecting then some { b with stage := .accepting } else none
  | .accept =>
    if b.stage = .accepting then
      some { b with stage := .transferring, unixClient := .opened }
    else none
  | .turn t =>
    if b.stage = .transferring then
      (UnixSender.step cfg b.sender t).map fun sender => { b with sender := sender }
    else none
  | .ends =>
    if b.stage = .transferring ∧ b.sender.running = false then some b.finalBlock else none
  | .raises => b.raises

structure Released (b : Sending) : Prop where
  path : b.path = false
  unixServer : b.unixServer ≠ .opened
  tcpSock : b.tcpSock ≠ .opened
  sslSock : b.sslSock ≠ .opened
  unixClient : b.unixClient ≠ .opened

/-- What is held in each stage. A call that has returned was caught by the `except`, with the
    listening socket open, or it has released everything. -/
def Holds (b : Sending) : Prop :=
  match b.stage with
  | .creating | .raised => b.unixClient = .unbound
  | .binding => b.unixClient = .unbound ∧ b.unixServer = .opened
  | .listening | .tcpSocket | .wrapping =>
    b.unixClient = .unbound ∧ b.unixServer = .opened ∧ b.path = true
  | .connecting | .accepting =>
    b.unixClient = .unbound ∧ b.unixServer = .opened ∧ b.path = true ∧ b.tcpSock = .detached ∧
      b.sslSock = .opened
  | .transferring =>
    b.unixClient = .opened ∧ b.unixServer = .opened ∧ b.path = true ∧ b.tcpSock = .detached ∧
      b.sslSock = .opened
  | .returned =>
    b.unixClient = .unbound ∧ b.unixServer = .opened ∨ b.unixClient = .closed ∧ Released b

variable {cfg : Config} {b c : Sending} {a : Act UnixSender.Turn}
  {acts : List (Act UnixSender.Turn)}

theorem finalBlock_unbound (unbound : b.unixClient = .unbound) :
    b.finalBlock = { b with stage := .returned } := by
  have raises : closeUnixClient b = none := by
    rw [closeUnixClient, unbound]
    rfl
  rw [finalBlock, untilRaises_none raises]

theorem finalBlock_bound (client : b.unixClient = .opened) (server : b.unixServer = .opened)
    (path : b.path = true) (ssl : b.sslSock = .opened) :
    b.finalBlock = { b with
      stage := .returned, path := false
      unixServer := .closed, sslSock := .closed, unixClient := .closed } := by
  have clientCloses : closeUnixClient b = some { b with unixClient := .closed } := by
    rw [closeUnixClient, client]
    rfl
  have serverCloses : closeUnixServer { b with unixClient := .closed } =
      some { b with unixServer := .closed, unixClient := .closed } := by
    simp only [closeUnixServer, server]
    rfl
  have unlinks : unlink { b with unixServer := .closed, unixClient := .closed } =
      some { b with path := false, unixServer := .closed, unixClient := .closed } := if_pos path
  have sslCloses : closeSslSock { b with
      path := false, unixServer := .closed, unixClient := .closed } = some { b with
      path := false, unixServer := .closed, sslSock := .closed, unixClient := .closed } := by
    simp only [closeSslSock, ssl]
    rfl
  rw [finalBlock, untilRaises_some clientCloses, untilRaises_some serverCloses,
    untilRaises_some unlinks, untilRaises_some sslCloses]
  rfl

theorem finalBlock_holds (client : b.unixClient = .opened) (server : b.unixServer = .opened)
    (path : b.path = true) (tcp : b.tcpSock = .detached) (ssl : b.sslSock = .opened) :
    Holds b.finalBlock := by
  rw [finalBlock_bound client server path ssl]
  right
  constructor
  · rfl
  · constructor <;> simp [tcp]

theorem raises_holds (holds : Holds b) (raised : b.raises = some c) : Holds c := by
  unfold raises at raised
  unfold Holds at holds
  split at raised <;> rename_i here <;>
    simp only [here, Option.some.injEq, reduceCtorEq] at raised holds <;> subst raised
  · exact holds
  · exact holds.1
  · exact holds.1
  · rw [finalBlock_unbound holds.1]
    exact .inl ⟨holds.1, holds.2.1⟩
  · rw [finalBlock_unbound holds.1]
    exact .inl ⟨holds.1, holds.2.1⟩
  · rw [finalBlock_unbound holds.1]
    exact .inl ⟨holds.1, holds.2.1⟩
  · rw [finalBlock_unbound holds.1]
    exact .inl ⟨holds.1, holds.2.1⟩
  · obtain ⟨client, server, path, tcp, ssl⟩ := holds
    exact finalBlock_holds client server path tcp ssl

theorem step_holds (holds : Holds b) (stepped : step cfg b a = some c) : Holds c := by
  cases a with
  | raises => exact raises_holds holds stepped
  | ends =>
    simp only [step, Option.ite_none_right_eq_some, Option.some.injEq] at stepped
    obtain ⟨⟨here, -⟩, rfl⟩ := stepped
    simp only [Holds, here] at holds
    obtain ⟨client, server, path, tcp, ssl⟩ := holds
    exact finalBlock_holds client server path tcp ssl
  | turn t =>
    simp only [step, Option.ite_none_right_eq_some] at stepped
    obtain ⟨here, stepped⟩ := stepped
    obtain ⟨sender, -, rfl⟩ := Option.map_eq_some_iff.mp stepped
    simp only [Holds, here] at holds ⊢
    exact holds
  | _ =>
    simp only [step, Option.ite_none_right_eq_some, Option.some.injEq] at stepped
    obtain ⟨here, rfl⟩ := stepped
    simp only [Holds, here] at holds ⊢
    simp [holds]

theorem init_holds (cfg : Config) (path : Bool) : Holds (init cfg path) := rfl

/-- The accepted connection is bound from `accept` on, also after the final block. -/
theorem finalBlock_client (holds : Holds b) (here : b.stage = .transferring) :
    b.finalBlock.unixClient = .closed := by
  simp only [Holds, here] at holds
  obtain ⟨client, server, path, -, ssl⟩ := holds
  rw [finalBlock_bound client server path ssl]

theorem raises_client (holds : Holds b) (raised : b.raises = some c) :
    c.unixClient = .unbound ↔ b.unixClient = .unbound := by
  unfold raises at raised
  split at raised <;> rename_i here <;>
    simp only [Option.some.injEq, reduceCtorEq] at raised <;> subst raised
  case h_8 =>
    have closed := finalBlock_client holds here
    simp only [Holds, here] at holds
    simp [closed, holds.1]
  all_goals simp only [Holds, here] at holds
  case h_1 | h_2 | h_3 => rfl
  case h_4 | h_5 | h_6 | h_7 => rw [finalBlock_unbound holds.1]

theorem step_client (holds : Holds b) (stepped : step cfg b a = some c) :
    c.unixClient = .unbound ↔ b.unixClient = .unbound ∧ a ≠ .accept := by
  cases a with
  | raises =>
    rw [raises_client holds stepped]
    simp
  | ends =>
    simp only [step, Option.ite_none_right_eq_some, Option.some.injEq] at stepped
    obtain ⟨⟨here, -⟩, rfl⟩ := stepped
    have closed := finalBlock_client holds here
    simp only [Holds, here] at holds
    simp [closed, holds.1]
  | turn t =>
    simp only [step, Option.ite_none_right_eq_some] at stepped
    obtain ⟨here, stepped⟩ := stepped
    obtain ⟨sender, -, rfl⟩ := Option.map_eq_some_iff.mp stepped
    simp
  | _ =>
    simp only [step, Option.ite_none_right_eq_some, Option.some.injEq] at stepped
    obtain ⟨here, rfl⟩ := stepped
    simp

theorem run_holds {path : Bool} (reached : Runs.run (step cfg) (init cfg path) acts = some b) :
    Holds b :=
  Runs.invariant_run Holds (fun _ _ _ => step_holds) (init_holds cfg path) reached

theorem run_client {path : Bool} (reached : Runs.run (step cfg) (init cfg path) acts = some b) :
    b.unixClient = .unbound ↔ .accept ∉ acts := by
  have exact_ := Runs.exact_never Holds (fun b => b.unixClient = .unbound) .accept
    (fun _ _ _ => step_holds) (fun _ _ _ => step_client) (init_holds cfg path) reached
  rw [exact_]
  exact and_iff_right rfl

/-- A call of `benchmark_send_unix` that returns has released everything if and only if its
    `accept` had returned. -/
theorem released_iff {path : Bool}
    (reached : Runs.run (step cfg) (init cfg path) acts = some b) (returned : b.stage = .returned) :
    Released b ↔ .accept ∈ acts := by
  have holds := run_holds reached
  have client := run_client reached
  simp only [Holds, returned] at holds
  rcases holds with ⟨unbound, server⟩ | ⟨closed, released⟩
  · have never := client.mp unbound
    constructor
    · intro released
      exact absurd server released.unixServer
    · intro accepted
      exact absurd accepted never
  · constructor
    · intro _
      by_contra never
      have unbound := client.mpr never
      rw [closed] at unbound
      exact absurd unbound (by decide)
    · intro _
      exact released

end Sending

/-- A call of `receive_data`, whose listening socket is created in the `try` block. -/
structure Receiving where
  stage : Stage
  path : Bool
  sock : Sock
  clientSock : Sock
  receiver : Receiver
  deriving DecidableEq

namespace Receiving

def init (cfg : Config) (path : Bool) : Receiving where
  stage := .creating
  path := path
  sock := .unbound
  clientSock := .unbound
  receiver := .init cfg.startTime

def closeClientSock (b : Receiving) : Option Receiving :=
  b.clientSock.close.map fun sock => { b with clientSock := sock }

def closeSock (b : Receiving) : Option Receiving :=
  b.sock.close.map fun sock => { b with sock := sock }

def unlinkExisting (b : Receiving) : Option Receiving := some { b with path := false }

def finalBlock (b : Receiving) : Receiving :=
  { untilRaises [closeClientSock, closeSock, unlinkExisting] b with stage := .returned }

def step (cfg : Config) (b : Receiving) : Act UnixReceiver.Turn → Option Receiving
  | .socket =>
    if b.stage = .creating then some { b with stage := .binding, path := false, sock := .opened }
    else none
  | .bind =>
    if b.stage = .binding then some { b with stage := .listening, path := true } else none
  | .listen => if b.stage = .listening then some { b with stage := .accepting } else none
  | .accept =>
    if b.stage = .accepting then some { b with stage := .transferring, clientSock := .opened }
    else none
  | .turn t =>
    if b.stage = .transferring then
      (UnixReceiver.receiveData cfg b.receiver t).map fun receiver => { b with receiver := receiver }
    else none
  | .ends =>
    if b.stage = .transferring ∧ b.receiver.running = false then some b.finalBlock else none
  | .raises => if b.stage = .returned then none else some b.finalBlock
  | .tcpSocket | .wrapSocket | .connect => none

structure Released (b : Receiving) : Prop where
  path : b.path = false
  sock : b.sock ≠ .opened
  clientSock : b.clientSock ≠ .opened

def Holds (b : Receiving) : Prop :=
  match b.stage with
  | .creating => b.clientSock = .unbound ∧ b.sock = .unbound
  | .binding | .listening | .accepting => b.clientSock = .unbound ∧ b.sock = .opened
  | .transferring => b.clientSock = .opened ∧ b.sock = .opened
  | .returned =>
    b.clientSock = .unbound ∧ (b.sock = .unbound ∨ b.sock = .opened) ∨
      b.clientSock = .closed ∧ b.sock = .closed ∧ Released b
  | .tcpSocket | .wrapping | .connecting | .raised => False

variable {cfg : Config} {b c : Receiving} {a : Act UnixReceiver.Turn}
  {acts : List (Act UnixReceiver.Turn)}

theorem finalBlock_unbound (unbound : b.clientSock = .unbound) :
    b.finalBlock = { b with stage := .returned } := by
  have raises : closeClientSock b = none := by
    rw [closeClientSock, unbound]
    rfl
  rw [finalBlock, untilRaises_none raises]

theorem finalBlock_bound (client : b.clientSock = .opened) (sock : b.sock = .opened) :
    b.finalBlock = { b with
      stage := .returned, path := false, sock := .closed, clientSock := .closed } := by
  have clientCloses : closeClientSock b = some { b with clientSock := .closed } := by
    rw [closeClientSock, client]
    rfl
  have sockCloses : closeSock { b with clientSock := .closed } =
      some { b with sock := .closed, clientSock := .closed } := by
    simp only [closeSock, sock]
    rfl
  rw [finalBlock, untilRaises_some clientCloses, untilRaises_some sockCloses]
  rfl

theorem finalBlock_cases (holds : Holds b) (here : b.stage ≠ .returned) :
    b.clientSock = .unbound ∧ (b.sock = .unbound ∨ b.sock = .opened) ∧
        b.finalBlock = { b with stage := .returned } ∨
      b.clientSock = .opened ∧ b.sock = .opened ∧ b.finalBlock = { b with
        stage := .returned, path := false, sock := .closed, clientSock := .closed } := by
  unfold Holds at holds
  split at holds
  · exact .inl ⟨holds.1, .inl holds.2, finalBlock_unbound holds.1⟩
  · exact .inl ⟨holds.1, .inr holds.2, finalBlock_unbound holds.1⟩
  · exact .inl ⟨holds.1, .inr holds.2, finalBlock_unbound holds.1⟩
  · exact .inl ⟨holds.1, .inr holds.2, finalBlock_unbound holds.1⟩
  · exact .inr ⟨holds.1, holds.2, finalBlock_bound holds.1 holds.2⟩
  · exact absurd ‹_› here
  all_goals exact holds.elim

theorem finalBlock_holds (holds : Holds b) (here : b.stage ≠ .returned) :
    Holds b.finalBlock := by
  rcases finalBlock_cases holds here with ⟨client, sock, block⟩ | ⟨client, sock, block⟩
  · rw [block]
    exact .inl ⟨client, sock⟩
  · rw [block]
    right
    exact ⟨rfl, rfl, rfl, by simp, by simp⟩

theorem step_holds (holds : Holds b) (stepped : step cfg b a = some c) : Holds c := by
  cases a with
  | raises =>
    simp only [step, Option.ite_none_left_eq_some, Option.some.injEq] at stepped
    obtain ⟨here, rfl⟩ := stepped
    exact finalBlock_holds holds here
  | ends =>
    simp only [step, Option.ite_none_right_eq_some, Option.some.injEq] at stepped
    obtain ⟨⟨here, -⟩, rfl⟩ := stepped
    exact finalBlock_holds holds (by simp [here])
  | turn t =>
    simp only [step, Option.ite_none_right_eq_some] at stepped
    obtain ⟨here, stepped⟩ := stepped
    obtain ⟨receiver, -, rfl⟩ := Option.map_eq_some_iff.mp stepped
    simp only [Holds, here] at holds ⊢
    exact holds
  | tcpSocket | wrapSocket | connect => simp [step] at stepped
  | _ =>
    simp only [step, Option.ite_none_right_eq_some, Option.some.injEq] at stepped
    obtain ⟨here, rfl⟩ := stepped
    simp only [Holds, here] at holds ⊢
    simp [holds]

/-- Each variable is bound by the return of its call and by nothing else. -/
theorem step_bound (holds : Holds b) (stepped : step cfg b a = some c) :
    (c.clientSock = .unbound ↔ b.clientSock = .unbound ∧ a ≠ .accept) ∧
      (c.sock = .unbound ↔ b.sock = .unbound ∧ a ≠ .socket) := by
  have block : b.stage ≠ .returned → (b.finalBlock.clientSock = .unbound ↔ b.clientSock = .unbound) ∧
      (b.finalBlock.sock = .unbound ↔ b.sock = .unbound) := by
    intro here
    rcases finalBlock_cases holds here with ⟨client, sock, block⟩ | ⟨client, sock, block⟩
    · simp [block]
    · simp [block, client, sock]
  cases a with
  | raises =>
    simp only [step, Option.ite_none_left_eq_some, Option.some.injEq] at stepped
    obtain ⟨here, rfl⟩ := stepped
    simp [block here]
  | ends =>
    simp only [step, Option.ite_none_right_eq_some, Option.some.injEq] at stepped
    obtain ⟨⟨here, -⟩, rfl⟩ := stepped
    simp [block (by simp [here])]
  | turn t =>
    simp only [step, Option.ite_none_right_eq_some] at stepped
    obtain ⟨here, stepped⟩ := stepped
    obtain ⟨receiver, -, rfl⟩ := Option.map_eq_some_iff.mp stepped
    simp
  | tcpSocket | wrapSocket | connect => simp [step] at stepped
  | _ =>
    simp only [step, Option.ite_none_right_eq_some, Option.some.injEq] at stepped
    obtain ⟨here, rfl⟩ := stepped
    simp

theorem init_holds (cfg : Config) (path : Bool) : Holds (init cfg path) := ⟨rfl, rfl⟩

theorem run_bound {path : Bool} (reached : Runs.run (step cfg) (init cfg path) acts = some b) :
    (b.clientSock = .unbound ↔ .accept ∉ acts) ∧ (b.sock = .unbound ↔ .socket ∉ acts) := by
  constructor
  · rw [Runs.exact_never Holds (fun b => b.clientSock = .unbound) .accept
      (fun _ _ _ => step_holds) (fun _ _ _ holds stepped => (step_bound holds stepped).1)
      (init_holds cfg path) reached]
    exact and_iff_right rfl
  · rw [Runs.exact_never Holds (fun b => b.sock = .unbound) .socket
      (fun _ _ _ => step_holds) (fun _ _ _ holds stepped => (step_bound holds stepped).2)
      (init_holds cfg path) reached]
    exact and_iff_right rfl

/-- The same of `receive_data`, once its listening socket was created. -/
theorem released_iff {path : Bool}
    (reached : Runs.run (step cfg) (init cfg path) acts = some b)
    (returned : b.stage = .returned) (created : .socket ∈ acts) :
    Released b ↔ .accept ∈ acts := by
  have holds : Holds b :=
    Runs.invariant_run Holds (fun _ _ _ => step_holds) (init_holds cfg path) reached
  obtain ⟨client, sock⟩ := run_bound reached
  simp only [Holds, returned] at holds
  rcases holds with ⟨unbound, open_⟩ | ⟨closed, -, released⟩
  · have never := client.mp unbound
    have bound : b.sock = .opened := by
      rcases open_ with none | opened
      · exact absurd created (sock.mp none)
      · exact opened
    constructor
    · intro released
      exact absurd bound released.sock
    · intro accepted
      exact absurd accepted never
  · constructor
    · intro _
      by_contra never
      have unbound := client.mpr never
      rw [closed] at unbound
      exact absurd unbound (by decide)
    · intro _
      exact released

end Receiving

/-- A call that has created its listening socket, and has returned, has released everything if
    and only if `accept` had returned in it. -/
theorem tools_release_iff (cfg : Config) (path : Bool) :
    (∀ acts b, Runs.run (Sending.step cfg) (Sending.init cfg path) acts = some b →
      b.stage = .returned → (Sending.Released b ↔ .accept ∈ acts)) ∧
    ∀ acts b, Runs.run (Receiving.step cfg) (Receiving.init cfg path) acts = some b →
      b.stage = .returned → .socket ∈ acts → (Receiving.Released b ↔ .accept ∈ acts) := by
  constructor
  · intro acts b reached returned
    exact Sending.released_iff reached returned
  · intro acts b reached returned created
    exact Receiving.released_iff reached returned created

/-- An exception in the loop of `benchmark_send_unix`, after one chunk was sent. -/
theorem tools_release_from_loop : ∃ b, Runs.run (Sending.step tenSeconds)
    (Sending.init tenSeconds true)
    [.socket, .bind, .listen, .tcpSocket, .wrapSocket, .connect, .accept,
      .turn ⟨0, .received [1] true, 0⟩, .raises] = some b ∧ Sending.Released b := by
  obtain ⟨b, reached, returned⟩ : ∃ b, Runs.run (Sending.step tenSeconds)
      (Sending.init tenSeconds true)
      [.socket, .bind, .listen, .tcpSocket, .wrapSocket, .connect, .accept,
        .turn ⟨0, .received [1] true, 0⟩, .raises] = some b ∧ b.stage = .returned :=
    Runs.reaches (by decide +kernel)
  have released := (tools_release_iff tenSeconds true).1 _ b reached returned
  exact ⟨b, reached, released.mpr (by decide +kernel)⟩

/-- The server refuses the connection, and the listening socket and its path stay. -/
theorem refused_connection_leaves_path : ¬ ∀ (cfg : Config) (path : Bool)
    (acts : List (Act UnixSender.Turn)) (b : Sending),
    Runs.run (Sending.step cfg) (Sending.init cfg path) acts = some b →
      b.stage = .returned → Sending.Released b := by
  intro always
  obtain ⟨b, reached, returned, path⟩ : ∃ b, Runs.run (Sending.step tenSeconds)
      (Sending.init tenSeconds false)
      [.socket, .bind, .listen, .tcpSocket, .wrapSocket, .raises] = some b ∧
        b.stage = .returned ∧ b.path = true := Runs.reaches (by decide +kernel)
  have released := always tenSeconds false _ b reached returned
  rw [released.path] at path
  exact Bool.noConfusion path

end BenchmarkRelease
