import Mathlib

/-!
The accept loop of `TCPReceiver.start_server`. The TLS handshake of a connection is made in
the loop, and the handlers stand around the loop, so that the first handshake that raises
closes the listening socket, and no connection is served after it.
-/
namespace StartServer

inductive Handler where
  | handleClient
  | handleClientUnix (unixSocketPath : String)
  deriving DecidableEq

/-- `if unix_socket_path:`, which is not so of the empty string. -/
def handler : Option String → Handler
  | none => .handleClient
  | some path => if path = "" then .handleClient else .handleClientUnix path

/-- `handshake` is whether `wrap_socket` returns. -/
structure Connection where
  address : Nat
  handshake : Bool
  deriving DecidableEq

/-- `raises` is an exception that is not about one connection: a failed `accept` or
    `KeyboardInterrupt`. -/
inductive Event where
  | connects (c : Connection)
  | raises
  deriving DecidableEq

structure Thread where
  target : Handler
  address : Nat
  deriving DecidableEq

/-- `running` is the accept loop and `listening` is `server_sock`. -/
structure Server where
  running : Bool
  listening : Bool
  threads : List Thread
  deriving DecidableEq

def start : Server where
  running := true
  listening := true
  threads := []

/-- The handlers around the loop, and `server_sock.close()`. -/
def Server.ends (s : Server) : Server := { s with running := false, listening := false }

def startThread (unixSocketPath : Option String) (c : Connection) : Thread where
  target := handler unixSocketPath
  address := c.address

def step (unixSocketPath : Option String) (s : Server) (event : Event) : Server :=
  if s.running then
    match event with
    | .connects c =>
      if c.handshake then { s with threads := s.threads ++ [startThread unixSocketPath c] }
      else s.ends
    | .raises => s.ends
  else s

def startServer (unixSocketPath : Option String) (events : List Event) : Server :=
  events.foldl (step unixSocketPath) start

/-- Each client that made its handshake has its own thread, and the server waits for more. -/
structure Serves (unixSocketPath : Option String) (connections : List Connection) (s : Server) :
    Prop where
  threads : s.threads = (connections.filter Connection.handshake).map (startThread unixSocketPath)
  running : s.running = true
  listening : s.listening = true

variable {unixSocketPath : Option String} {s : Server} {events : List Event} {c : Connection}
  {connections : List Connection}

theorem step_stopped (stopped : s.running = false) (event : Event) :
    step unixSocketPath s event = s := by
  simp [step, stopped]

theorem step_handshake (running : s.running = true) (returns : c.handshake = true) :
    step unixSocketPath s (.connects c) =
      { s with threads := s.threads ++ [startThread unixSocketPath c] } := by
  rw [step, if_pos running]
  exact if_pos returns

theorem step_handshake_raises (running : s.running = true) (raises : c.handshake = false) :
    step unixSocketPath s (.connects c) = s.ends := by
  rw [step, if_pos running]
  exact if_neg (by simp [raises])

theorem stays_stopped (stopped : s.running = false) (events : List Event) :
    events.foldl (step unixSocketPath) s = s := by
  induction events with
  | nil => rfl
  | cons event events ih => rw [List.foldl_cons, step_stopped stopped, ih]

/-- The server serves the connections before the first handshake that raises, and it is
    still there if there is none. -/
theorem serves_until_handshake_raises (running : s.running = true) :
    (connections.map Event.connects).foldl (step unixSocketPath) s = {
      running := connections.all Connection.handshake
      listening := s.listening && connections.all Connection.handshake
      threads := s.threads ++
        (connections.takeWhile Connection.handshake).map (startThread unixSocketPath) } := by
  induction connections generalizing s with
  | nil =>
    simp only [List.map_nil, List.foldl_nil, List.all_nil, List.takeWhile_nil, Bool.and_true,
      List.append_nil]
    rw [← running]
  | cons c connections ih =>
    rw [List.map_cons, List.foldl_cons]
    cases made : c.handshake with
    | true =>
      rw [step_handshake running made, List.takeWhile_cons_of_pos made,
        ih (s := { s with threads := s.threads ++ [startThread unixSocketPath c] }) running]
      simp [made]
    | false =>
      rw [step_handshake_raises running made, stays_stopped rfl]
      simp [made, Server.ends]

theorem takeWhile_all (every : ∀ c ∈ connections, c.handshake = true) :
    connections.takeWhile Connection.handshake = connections.filter Connection.handshake := by
  rw [List.takeWhile_eq_self_iff.mpr every, List.filter_eq_self.mpr every]

/-- A server serves all its clients if and only if no handshake raises. -/
theorem every_client_served_iff (unixSocketPath : Option String)
    (connections : List Connection) :
    Serves unixSocketPath connections
        (startServer unixSocketPath (connections.map Event.connects)) ↔
      ∀ c ∈ connections, c.handshake = true := by
  rw [startServer, serves_until_handshake_raises rfl]
  constructor
  · intro serves
    exact List.all_eq_true.mp serves.running
  · intro every
    have all := List.all_eq_true.mpr every
    refine ⟨?_, all, ?_⟩
    · rw [takeWhile_all every]
      rfl
    · rw [all]
      rfl

/-- The client behind one whose handshake raises is not served. -/
theorem failed_handshake_ends_server : ¬ ∀ connections : List Connection,
    Serves none connections (startServer none (connections.map Event.connects)) := by
  intro always
  have threads := (always [⟨1, false⟩, ⟨2, true⟩]).threads
  simp [startServer, step, start, Server.ends] at threads

end StartServer
