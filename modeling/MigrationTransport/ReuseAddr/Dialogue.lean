import MigrationTransport.Lib.Ascii
import MigrationTransport.ReuseAddr.EchoServer

/-!
A client, `c1.py` or `c2.py`, and the thread of a server, `s1.py` or `s2.py`, at the two ends of
a connection. `sendall` and `recv` move any number of bytes at a time, so neither side need meet
the other's messages as they were sent.
-/
namespace Dialogue
open ByteStream
open EchoServer (decode encode receiveSize encode_append encode_decode)
open ReuseAddr (Connection Turn handleClient response)

inductive ClientScript where
  | c1
  | c2
  deriving DecidableEq

inductive ServerScript where
  | s1
  | s2
  deriving DecidableEq

def ClientScript.name : ClientScript → String
  | .c1 => "C1"
  | .c2 => "C2"

def ServerScript.name : ServerScript → String
  | .s1 => "S1"
  | .s2 => "S2"

/-- `room` is what the kernel holds of one direction. -/
structure Setup where
  client : ClientScript
  server : ServerScript
  room : Nat
  positive : 0 < room

/-- `sending` has what `sendall` has not sent yet. -/
inductive Phase where
  | sending (rest : Bytes)
  | receiving
  | sleeping
  | done
  deriving DecidableEq

/-- `shown` are the texts after `Received: `. -/
structure Client where
  phase : Phase
  counter : Nat
  shown : List String
  deriving DecidableEq

/-- Where the thread is: in `recv`, or in the `sendall` of the answer to `data`. -/
inductive Stage where
  | listening
  | answering (data rest : Bytes)
  deriving DecidableEq

structure System where
  client : Client
  toServer : Bytes
  toClient : Bytes
  server : Connection
  stage : Stage
  deriving DecidableEq

/-- `clientStops` is a `KeyboardInterrupt` or an exception of a call, and `wake` is the end of
    `time.sleep`. -/
inductive Act where
  | send (n : Nat)
  | receive (n : Nat)
  | receiveEmpty
  | wake
  | clientStops
  | hear (n : Nat)
  | reply (n : Nat)
  | hearEmpty
  | serverRaises
  deriving DecidableEq

def message (client : ClientScript) (counter : Nat) : String :=
  client.name ++ " message " ++ toString counter

def Client.begin (client : ClientScript) (c : Client) : Client :=
  { c with phase := .sending (encode (message client c.counter)) }

def start (client : ClientScript) : System where
  client := Client.begin client ⟨.sleeping, 1, []⟩
  toServer := []
  toClient := []
  server := ReuseAddr.init
  stage := .listening

def init (setup : Setup) : System := start setup.client

def Client.takes (c : Client) (data : Bytes) : Client :=
  match decode data with
  | some text =>
    { phase := .sleeping
      counter := c.counter + 1
      shown := c.shown ++ [text] }
  | none => { c with phase := .done }

def send (room : Nat) (s : System) (n : Nat) : Option System :=
  match s.client.phase with
  | .sending rest =>
    if 0 < n ∧ n ≤ rest.length ∧ s.toServer.length + n ≤ room then
      let phase := if rest.drop n = [] then .receiving else .sending (rest.drop n)
      some { s with
        client := { s.client with phase := phase }
        toServer := s.toServer ++ rest.take n }
    else none
  | .receiving | .sleeping | .done => none

def receive (s : System) (n : Nat) : Option System :=
  if s.client.phase = .receiving ∧ 0 < n ∧ n ≤ receiveSize ∧ n ≤ s.toClient.length then
    some { s with
      client := s.client.takes (s.toClient.take n)
      toClient := s.toClient.drop n }
  else none

/-- `recv` returns `b''` once the server has closed the connection. The loop does not look. -/
def receiveEmpty (s : System) : Option System :=
  if s.client.phase = .receiving ∧ s.toClient = [] ∧ s.server.closed then
    some { s with client := s.client.takes [] }
  else none

def turnEnds (server : ServerScript) (s : System) (turn : Turn) : Option System :=
  (handleClient server.name s.server turn).map fun server =>
    { s with server, stage := .listening }

def hear (server : ServerScript) (s : System) (n : Nat) : Option System :=
  if s.server.running ∧ s.stage = .listening ∧ 0 < n ∧ n ≤ receiveSize ∧
      n ≤ s.toServer.length then
    let data := s.toServer.take n
    let s := { s with toServer := s.toServer.drop n }
    match decode data with
    | some text => some { s with stage := .answering data (encode (response server.name text)) }
    | none => turnEnds server s ⟨.received data, true⟩
  else none

def reply (setup : Setup) (s : System) (n : Nat) : Option System :=
  match s.stage with
  | .answering data rest =>
    if 0 < n ∧ n ≤ rest.length ∧ s.toClient.length + n ≤ setup.room then
      let s := { s with toClient := s.toClient ++ rest.take n }
      if rest.drop n = [] then turnEnds setup.server s ⟨.received data, true⟩
      else some { s with stage := .answering data (rest.drop n) }
    else none
  | .listening => none

def hearEmpty (server : ServerScript) (s : System) : Option System :=
  if s.stage = .listening ∧ s.toServer = [] ∧ s.client.phase = .done then
    turnEnds server s ⟨.empty, true⟩
  else none

def serverRaises (server : ServerScript) (s : System) : Option System :=
  match s.stage with
  | .listening => turnEnds server s ⟨.raises, true⟩
  | .answering data _ => turnEnds server s ⟨.received data, false⟩

def step (setup : Setup) (s : System) : Act → Option System
  | .send n => send setup.room s n
  | .receive n => receive s n
  | .receiveEmpty => receiveEmpty s
  | .wake =>
    if s.client.phase = .sleeping then some { s with client := s.client.begin setup.client }
    else none
  | .clientStops =>
    if s.client.phase ≠ .done then some { s with client := { s.client with phase := .done } }
    else none
  | .hear n => hear setup.server s n
  | .reply n => reply setup s n
  | .hearEmpty => hearEmpty setup.server s
  | .serverRaises => serverRaises setup.server s

def messages (client : ClientScript) (count : Nat) : List String :=
  (List.range count).map fun k => message client (k + 1)

def Stage.text : Stage → List String
  | .listening => []
  | .answering data _ => (decode data).toList

def heard (s : System) : List String := s.server.decoded ++ s.stage.text

def bytesOf (texts : List String) : Bytes := encode (String.join texts)

def Unsent (client : ClientScript) (c : Client) (rest : Bytes) : Prop :=
  match c.phase with
  | .sending left => rest = left
  | .receiving => rest = []
  | .sleeping => rest = encode (message client c.counter)
  | .done => True

def Unanswered (s : System) (rest : Bytes) : Prop :=
  match s.stage with
  | .listening => s.server.running → rest = []
  | .answering data left => rest = left ∧ (decode data).isSome

structure Inv (setup : Setup) (s : System) : Prop where
  counted : s.client.counter = s.client.shown.length + 1
  asked : ∃ rest, Unsent setup.client s.client rest ∧
    bytesOf (heard s) ++ s.toServer ++ rest = bytesOf (messages setup.client s.client.counter)
  answered : ∃ rest, Unanswered s rest ∧ bytesOf s.client.shown ++ s.toClient ++ rest =
    bytesOf ((heard s).map (response setup.server.name))

variable {setup : Setup} {s t : System} {a : Act} {acts : List Act} {n : Nat} {data : Bytes}
  {text : String} {texts more : List String} {client : ClientScript} {server : ServerScript}

theorem bytesOf_append : bytesOf (texts ++ more) = bytesOf texts ++ bytesOf more := by
  rw [bytesOf, String.join_append, encode_append]
  rfl

theorem bytesOf_one (text : String) : bytesOf [text] = encode text := by
  rw [bytesOf, String.join_cons, String.join_nil, String.append_empty]

theorem bytesOf_cons (text : String) (texts : List String) :
    bytesOf (text :: texts) = encode text ++ bytesOf texts := by
  rw [bytesOf, String.join_cons, encode_append]
  rfl

theorem bytesOf_flatten (texts : List String) : bytesOf texts = (texts.map encode).flatten := by
  induction texts with
  | nil => rfl
  | cons text texts ih =>
    rw [bytesOf_cons, ih, List.map_cons, List.flatten_cons]

theorem messages_succ (client : ClientScript) (count : Nat) :
    messages client (count + 1) = messages client count ++ [message client (count + 1)] := by
  simp [messages, List.range_succ]

theorem message_ascii (client : ClientScript) (counter : Nat) :
    Utf8.Ascii (encode (message client counter)) := by
  have start : Utf8.Ascii (encode (client.name ++ " message ")) := by
    cases client with
    | c1 | c2 => decide +kernel
  rw [message, encode_append, Utf8.ascii_append]
  exact ⟨start, Utf8.ascii_digits counter⟩

theorem messages_ascii (client : ClientScript) (count : Nat) :
    Utf8.Ascii (bytesOf (messages client count)) := by
  rw [bytesOf_flatten]
  apply Utf8.ascii_flatten
  intro piece member
  simp only [messages, List.map_map, List.mem_map] at member
  obtain ⟨k, -, rfl⟩ := member
  exact message_ascii client (k + 1)

theorem response_ascii (ascii : Utf8.Ascii (encode text)) :
    Utf8.Ascii (encode (response server.name text)) := by
  have start : Utf8.Ascii (encode (server.name ++ " Echo: ")) := by
    cases server with
    | s1 | s2 => decide +kernel
  rw [response, encode_append, Utf8.ascii_append]
  exact ⟨start, ascii⟩

theorem responses_ascii (ascii : Utf8.Ascii (bytesOf texts)) :
    Utf8.Ascii (bytesOf (texts.map (response server.name))) := by
  induction texts with
  | nil => exact ascii
  | cons text texts ih =>
    rw [bytesOf_cons, Utf8.ascii_append] at ascii
    rw [List.map_cons, bytesOf_cons, Utf8.ascii_append]
    exact ⟨response_ascii ascii.1, ih ascii.2⟩

/-- Nothing that is ever sent has a byte that is not a character. -/
theorem inv_ascii (inv : Inv setup s) : Utf8.Ascii s.toServer ∧ Utf8.Ascii s.toClient := by
  obtain ⟨-, ⟨unsent, -, asked⟩, unanswered, -, answered⟩ := inv
  have every := messages_ascii setup.client s.client.counter
  rw [← asked, Utf8.ascii_append, Utf8.ascii_append] at every
  have replies : Utf8.Ascii (bytesOf ((heard s).map (response setup.server.name))) :=
    responses_ascii every.1.1
  rw [← answered, Utf8.ascii_append, Utf8.ascii_append] at replies
  exact ⟨every.1.2, replies.1.2⟩

theorem ascii_decode (ascii : Utf8.Ascii data) : ∃ text, decode data = some text :=
  Utf8.ascii_decode ascii

theorem takes_decoded (c : Client) (ascii : Utf8.Ascii data) :
    ∃ text, encode text = data ∧
      c.takes data = ⟨.sleeping, c.counter + 1, c.shown ++ [text]⟩ := by
  obtain ⟨text, decoded⟩ := ascii_decode ascii
  exact ⟨text, encode_decode decoded, by rw [Client.takes, decoded]⟩

theorem take_ascii (ascii : Utf8.Ascii data) (n : Nat) : Utf8.Ascii (data.take n) :=
  fun byte member => ascii byte (List.mem_of_mem_take member)

/-- The thread's turn is over: what it decoded is what it was answering. -/
theorem turnEnds_decoded {sends : Bool} (decoded : (decode data).isSome)
    (stepped : turnEnds server s ⟨.received data, sends⟩ = some t) :
    t.server.decoded = s.server.decoded ++ (decode data).toList ∧ t.server.running = sends := by
  obtain ⟨connection, turned, rfl⟩ := Option.map_eq_some_iff.mp stepped
  obtain ⟨running, turned⟩ := Option.ite_none_right_eq_some.mp turned
  obtain ⟨-, turned⟩ := Option.ite_none_right_eq_some.mp turned
  obtain ⟨text, found⟩ := Option.isSome_iff_exists.mp decoded
  rw [found, Option.some.injEq] at turned
  subst turned
  cases sends with
  | true => exact ⟨by rw [found]; rfl, running⟩
  | false => exact ⟨by rw [found]; rfl, rfl⟩

theorem turnEnds_frame {turn : Turn} (stepped : turnEnds server s turn = some t) :
    t.client = s.client ∧ t.toServer = s.toServer ∧ t.toClient = s.toClient ∧
      t.stage = .listening := by
  obtain ⟨connection, -, rfl⟩ := Option.map_eq_some_iff.mp stepped
  exact ⟨rfl, rfl, rfl, rfl⟩

/-- The end of an answer. Where the `sendall` raised, a part of it was not sent. -/
theorem answer_inv {sends : Bool} {rest : Bytes} (inv : Inv setup s)
    (here : s.stage = .answering data rest) (whole : sends = true → rest = [])
    (stepped : turnEnds setup.server s ⟨.received data, sends⟩ = some t) : Inv setup t := by
  obtain ⟨counted, ⟨unsent, holds, asked⟩, unanswered, left, answered⟩ := inv
  rw [Unanswered, here] at left
  obtain ⟨remains, decoded⟩ := left
  obtain ⟨more, running⟩ := turnEnds_decoded decoded stepped
  obtain ⟨sameClient, sameToServer, sameToClient, stage⟩ := turnEnds_frame stepped
  have same : heard t = heard s := by
    rw [heard, heard, more, stage, here]
    exact List.append_nil _
  rw [← same] at asked answered
  rw [← sameClient] at counted holds asked answered
  rw [← sameToServer] at asked
  rw [← sameToClient] at answered
  refine ⟨counted, ⟨unsent, holds, asked⟩, unanswered, ?_, answered⟩
  rw [Unanswered, stage]
  intro goesOn
  rw [remains]
  exact whole (running.symm.trans goesOn)

theorem silent_inv {recv : ReuseAddr.Recv} {sends : Bool} (inv : Inv setup s)
    (here : s.stage = .listening) (silent : ∀ data, recv ≠ .received data)
    (stepped : turnEnds setup.server s ⟨recv, sends⟩ = some t) : Inv setup t := by
  obtain ⟨connection, turned, rfl⟩ := Option.map_eq_some_iff.mp stepped
  obtain ⟨running, turned⟩ := Option.ite_none_right_eq_some.mp turned
  have kept : connection.decoded = s.server.decoded := by
    cases recv with
    | received data => exact absurd rfl (silent data)
    | empty | raises =>
      cases turned
      rfl
  obtain ⟨counted, ⟨unsent, holds, asked⟩, unanswered, left, answered⟩ := inv
  rw [heard, here, ← kept] at asked answered
  rw [Unanswered, here] at left
  exact ⟨counted, ⟨unsent, holds, asked⟩, unanswered, fun _ => left running, answered⟩

theorem init_inv : Inv setup (init setup) where
  counted := rfl
  asked := by
    refine ⟨_, rfl, ?_⟩
    exact (bytesOf_one _).symm
  answered := ⟨[], fun _ => rfl, rfl⟩

theorem send_inv (inv : Inv setup s) (stepped : send setup.room s n = some t) :
    Inv setup t := by
  obtain ⟨counted, ⟨unsent, holds, asked⟩, answered⟩ := inv
  unfold send at stepped
  split at stepped
  case h_1 rest here =>
    obtain ⟨-, stepped⟩ := Option.ite_none_right_eq_some.mp stepped
    cases stepped
    rw [Unsent, here] at holds
    refine ⟨counted, ⟨rest.drop n, ?_, ?_⟩, answered⟩
    · unfold Unsent
      by_cases last : rest.drop n = []
      · simp only [last, if_true]
      · simp only [last, if_false]
    · change bytesOf (heard s) ++ (s.toServer ++ rest.take n) ++ rest.drop n = _
      rw [List.append_assoc, List.append_assoc, List.take_append_drop, ← List.append_assoc,
        ← holds, asked]
  all_goals cases stepped

theorem takes_inv {rest : Bytes} (inv : Inv setup s) (here : s.client.phase = .receiving)
    (arrived : s.toClient = data ++ rest) :
    Inv setup { s with client := s.client.takes data, toClient := rest } := by
  have ascii : Utf8.Ascii data := by
    have every := (inv_ascii inv).2
    rw [arrived, Utf8.ascii_append] at every
    exact every.1
  obtain ⟨counted, ⟨unsent, holds, asked⟩, unanswered, left, answered⟩ := inv
  obtain ⟨text, same, took⟩ := takes_decoded s.client ascii
  rw [Unsent, here] at holds
  subst holds
  rw [took]
  refine ⟨by simp [counted], ⟨_, rfl, ?_⟩, unanswered, left, ?_⟩
  · change bytesOf (heard s) ++ s.toServer ++ _ = _
    rw [messages_succ, bytesOf_append, bytesOf_one, ← asked, List.append_nil]
  · change bytesOf (s.client.shown ++ [text]) ++ rest ++ unanswered = _
    rw [bytesOf_append, bytesOf_one, same, List.append_assoc (bytesOf _), ← arrived]
    exact answered

theorem hear_inv (inv : Inv setup s) (stepped : hear setup.server s n = some t) :
    Inv setup t := by
  have ascii := take_ascii (inv_ascii inv).1 n
  obtain ⟨counted, ⟨unsent, holds, asked⟩, unanswered, left, answered⟩ := inv
  obtain ⟨⟨running, here, -, -, -⟩, stepped⟩ := Option.ite_none_right_eq_some.mp stepped
  obtain ⟨text, decoded⟩ := ascii_decode ascii
  simp only [decoded, Option.some.injEq] at stepped
  have before : heard s = s.server.decoded := by
    rw [heard, here]
    exact List.append_nil _
  have after : heard t = heard s ++ [text] := by
    rw [← stepped, before, heard, Stage.text, decoded]
    rfl
  rw [Unanswered, here] at left
  have nothing := left running
  subst nothing
  subst stepped
  refine ⟨counted, ⟨unsent, holds, ?_⟩, _, ⟨rfl, Option.isSome_of_eq_some decoded⟩, ?_⟩
  · rw [after, bytesOf_append, bytesOf_one, encode_decode decoded, List.append_assoc (bytesOf _),
      List.take_append_drop]
    exact asked
  · rw [after, List.map_append, bytesOf_append, ← answered, List.append_nil, List.map_cons,
      List.map_nil, bytesOf_one]

theorem reply_inv (inv : Inv setup s) (stepped : reply setup s n = some t) : Inv setup t := by
  unfold reply at stepped
  split at stepped
  case h_1 data rest here =>
    obtain ⟨-, stepped⟩ := Option.ite_none_right_eq_some.mp stepped
    have moved : Inv setup { s with
        toClient := s.toClient ++ rest.take n, stage := .answering data (rest.drop n) } := by
      obtain ⟨counted, ⟨unsent, holds, asked⟩, unanswered, left, answered⟩ := inv
      rw [Unanswered, here] at left
      have same : heard { s with
          toClient := s.toClient ++ rest.take n, stage := .answering data (rest.drop n) } =
          heard s := by
        rw [heard, heard, here]
        rfl
      refine ⟨counted, ⟨unsent, holds, by rw [same]; exact asked⟩, _, ⟨rfl, left.2⟩, ?_⟩
      rw [same, ← answered, left.1]
      simp
    by_cases last : rest.drop n = []
    · rw [if_pos last] at stepped
      exact answer_inv moved rfl (fun _ => last) stepped
    · rw [if_neg last] at stepped
      cases stepped
      exact moved
  case h_2 => cases stepped

theorem raises_inv (inv : Inv setup s) (stepped : serverRaises setup.server s = some t) :
    Inv setup t := by
  unfold serverRaises at stepped
  split at stepped
  case h_1 here => exact silent_inv inv here (by simp) stepped
  case h_2 data rest here => exact answer_inv inv here (by simp) stepped

theorem step_inv (inv : Inv setup s) (stepped : step setup s a = some t) : Inv setup t := by
  cases a with
  | send n => exact send_inv inv stepped
  | receive n =>
    obtain ⟨⟨here, -, -, -⟩, stepped⟩ := Option.ite_none_right_eq_some.mp stepped
    cases stepped
    exact takes_inv inv here (List.take_append_drop n _).symm
  | receiveEmpty =>
    obtain ⟨⟨here, -, -⟩, stepped⟩ := Option.ite_none_right_eq_some.mp stepped
    cases stepped
    exact takes_inv inv here rfl
  | wake =>
    obtain ⟨here, stepped⟩ := Option.ite_none_right_eq_some.mp stepped
    cases stepped
    obtain ⟨counted, ⟨unsent, holds, asked⟩, answered⟩ := inv
    rw [Unsent, here] at holds
    exact ⟨counted, ⟨unsent, holds, asked⟩, answered⟩
  | clientStops =>
    obtain ⟨-, stepped⟩ := Option.ite_none_right_eq_some.mp stepped
    cases stepped
    obtain ⟨counted, ⟨unsent, -, asked⟩, answered⟩ := inv
    exact ⟨counted, ⟨unsent, trivial, asked⟩, answered⟩
  | hear n => exact hear_inv inv stepped
  | reply n => exact reply_inv inv stepped
  | hearEmpty =>
    obtain ⟨⟨here, -, -⟩, stepped⟩ := Option.ite_none_right_eq_some.mp stepped
    exact silent_inv inv here (by simp) stepped
  | serverRaises => exact raises_inv inv stepped

theorem reached_inv (reached : Runs.run (step setup) (init setup) acts = some s) :
    Inv setup s :=
  Runs.invariant_run (Inv setup) (fun _ _ _ inv stepped => step_inv inv stepped) init_inv reached

def ofThread : Act → Bool
  | .hear _ | .reply _ | .hearEmpty | .serverRaises => true
  | .send _ | .receive _ | .receiveEmpty | .wake | .clientStops => false

theorem thread_frame (ours : ofThread a = true) (stepped : step setup s a = some t) :
    t.client = s.client := by
  cases a with
  | send n | receive n | receiveEmpty | wake | clientStops => cases ours
  | hear n =>
    obtain ⟨-, stepped⟩ := Option.ite_none_right_eq_some.mp stepped
    dsimp only at stepped
    split at stepped
    · cases stepped
      rfl
    · exact (turnEnds_frame stepped).1
  | reply n =>
    change reply setup s n = some t at stepped
    unfold reply at stepped
    split at stepped
    · obtain ⟨-, stepped⟩ := Option.ite_none_right_eq_some.mp stepped
      dsimp only at stepped
      split at stepped
      · exact (turnEnds_frame stepped).1
      · cases stepped
        rfl
    · cases stepped
  | hearEmpty =>
    obtain ⟨-, stepped⟩ := Option.ite_none_right_eq_some.mp stepped
    exact (turnEnds_frame stepped).1
  | serverRaises =>
    change serverRaises setup.server s = some t at stepped
    unfold serverRaises at stepped
    split at stepped
    · exact (turnEnds_frame stepped).1
    · exact (turnEnds_frame stepped).1

theorem client_frame (ours : ofThread a = false) (stepped : step setup s a = some t) :
    t.server = s.server := by
  cases a with
  | hear n | reply n | hearEmpty | serverRaises => cases ours
  | send n =>
    change send setup.room s n = some t at stepped
    unfold send at stepped
    split at stepped
    case h_1 =>
      obtain ⟨-, stepped⟩ := Option.ite_none_right_eq_some.mp stepped
      cases stepped
      rfl
    all_goals cases stepped
  | receive n | receiveEmpty | wake | clientStops =>
    obtain ⟨-, stepped⟩ := Option.ite_none_right_eq_some.mp stepped
    cases stepped
    rfl

theorem step_client (inv : Inv setup s) (going : s.client.phase ≠ .done) (free : a ≠ .clientStops)
    (stepped : step setup s a = some t) : t.client.phase ≠ .done := by
  have takes : ∀ {data}, Utf8.Ascii data → (s.client.takes data).phase ≠ .done := by
    intro data ascii
    obtain ⟨text, -, took⟩ := takes_decoded s.client ascii
    simp [took]
  cases a with
  | send n =>
    change send setup.room s n = some t at stepped
    unfold send at stepped
    split at stepped
    case h_1 rest here =>
      obtain ⟨-, stepped⟩ := Option.ite_none_right_eq_some.mp stepped
      cases stepped
      dsimp only
      split <;> simp
    all_goals cases stepped
  | receive n =>
    obtain ⟨-, stepped⟩ := Option.ite_none_right_eq_some.mp stepped
    cases stepped
    exact takes (take_ascii (inv_ascii inv).2 n)
  | receiveEmpty =>
    obtain ⟨-, stepped⟩ := Option.ite_none_right_eq_some.mp stepped
    cases stepped
    exact takes (fun byte member => absurd member List.not_mem_nil)
  | wake =>
    obtain ⟨-, stepped⟩ := Option.ite_none_right_eq_some.mp stepped
    cases stepped
    simp [Client.begin]
  | clientStops => exact absurd rfl free
  | hear n | reply n | hearEmpty | serverRaises =>
    rw [thread_frame (by simp [ofThread]) stepped]
    exact going

theorem step_server (inv : Inv setup s) (going : s.server.running = true ∨ s.server.eof = true)
    (free : a ≠ .serverRaises) (stepped : step setup s a = some t) :
    t.server.running = true ∨ t.server.eof = true := by
  cases a with
  | send n | receive n | receiveEmpty | wake | clientStops =>
    rw [client_frame (by simp [ofThread]) stepped]
    exact going
  | hear n =>
    obtain ⟨text, decoded⟩ := ascii_decode (take_ascii (inv_ascii inv).1 n)
    obtain ⟨-, stepped⟩ := Option.ite_none_right_eq_some.mp stepped
    simp only [decoded, Option.some.injEq] at stepped
    cases stepped
    exact going
  | reply n =>
    change reply setup s n = some t at stepped
    unfold reply at stepped
    split at stepped
    case h_1 data rest here =>
      obtain ⟨unanswered, left, -⟩ := inv.answered
      rw [Unanswered, here] at left
      obtain ⟨-, stepped⟩ := Option.ite_none_right_eq_some.mp stepped
      by_cases last : rest.drop n = []
      · rw [if_pos last] at stepped
        exact .inl (turnEnds_decoded left.2 stepped).2
      · rw [if_neg last] at stepped
        cases stepped
        exact going
    case h_2 => cases stepped
  | hearEmpty =>
    obtain ⟨-, stepped⟩ := Option.ite_none_right_eq_some.mp stepped
    obtain ⟨connection, turned, rfl⟩ := Option.map_eq_some_iff.mp stepped
    obtain ⟨-, turned⟩ := Option.ite_none_right_eq_some.mp turned
    cases turned
    exact .inr rfl
  | serverRaises => exact absurd rfl free

/-- What the two sides have shown, after any run. Neither has failed to decode what came. -/
structure Exact (setup : Setup) (acts : List Act) (s : System) : Prop where
  asked : bytesOf (heard s) ++ s.toServer <+: bytesOf (messages setup.client s.client.counter)
  askedAll : s.client.phase = .receiving →
    bytesOf (heard s) ++ s.toServer = bytesOf (messages setup.client s.client.counter)
  answered : bytesOf s.client.shown ++ s.toClient <+:
    bytesOf ((heard s).map (response setup.server.name))
  answeredAll : s.server.running = true → s.stage = .listening →
    bytesOf s.client.shown ++ s.toClient = bytesOf ((heard s).map (response setup.server.name))
  counted : s.client.counter = s.client.shown.length + 1
  clientEnds : s.client.phase = .done → .clientStops ∈ acts
  serverEnds : s.server.running = false → s.server.eof = true ∨ .serverRaises ∈ acts

theorem reached_exact (reached : Runs.run (step setup) (init setup) acts = some s) :
    Exact setup acts s := by
  have inv := reached_inv reached
  obtain ⟨counted, ⟨unsent, holds, asked⟩, unanswered, left, answered⟩ := inv
  refine ⟨⟨unsent, asked⟩, ?_, ⟨unanswered, answered⟩, ?_, counted, ?_, ?_⟩
  · intro here
    rw [Unsent, here] at holds
    rw [← asked, holds, List.append_nil]
  · intro running here
    rw [Unanswered, here] at left
    rw [← answered, left running, List.append_nil]
  · intro ended
    by_contra absent
    have going := Runs.invariant_actions (fun s => Inv setup s ∧ s.client.phase ≠ .done)
      (fun a => a ≠ .clientStops) ?_ ⟨init_inv, by simp [init, start, Client.begin]⟩
      (fun a member => ne_of_mem_of_not_mem member absent) reached
    · exact going.2 ended
    · rintro s a t ⟨inv, going⟩ free stepped
      exact ⟨step_inv inv stepped, step_client inv going free stepped⟩
  · intro stopped
    by_contra neither
    obtain ⟨notEof, absent⟩ := not_or.mp neither
    have going := Runs.invariant_actions
      (fun s => Inv setup s ∧ (s.server.running = true ∨ s.server.eof = true))
      (fun a => a ≠ .serverRaises) ?_ ⟨init_inv, .inl rfl⟩
      (fun a member => ne_of_mem_of_not_mem member absent) reached
    · rcases going.2 with running | eof
      · exact absurd running (by simp [stopped])
      · exact notEof eof
    · rintro s a t ⟨inv, going⟩ free stepped
      exact ⟨step_inv inv stepped, step_server inv going free stepped⟩

end Dialogue
