import MigrationTransport.ReuseAddr.Dialogue

/-!
When the two programs of a dialogue can go on, and what they show where every message and every
answer is sent and received at once.
-/
namespace Dialogue
open ByteStream
open EchoServer (decode encode receiveSize encode_append encode_decode)
open ReuseAddr (Turn handleClient response)

/-- Nothing is interrupted and no call raises. -/
def quiet (a : Act) : Prop := a ≠ .clientStops ∧ a ≠ .serverRaises

def Blocked (setup : Setup) (s : System) : Prop :=
  (s.client.phase = .done ∨ ∃ rest, s.client.phase = .sending rest ∧
    setup.room ≤ s.toServer.length) ∧
  (s.server.running = true → s.stage ≠ .listening ∧ setup.room ≤ s.toClient.length)

/-- What is left of a call is never empty, and a client waits only for what is on its way. -/
structure Awaits (s : System) : Prop where
  sends : ∀ rest, s.client.phase = .sending rest → rest ≠ []
  answers : ∀ data rest, s.stage = .answering data rest →
    rest ≠ [] ∧ (0 < data.length ∧ data.length ≤ receiveSize) ∧ s.server.running = true
  waits : s.client.phase = .receiving → s.server.running = true →
    s.toServer ≠ [] ∨ s.toClient ≠ [] ∨ s.stage ≠ .listening
  closed : s.server.closed = !s.server.running

def Phase.unsent : Phase → Bytes
  | .sending rest => rest
  | .receiving | .sleeping | .done => []

def Stage.unsent : Stage → Bytes
  | .answering _ rest => rest
  | .listening => []

/-- Each call moves all that there is, and no program is stopped. -/
def Whole (s : System) : Act → Prop
  | .send n => n = s.client.phase.unsent.length
  | .receive n => n = s.toClient.length
  | .hear n => n = s.toServer.length
  | .reply n => n = s.stage.unsent.length
  | .clientStops | .serverRaises => False
  | .receiveEmpty | .wake | .hearEmpty => True

instance (s : System) : DecidablePred (Whole s)
  | .send n => inferInstanceAs (Decidable (n = _))
  | .receive n => inferInstanceAs (Decidable (n = _))
  | .hear n => inferInstanceAs (Decidable (n = _))
  | .reply n => inferInstanceAs (Decidable (n = _))
  | .clientStops | .serverRaises => inferInstanceAs (Decidable False)
  | .receiveEmpty | .wake | .hearEmpty => inferInstanceAs (Decidable True)

inductive InStep (setup : Setup) (k : Nat) (s : System) : Prop where
  | rests (phase : s.client.phase = .sleeping ∨
        s.client.phase = .sending (encode (message setup.client (k + 1))))
      (toServer : s.toServer = []) (toClient : s.toClient = []) (stage : s.stage = .listening)
      (decoded : s.server.decoded = messages setup.client k)
  | asked (phase : s.client.phase = .receiving)
      (toServer : s.toServer = encode (message setup.client (k + 1))) (toClient : s.toClient = [])
      (stage : s.stage = .listening) (decoded : s.server.decoded = messages setup.client k)
  | heard (phase : s.client.phase = .receiving) (toServer : s.toServer = [])
      (toClient : s.toClient = [])
      (stage : s.stage = .answering (encode (message setup.client (k + 1)))
        (encode (response setup.server.name (message setup.client (k + 1)))))
      (decoded : s.server.decoded = messages setup.client k)
  | answered (phase : s.client.phase = .receiving) (toServer : s.toServer = [])
      (toClient : s.toClient =
        encode (response setup.server.name (message setup.client (k + 1))))
      (stage : s.stage = .listening)
      (decoded : s.server.decoded = messages setup.client (k + 1))

/-- The client has shown the answers to its first messages, one by one. -/
structure Lockstep (setup : Setup) (s : System) : Prop where
  stands : InStep setup s.client.shown.length s
  shown : s.client.shown =
    (messages setup.client s.client.shown.length).map (response setup.server.name)
  counted : s.client.counter = s.client.shown.length + 1
  running : s.server.running = true

variable {setup : Setup} {s t : System} {a : Act} {acts : List Act} {n : Nat} {data rest : Bytes}
  {client : ClientScript} {server : ServerScript}

theorem message_positive (client : ClientScript) (counter : Nat) :
    encode (message client counter) ≠ [] := by
  have start : encode client.name ≠ [] := by
    cases client with
    | c1 | c2 => decide +kernel
  rw [message, encode_append, encode_append]
  simp [start]

theorem response_positive (server : ServerScript) (text : String) :
    encode (response server.name text) ≠ [] := by
  have start : encode server.name ≠ [] := by
    cases server with
    | s1 | s2 => decide +kernel
  rw [response, encode_append, encode_append]
  simp [start]

theorem init_awaits : Awaits (init setup) where
  sends := by
    intro rest here
    cases here
    exact message_positive setup.client 1
  answers := by
    intro data rest here
    cases here
  waits := by
    intro here
    cases here
  closed := rfl

theorem turnEnds_closed {turn : Turn} (same : s.server.closed = !s.server.running)
    (stepped : turnEnds server s turn = some t) : t.server.closed = !t.server.running := by
  obtain ⟨connection, turned, rfl⟩ := Option.map_eq_some_iff.mp stepped
  obtain ⟨running, turned⟩ := Option.ite_none_right_eq_some.mp turned
  dsimp only
  split at turned
  · obtain ⟨-, turned⟩ := Option.ite_none_right_eq_some.mp turned
    split at turned
    · cases turned
      unfold ReuseAddr.answer
      split
      · exact same
      · rfl
    · cases turned
      rfl
  · cases turned
    rfl
  · cases turned
    rfl

/-- The end of a turn leaves the client waiting for what was sent, or without a server. -/
theorem turnEnds_awaits {turn : Turn} (awaits : Awaits s)
    (left : s.client.phase = .receiving →
      s.toServer ≠ [] ∨ s.toClient ≠ [] ∨ t.server.running = false)
    (stepped : turnEnds server s turn = some t) : Awaits t := by
  obtain ⟨sameClient, sameToServer, sameToClient, stage⟩ := turnEnds_frame stepped
  have closed := turnEnds_closed awaits.closed stepped
  refine ⟨?_, ?_, ?_, closed⟩
  · rw [sameClient]
    exact awaits.sends
  · intro data rest here
    rw [stage] at here
    cases here
  · rw [sameClient, sameToServer, sameToClient]
    intro here running
    rcases left here with toServer | toClient | stopped
    · exact .inl toServer
    · exact .inr (.inl toClient)
    · rw [stopped] at running
      cases running

theorem send_awaits (awaits : Awaits s) (stepped : send setup.room s n = some t) : Awaits t := by
  unfold send at stepped
  split at stepped
  case h_1 rest here =>
    obtain ⟨⟨positive, fits, -⟩, stepped⟩ := Option.ite_none_right_eq_some.mp stepped
    cases stepped
    obtain ⟨-, answers, -, closed⟩ := awaits
    refine ⟨?_, answers, ?_, closed⟩
    · intro left phase
      dsimp only at phase
      split at phase
      case isTrue => cases phase
      case isFalse more =>
        cases phase
        exact more
    · intro _ _
      left
      intro empty
      have moved := congrArg List.length (List.append_eq_nil_iff.mp empty).2
      rw [List.length_take, List.length_nil] at moved
      omega
  all_goals cases stepped

theorem takes_awaits {left : Bytes} (awaits : Awaits s) (ascii : Utf8.Ascii data) :
    Awaits { s with client := s.client.takes data, toClient := left } := by
  obtain ⟨text, -, took⟩ := takes_decoded s.client ascii
  rw [took]
  obtain ⟨-, answers, -, closed⟩ := awaits
  refine ⟨?_, answers, ?_, closed⟩
  · intro rest phase
    cases phase
  · intro phase
    cases phase

theorem hear_awaits (inv : Inv setup s) (awaits : Awaits s)
    (stepped : hear setup.server s n = some t) : Awaits t := by
  obtain ⟨text, decoded⟩ := ascii_decode (take_ascii (inv_ascii inv).1 n)
  obtain ⟨⟨running, -, positive, size, fits⟩, stepped⟩ :=
    Option.ite_none_right_eq_some.mp stepped
  simp only [decoded, Option.some.injEq] at stepped
  cases stepped
  obtain ⟨sends, -, -, closed⟩ := awaits
  refine ⟨sends, ?_, ?_, closed⟩
  · intro data rest stage
    cases stage
    refine ⟨response_positive setup.server text, ?_, running⟩
    rw [List.length_take]
    omega
  · intro _ _
    exact .inr (.inr (by simp))

theorem reply_awaits (awaits : Awaits s) (stepped : reply setup s n = some t) : Awaits t := by
  unfold reply at stepped
  split at stepped
  case h_1 data rest here =>
    obtain ⟨⟨positive, fits, -⟩, stepped⟩ := Option.ite_none_right_eq_some.mp stepped
    have arrived : s.toClient ++ rest.take n ≠ [] := by
      intro empty
      have moved := congrArg List.length (List.append_eq_nil_iff.mp empty).2
      rw [List.length_take, List.length_nil] at moved
      omega
    obtain ⟨sends, answers, -, closed⟩ := awaits
    have moved : Awaits { s with toClient := s.toClient ++ rest.take n } :=
      ⟨sends, answers, fun _ _ => .inr (.inl arrived), closed⟩
    by_cases last : rest.drop n = []
    · rw [if_pos last] at stepped
      exact turnEnds_awaits moved (fun _ => .inr (.inl arrived)) stepped
    · rw [if_neg last] at stepped
      cases stepped
      obtain ⟨-, size, running⟩ := answers data rest here
      refine ⟨sends, ?_, fun _ _ => .inr (.inl arrived), closed⟩
      intro data rest stage
      cases stage
      exact ⟨last, size, running⟩
  case h_2 => cases stepped

theorem silent_stops {recv : ReuseAddr.Recv} {sends : Bool} (silent : sends = false ∨
    ∀ data, recv ≠ .received data) (stepped : turnEnds server s ⟨recv, sends⟩ = some t) :
    t.server.running = false := by
  obtain ⟨connection, turned, rfl⟩ := Option.map_eq_some_iff.mp stepped
  obtain ⟨-, turned⟩ := Option.ite_none_right_eq_some.mp turned
  dsimp only at turned
  cases recv with
  | received data =>
    rcases silent with silent | silent
    · obtain ⟨-, turned⟩ := Option.ite_none_right_eq_some.mp turned
      rw [silent] at turned
      split at turned
      · cases turned
        rfl
      · cases turned
        rfl
    · exact absurd rfl (silent data)
  | empty | raises =>
    cases turned
    rfl

theorem step_awaits (inv : Inv setup s) (awaits : Awaits s) (stepped : step setup s a = some t) :
    Awaits t := by
  cases a with
  | send n => exact send_awaits awaits stepped
  | receive n =>
    obtain ⟨-, stepped⟩ := Option.ite_none_right_eq_some.mp stepped
    cases stepped
    exact takes_awaits awaits (take_ascii (inv_ascii inv).2 n)
  | receiveEmpty =>
    obtain ⟨-, stepped⟩ := Option.ite_none_right_eq_some.mp stepped
    cases stepped
    exact takes_awaits awaits (fun byte member => absurd member List.not_mem_nil)
  | wake =>
    obtain ⟨-, stepped⟩ := Option.ite_none_right_eq_some.mp stepped
    cases stepped
    obtain ⟨-, answers, -, closed⟩ := awaits
    refine ⟨?_, answers, ?_, closed⟩
    · intro rest phase
      cases phase
      exact message_positive setup.client s.client.counter
    · intro phase
      cases phase
  | clientStops =>
    obtain ⟨-, stepped⟩ := Option.ite_none_right_eq_some.mp stepped
    cases stepped
    obtain ⟨-, answers, -, closed⟩ := awaits
    refine ⟨?_, answers, ?_, closed⟩
    · intro rest phase
      cases phase
    · intro phase
      cases phase
  | hear n => exact hear_awaits inv awaits stepped
  | reply n => exact reply_awaits awaits stepped
  | hearEmpty =>
    obtain ⟨-, stepped⟩ := Option.ite_none_right_eq_some.mp stepped
    have stopped := silent_stops (.inr (by simp)) stepped
    exact turnEnds_awaits awaits (fun _ => .inr (.inr stopped)) stepped
  | serverRaises =>
    change serverRaises setup.server s = some t at stepped
    unfold serverRaises at stepped
    split at stepped
    · have stopped := silent_stops (.inr (by simp)) stepped
      exact turnEnds_awaits awaits (fun _ => .inr (.inr stopped)) stepped
    · have stopped := silent_stops (.inl rfl) stepped
      exact turnEnds_awaits awaits (fun _ => .inr (.inr stopped)) stepped

theorem reached_awaits (reached : Runs.run (step setup) (init setup) acts = some s) :
    Inv setup s ∧ Awaits s := by
  apply Runs.invariant_run (fun s => Inv setup s ∧ Awaits s) ?_ ⟨init_inv, init_awaits⟩ reached
  rintro s a t ⟨inv, awaits⟩ stepped
  exact ⟨step_inv inv stepped, step_awaits inv awaits stepped⟩

theorem turnEnds_enabled {recv : ReuseAddr.Recv} {sends : Bool} (running : s.server.running = true)
    (size : ∀ data, recv = .received data → 0 < data.length ∧ data.length ≤ receiveSize) :
    turnEnds server s ⟨recv, sends⟩ ≠ none := by
  rw [turnEnds, ne_eq, Option.map_eq_none_iff, handleClient, if_pos running]
  cases recv with
  | received data =>
    dsimp only
    rw [if_pos (size data rfl)]
    split <;> simp
  | empty | raises => simp

theorem send_enabled (awaits : Awaits s) (here : s.client.phase = .sending rest)
    (left : s.toServer.length < setup.room) : step setup s (.send 1) ≠ none := by
  have positive := List.length_pos_iff.mpr (awaits.sends rest here)
  have fits : 0 < 1 ∧ 1 ≤ rest.length ∧ s.toServer.length + 1 ≤ setup.room := by omega
  simp [step, send, here, fits]

theorem receive_enabled (here : s.client.phase = .receiving) (waiting : s.toClient ≠ []) :
    step setup s (.receive 1) ≠ none := by
  have positive := List.length_pos_iff.mpr waiting
  have fits : 1 ≤ receiveSize ∧ 1 ≤ s.toClient.length := ⟨by decide, by omega⟩
  simp [step, receive, here, fits]

theorem hear_enabled (running : s.server.running = true) (here : s.stage = .listening)
    (waiting : s.toServer ≠ []) : step setup s (.hear 1) ≠ none := by
  have positive := List.length_pos_iff.mpr waiting
  have fits : 1 ≤ receiveSize ∧ 1 ≤ s.toServer.length := ⟨by decide, by omega⟩
  have size : 0 < (s.toServer.take 1).length ∧ (s.toServer.take 1).length ≤ receiveSize := by
    rw [List.length_take]
    omega
  change hear setup.server s 1 ≠ none
  rw [hear, if_pos ⟨running, here, by decide, fits⟩]
  dsimp only
  split
  · simp
  · exact turnEnds_enabled running (by rintro data same; cases same; exact size)

theorem reply_enabled (awaits : Awaits s) (here : s.stage = .answering data rest)
    (left : s.toClient.length < setup.room) : step setup s (.reply 1) ≠ none := by
  obtain ⟨more, size, running⟩ := awaits.answers data rest here
  have positive := List.length_pos_iff.mpr more
  have fits : 0 < 1 ∧ 1 ≤ rest.length ∧ s.toClient.length + 1 ≤ setup.room := by omega
  change reply setup s 1 ≠ none
  simp only [reply, here, fits, and_self, if_true]
  split
  · exact turnEnds_enabled running (by rintro data same; cases same; exact size)
  · simp

theorem blocked_client (awaits : Awaits s) (stuck : ∀ a, quiet a → step setup s a = none) :
    s.client.phase = .done ∨ ∃ rest, s.client.phase = .sending rest ∧
      setup.room ≤ s.toServer.length := by
  have positive := setup.positive
  cases here : s.client.phase with
  | done => exact .inl rfl
  | sending rest =>
    refine .inr ⟨rest, rfl, ?_⟩
    by_contra left
    exact send_enabled awaits here (by omega) (stuck (.send 1) (by simp [quiet]))
  | sleeping =>
    have awake := stuck .wake (by simp [quiet])
    simp [step, here] at awake
  | receiving =>
    exfalso
    by_cases nothing : s.toClient = []
    · cases running : s.server.running with
      | false =>
        have closed := awaits.closed
        rw [running] at closed
        have ended := stuck .receiveEmpty (by simp [quiet])
        simp [step, receiveEmpty, here, nothing, closed] at ended
      | true =>
        cases stage : s.stage with
        | listening =>
          rcases awaits.waits here running with waiting | waiting | other
          · exact hear_enabled running stage waiting (stuck (.hear 1) (by simp [quiet]))
          · exact waiting nothing
          · exact other stage
        | answering data rest =>
          refine reply_enabled awaits stage ?_ (stuck (.reply 1) (by simp [quiet]))
          rw [nothing]
          exact positive
    · exact receive_enabled here nothing (stuck (.receive 1) (by simp [quiet]))

theorem blocked_thread (awaits : Awaits s) (stuck : ∀ a, quiet a → step setup s a = none)
    (running : s.server.running = true) :
    s.stage ≠ .listening ∧ setup.room ≤ s.toClient.length := by
  have positive := setup.positive
  cases stage : s.stage with
  | answering data rest =>
    refine ⟨by simp, ?_⟩
    by_contra left
    exact reply_enabled awaits stage (by omega) (stuck (.reply 1) (by simp [quiet]))
  | listening =>
    exfalso
    by_cases nothing : s.toServer = []
    · rcases blocked_client awaits stuck with ended | ⟨rest, -, full⟩
      · have ends := stuck .hearEmpty (by simp [quiet])
        simp only [step, hearEmpty, stage, nothing, ended, and_self, if_true] at ends
        exact turnEnds_enabled running (by simp) ends
      · rw [nothing] at full
        exact absurd positive (Nat.not_lt.mpr full)
    · exact hear_enabled running stage nothing (stuck (.hear 1) (by simp [quiet]))

theorem blocked_stuck (blocked : Blocked setup s) (awaits : Awaits s) (free : quiet a) :
    step setup s a = none := by
  obtain ⟨client, thread⟩ := blocked
  have ended : ∀ turn, s.server.running = false → turnEnds setup.server s turn = none := by
    intro turn stopped
    simp [turnEnds, handleClient, stopped]
  cases a with
  | send n =>
    rcases client with done | ⟨rest, here, full⟩
    · simp [step, send, done]
    · have noRoom : ¬ (0 < n ∧ n ≤ rest.length ∧ s.toServer.length + n ≤ setup.room) := by omega
      simp only [step, send, here, noRoom, if_false]
  | receive n =>
    rcases client with done | ⟨rest, here, -⟩
    · simp [step, receive, done]
    · simp [step, receive, here]
  | receiveEmpty =>
    rcases client with done | ⟨rest, here, -⟩
    · simp [step, receiveEmpty, done]
    · simp [step, receiveEmpty, here]
  | wake =>
    rcases client with done | ⟨rest, here, -⟩
    · simp [step, done]
    · simp [step, here]
  | clientStops => exact absurd rfl free.1
  | hear n =>
    have notHere : ¬ (s.server.running = true ∧ s.stage = .listening ∧ 0 < n ∧ n ≤ receiveSize ∧
        n ≤ s.toServer.length) := fun here => (thread here.1).1 here.2.1
    simp only [step, hear, notHere, if_false]
  | reply n =>
    change reply setup s n = none
    unfold reply
    split
    · rename_i data rest stage
      have full := (thread (awaits.answers data rest stage).2.2).2
      have noRoom : ¬ (0 < n ∧ n ≤ rest.length ∧ s.toClient.length + n ≤ setup.room) := by omega
      rw [if_neg noRoom]
    · rfl
  | hearEmpty =>
    change hearEmpty setup.server s = none
    unfold hearEmpty
    split
    · rename_i here
      cases running : s.server.running with
      | false => exact ended _ running
      | true => exact absurd here.1 (thread running).1
    · rfl
  | serverRaises => exact absurd rfl free.2

/-- The two programs can always go on, unless each that still runs is in a `sendall` and the
    kernel has no room left in that direction. -/
theorem stuck_blocked (reached : Runs.run (step setup) (init setup) acts = some s) :
    (∀ a, quiet a → step setup s a = none) ↔ Blocked setup s := by
  obtain ⟨-, awaits⟩ := reached_awaits reached
  constructor
  · intro stuck
    exact ⟨blocked_client awaits stuck, blocked_thread awaits stuck⟩
  · intro blocked a free
    exact blocked_stuck blocked awaits free

/-- Room for one message. The client reads a byte at a time, and so sends more than it reads. -/
def small : Setup := ⟨.c1, .s1, 12, by decide⟩

def byteWise : List Act :=
  [.send 12, .hear 12, .reply 12, .receive 1, .wake, .send 12, .reply 1, .receive 1, .wake,
    .reply 1]

theorem stuck_blocked_full : ∃ s, Runs.run (step small) (init small) byteWise = some s ∧
    s.server.running = true ∧ s.client.phase ≠ .done ∧ ∀ a, quiet a → step small s a = none := by
  obtain ⟨s, reached, running, here, full, stage, answers⟩ : ∃ s,
      Runs.run (step small) (init small) byteWise = some s ∧ s.server.running = true ∧
      s.client.phase = .sending (encode (message .c1 3)) ∧ 12 ≤ s.toServer.length ∧
      s.stage ≠ .listening ∧ 12 ≤ s.toClient.length := Runs.reaches (by decide +kernel)
  refine ⟨s, reached, running, by rw [here]; simp, ?_⟩
  exact (stuck_blocked reached).mpr ⟨.inr ⟨_, here, full⟩, fun _ => ⟨stage, answers⟩⟩

theorem decode_encode (text : String) : decode (encode text) = some text := by
  have same : (encode text).toByteArray = text.toByteArray := by
    apply ByteArray.ext
    rw [List.data_toByteArray]
    exact Array.toArray_toList
  exact Utf8.decode_some.mpr same

theorem init_lockstep : Lockstep setup (init setup) where
  stands := .rests (.inr rfl) rfl rfl rfl rfl
  shown := rfl
  counted := rfl
  running := rfl

theorem send_lockstep (lockstep : Lockstep setup s) (all : Whole s (.send n))
    (stepped : send setup.room s n = some t) : Lockstep setup t := by
  obtain ⟨stands, shown, counted, running⟩ := lockstep
  unfold send at stepped
  split at stepped
  case h_1 rest here =>
    obtain ⟨-, stepped⟩ := Option.ite_none_right_eq_some.mp stepped
    rw [Whole, here, Phase.unsent] at all
    rw [all, List.drop_length, List.take_length] at stepped
    cases stepped
    refine ⟨?_, shown, counted, running⟩
    cases stands with
    | rests phase toServer toClient stage decoded =>
      have same : rest = encode (message setup.client (s.client.shown.length + 1)) := by
        rcases phase with sleeping | sending
        · rw [here] at sleeping
          cases sleeping
        · rw [here] at sending
          exact Phase.sending.inj sending
      refine .asked rfl ?_ toClient stage decoded
      rw [toServer, same]
      rfl
    | asked phase | heard phase | answered phase =>
      rw [here] at phase
      cases phase
  all_goals cases stepped

theorem receive_lockstep (lockstep : Lockstep setup s) (all : Whole s (.receive n))
    (stepped : receive s n = some t) : Lockstep setup t := by
  obtain ⟨stands, shown, counted, running⟩ := lockstep
  obtain ⟨⟨here, positive, -, fits⟩, stepped⟩ := Option.ite_none_right_eq_some.mp stepped
  rw [Whole] at all
  rw [all, List.drop_length, List.take_length] at stepped
  cases stands with
  | rests phase =>
    rw [here] at phase
    rcases phase with phase | phase
    · cases phase
    · cases phase
  | asked phase toServer toClient | heard phase toServer toClient =>
    rw [toClient, List.length_nil] at fits
    omega
  | answered phase toServer toClient stage decoded =>
    simp only [toClient, Client.takes, decode_encode] at stepped
    cases stepped
    have longer : ∀ text, (s.client.shown ++ [text]).length = s.client.shown.length + 1 :=
      fun text => by rw [List.length_append, List.length_singleton]
    refine ⟨?_, ?_, ?_, running⟩
    · dsimp only
      rw [longer]
      exact .rests (.inl rfl) toServer rfl stage decoded
    · dsimp only
      rw [longer, messages_succ, List.map_append, ← shown]
      rfl
    · dsimp only
      rw [longer, counted]

theorem hear_lockstep (lockstep : Lockstep setup s) (all : Whole s (.hear n))
    (stepped : hear setup.server s n = some t) : Lockstep setup t := by
  obtain ⟨stands, shown, counted, running⟩ := lockstep
  obtain ⟨⟨-, here, positive, -, fits⟩, stepped⟩ := Option.ite_none_right_eq_some.mp stepped
  rw [Whole] at all
  rw [all, List.drop_length, List.take_length] at stepped
  cases stands with
  | rests phase toServer | answered phase toServer =>
    rw [toServer, List.length_nil] at fits
    omega
  | asked phase toServer toClient stage decoded =>
    simp only [toServer, decode_encode, Option.some.injEq] at stepped
    cases stepped
    exact ⟨.heard phase rfl toClient rfl decoded, shown, counted, running⟩
  | heard phase toServer toClient stage =>
    rw [here] at stage
    cases stage

theorem reply_lockstep (lockstep : Lockstep setup s) (all : Whole s (.reply n))
    (stepped : reply setup s n = some t) : Lockstep setup t := by
  obtain ⟨stands, shown, counted, running⟩ := lockstep
  cases stands with
  | rests _ _ _ stage | asked _ _ _ stage | answered _ _ _ stage =>
    simp [reply, stage] at stepped
  | heard phase toServer toClient stage decoded =>
    rw [Whole, stage, Stage.unsent] at all
    simp only [reply, stage, Option.ite_none_right_eq_some] at stepped
    obtain ⟨-, stepped⟩ := stepped
    rw [all, List.drop_length, List.take_length, if_pos rfl] at stepped
    have isText := Option.isSome_of_eq_some (decode_encode (message setup.client
      (s.client.shown.length + 1)))
    obtain ⟨more, runs⟩ := turnEnds_decoded isText stepped
    obtain ⟨sameClient, sameToServer, sameToClient, ends⟩ := turnEnds_frame stepped
    refine ⟨.answered ?_ ?_ ?_ ends ?_, ?_, ?_, runs⟩
    · rw [sameClient]
      exact phase
    · rw [sameToServer]
      exact toServer
    · rw [sameToClient, sameClient, toClient]
      rfl
    · rw [more, decode_encode, sameClient, messages_succ, ← decoded]
      rfl
    · rw [sameClient]
      exact shown
    · rw [sameClient]
      exact counted

theorem lockstep_phase (lockstep : Lockstep setup s) : s.client.phase ≠ .done := by
  intro ended
  cases lockstep.stands with
  | rests phase =>
    rw [ended] at phase
    rcases phase with phase | phase
    · cases phase
    · cases phase
  | asked phase | heard phase | answered phase =>
    rw [ended] at phase
    cases phase

theorem step_lockstep (awaits : Awaits s) (lockstep : Lockstep setup s) (all : Whole s a)
    (stepped : step setup s a = some t) : Lockstep setup t := by
  cases a with
  | send n => exact send_lockstep lockstep all stepped
  | receive n => exact receive_lockstep lockstep all stepped
  | receiveEmpty =>
    obtain ⟨⟨-, -, closed⟩, -⟩ := Option.ite_none_right_eq_some.mp stepped
    rw [awaits.closed, lockstep.running] at closed
    cases closed
  | wake =>
    obtain ⟨stands, shown, counted, running⟩ := lockstep
    obtain ⟨here, stepped⟩ := Option.ite_none_right_eq_some.mp stepped
    cases stepped
    refine ⟨?_, shown, counted, running⟩
    cases stands with
    | rests phase toServer toClient stage decoded =>
      refine .rests (.inr ?_) toServer toClient stage decoded
      change Phase.sending (encode (message setup.client s.client.counter)) = _
      rw [counted]
      rfl
    | asked phase | heard phase | answered phase =>
      rw [here] at phase
      cases phase
  | clientStops | serverRaises => exact absurd all id
  | hear n => exact hear_lockstep lockstep all stepped
  | reply n => exact reply_lockstep lockstep all stepped
  | hearEmpty =>
    obtain ⟨⟨-, -, ended⟩, -⟩ := Option.ite_none_right_eq_some.mp stepped
    exact absurd ended (lockstep_phase lockstep)

theorem lockstep_decoded (lockstep : Lockstep setup s) :
    s.server.decoded = messages setup.client s.client.shown.length ∨
      s.server.decoded = messages setup.client (s.client.shown.length + 1) := by
  cases lockstep.stands with
  | rests _ _ _ _ decoded | asked _ _ _ _ decoded | heard _ _ _ _ decoded => exact .inl decoded
  | answered _ _ _ _ decoded => exact .inr decoded

/-- Where each call moves all that there is, the client shows the echo of each of its messages,
    one by one, and the server has decoded just these. -/
theorem whole_lockstep (reached : Runs.run (step setup) (init setup) acts = some s)
    (all : Runs.Along (step setup) Whole (init setup) acts) :
    s.client.shown =
        (messages setup.client s.client.shown.length).map (response setup.server.name) ∧
      (s.server.decoded = messages setup.client s.client.shown.length ∨
        s.server.decoded = messages setup.client (s.client.shown.length + 1)) ∧
      s.server.running = true ∧ s.client.phase ≠ .done := by
  have kept := Runs.invariant_along (fun s => (Inv setup s ∧ Awaits s) ∧ Lockstep setup s) ?_
    ⟨⟨init_inv, init_awaits⟩, init_lockstep⟩ all reached
  · obtain ⟨-, lockstep⟩ := kept
    exact ⟨lockstep.shown, lockstep_decoded lockstep, lockstep.running, lockstep_phase lockstep⟩
  · rintro s a t ⟨⟨inv, awaits⟩, lockstep⟩ all stepped
    exact ⟨⟨step_inv inv stepped, step_awaits inv awaits stepped⟩,
      step_lockstep awaits lockstep all stepped⟩

def twoTurns : List Act :=
  [.send 12, .hear 12, .reply 21, .receive 21, .wake, .send 12, .hear 12, .reply 21, .receive 21]

def roomy : Setup := ⟨.c1, .s1, 1024, by decide⟩

theorem whole_lockstep_two : ∃ s, Runs.run (step roomy) (init roomy) twoTurns = some s ∧
    s.client.shown.length = 2 ∧ s.client.shown =
      (messages .c1 s.client.shown.length).map (response "S1") := by
  obtain ⟨s, reached, two⟩ : ∃ s, Runs.run (step roomy) (init roomy) twoTurns = some s ∧
      s.client.shown.length = 2 := Runs.reaches (by decide +kernel)
  exact ⟨s, reached, two, (whole_lockstep reached (by decide +kernel)).1⟩

end Dialogue
