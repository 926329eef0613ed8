import MigrationTransport.ByteStream
import MigrationTransport.Lib.Runs

/-!
`handle_client` of the echo server. `recv` and `send` stand under one handler, which waits
and goes back to `recv` when either has failed for the moment, and nobody looks at how much
`send` has accepted.
-/
namespace EchoServer
open ByteStream

def receiveSize : Nat := 1024

/-- `data.decode('utf-8')`; `none` is `UnicodeDecodeError`. -/
def decode (data : Bytes) : Option String := String.fromUTF8? data.toByteArray

def encode (text : String) : Bytes := text.toUTF8.data.toList

def message (text : String) : String := "Server received: " ++ text

/-- `again` is an error with `EAGAIN` or `EWOULDBLOCK`, `raises` any other. -/
inductive Recv where
  | received (data : Bytes)
  | empty
  | again
  | raises
  deriving DecidableEq

inductive Send where
  | accepted (n : Nat)
  | again
  | raises
  deriving DecidableEq

structure Turn where
  recv : Recv
  send : Send
  deriving DecidableEq

/-- `eof` is whether the loop has seen the end of the stream, `received` has what `recv`
    returned, and `accepted` what the socket took. -/
structure Conversation where
  running : Bool
  eof : Bool
  closed : Bool
  received : List Bytes
  accepted : Bytes
  deriving DecidableEq

def init : Conversation where
  running := true
  eof := false
  closed := false
  received := []
  accepted := []

def Conversation.ends (s : Conversation) : Conversation :=
  { s with running := false, closed := true }

def answer (s : Conversation) (text : String) : Send → Option Conversation
  | .accepted n =>
    if 0 < n ∧ n ≤ (encode (message text)).length then
      some { s with accepted := s.accepted ++ (encode (message text)).take n }
    else none
  | .again => some s
  | .raises => some s.ends

def step (s : Conversation) (turn : Turn) : Option Conversation :=
  if s.running then
    match turn.recv with
    | .received data =>
      if 0 < data.length ∧ data.length ≤ receiveSize then
        let s := { s with received := s.received ++ [data] }
        match decode data with
        | some text => answer s text turn.send
        | none => some s.ends
      else none
    | .empty => some { s.ends with eof := true }
    | .again => some s
    | .raises => some s.ends
  else none

def response (data : Bytes) : Bytes := encode "Server received: " ++ data

def chunk (turn : Turn) : Option Bytes :=
  match turn.recv with
  | .received data => some data
  | .empty | .again | .raises => none

/-- If the turn receives a chunk, then it sends the whole response at once. -/
def Answered (turn : Turn) : Prop := ∀ data, turn.recv = .received data →
  (decode data).isSome ∧ turn.send = .accepted (response data).length

variable {s t : Conversation} {turn : Turn} {turns : List Turn} {data : Bytes} {text : String}

theorem encode_append (first second : String) :
    encode (first ++ second) = encode first ++ encode second := by
  simp [encode, String.toByteArray_append]

theorem encode_decode (decoded : decode data = some text) : encode text = data := by
  unfold decode String.fromUTF8? at decoded
  split at decoded
  · rw [← Option.some.inj decoded]
    simp [encode, String.fromUTF8]
  · exact absurd decoded (by simp)

theorem encode_message (decoded : decode data = some text) :
    encode (message text) = response data := by
  change encode ("Server received: " ++ text) = encode "Server received: " ++ data
  rw [encode_append, encode_decode decoded]

theorem response_positive (data : Bytes) : 0 < (response data).length := by
  have start : 0 < (encode "Server received: ").length := by decide
  rw [response, List.length_append]
  omega

/-- The socket has taken no more than the server owes. -/
def Behind (s : Conversation) : Prop :=
  s.accepted.length ≤ (s.received.flatMap response).length

def AllAnswered (s : Conversation) : Prop := s.accepted = s.received.flatMap response

/-- Of the response to a chunk the socket takes some bytes, and all of them only if `send`
    accepts them at once. -/
theorem answer_cases (decoded : decode data = some text) {send : Send}
    (answered : answer s text send = some t) : ∃ n, n ≤ (response data).length ∧
      t.received = s.received ∧ t.accepted = s.accepted ++ (response data).take n ∧
      (n = (response data).length ↔ send = .accepted (response data).length) := by
  have owed := response_positive data
  rw [answer.eq_def, encode_message decoded] at answered
  cases send with
  | accepted n =>
    rw [Option.ite_none_right_eq_some, Option.some.injEq] at answered
    obtain ⟨⟨-, fits⟩, rfl⟩ := answered
    exact ⟨n, fits, rfl, rfl, by simp⟩
  | again =>
    rw [Option.some.injEq] at answered
    subst answered
    refine ⟨0, Nat.zero_le _, rfl, (List.append_nil _).symm, ?_⟩
    simp only [reduceCtorEq, iff_false]
    omega
  | raises =>
    rw [Option.some.injEq] at answered
    subst answered
    refine ⟨0, Nat.zero_le _, rfl, (List.append_nil _).symm, ?_⟩
    simp only [reduceCtorEq, iff_false]
    omega

/-- What one turn does to the two histories: it receives nothing, or a chunk, of whose response
    the socket takes `n` bytes. -/
theorem step_cases (stepped : step s turn = some t) :
    (chunk turn = none ∧ t.received = s.received ∧ t.accepted = s.accepted) ∨
      ∃ data n, turn.recv = .received data ∧ n ≤ (response data).length ∧
        t.received = s.received ++ [data] ∧ t.accepted = s.accepted ++ (response data).take n ∧
        (n = (response data).length ↔
          (decode data).isSome ∧ turn.send = .accepted (response data).length) := by
  rw [step, Option.ite_none_right_eq_some] at stepped
  obtain ⟨-, stepped⟩ := stepped
  unfold chunk
  cases recv : turn.recv with
  | received data =>
    right
    simp only [recv, Option.ite_none_right_eq_some] at stepped
    obtain ⟨-, stepped⟩ := stepped
    cases decoded : decode data with
    | none =>
      have owed := response_positive data
      simp only [decoded, Option.some.injEq] at stepped
      subst stepped
      refine ⟨data, 0, rfl, Nat.zero_le _, rfl, (List.append_nil _).symm, ?_⟩
      simp only [decoded, Option.isSome_none, Bool.false_eq_true, false_and, iff_false]
      omega
    | some text =>
      simp only [decoded] at stepped
      obtain ⟨n, fits, received, accepted, full⟩ := answer_cases decoded stepped
      refine ⟨data, n, rfl, fits, received, accepted, ?_⟩
      simp [decoded, full]
  | empty | again | raises =>
    left
    simp only [recv, Option.some.injEq] at stepped
    rw [← stepped]
    exact ⟨rfl, rfl, rfl⟩

theorem step_behind (behind : Behind s) (stepped : step s turn = some t) : Behind t := by
  unfold Behind at behind ⊢
  rcases step_cases stepped with ⟨-, received, accepted⟩ | ⟨data, n, -, fits, received, accepted, -⟩
  · rw [received, accepted]
    exact behind
  · rw [received, accepted, List.flatMap_append, List.length_append, List.length_append,
      List.length_take_of_le fits, List.flatMap_singleton]
    omega

/-- A response that is cut or lost is never made up for. -/
theorem step_exact (behind : Behind s) (stepped : step s turn = some t) :
    AllAnswered t ↔ AllAnswered s ∧ Answered turn := by
  unfold AllAnswered Answered
  rcases step_cases stepped with
    ⟨none, received, accepted⟩ | ⟨data, n, recv, fits, received, accepted, full⟩
  · have nothing : ∀ data, turn.recv ≠ .received data := by
      intro data recv
      simp [chunk, recv] at none
    simp [received, accepted, nothing]
  · have only : (∀ other, turn.recv = .received other → (decode other).isSome ∧
        turn.send = .accepted (response other).length) ↔ n = (response data).length := by
      rw [full, recv]
      simp
    rw [only, received, accepted, List.flatMap_append, List.flatMap_singleton]
    constructor
    · intro same
      have lengths := congrArg List.length same
      rw [List.length_append, List.length_append, List.length_take_of_le fits] at lengths
      unfold Behind at behind
      have whole : n = (response data).length := by omega
      rw [whole, List.take_length] at same
      exact ⟨List.append_cancel_right same, whole⟩
    · rintro ⟨same, whole⟩
      rw [same, whole, List.take_length]

theorem step_received (stepped : step s turn = some t) :
    t.received = s.received ++ (chunk turn).toList := by
  rcases step_cases stepped with ⟨none, received, -⟩ | ⟨data, n, recv, -, received, -⟩
  · rw [received, none, Option.toList_none, List.append_nil]
  · rw [received, chunk, recv]
    rfl

theorem run_received (reached : Runs.run step s turns = some t) :
    t.received = s.received ++ turns.filterMap chunk := by
  induction turns generalizing s with
  | nil =>
    rw [Runs.run_nil] at reached
    subst reached
    simp
  | cons turn turns ih =>
    obtain ⟨u, first, later⟩ := Runs.run_cons.mp reached
    rw [ih later, step_received first, List.append_assoc, List.filterMap_cons]
    cases chunk turn <;> rfl

/-- The socket has taken the responses to all chunks, in order and whole, if and only if every
    turn that received a chunk sent its response at once. -/
theorem answers_every_chunk_iff (reached : Runs.run step init turns = some s) :
    s.accepted = (turns.filterMap chunk).flatMap response ↔ ∀ turn ∈ turns, Answered turn := by
  have received : s.received = turns.filterMap chunk := by
    rw [run_received reached]
    rfl
  have fresh : AllAnswered init := rfl
  have nothing : Behind init := Nat.le_refl 0
  rw [← received]
  exact (Runs.exact_actions Behind AllAnswered Answered (fun _ _ _ => step_behind)
    (fun _ _ _ => step_exact) nothing reached).trans (and_iff_right fresh)

/-- `hi`, answered at once, and the end of the stream. -/
theorem answers_chunk_at_once : ∃ s, Runs.run step init
    [⟨.received [104, 105], .accepted 19⟩, ⟨.empty, .again⟩] = some s ∧ s.eof = true ∧
      s.accepted = response [104, 105] := by
  obtain ⟨s, reached, ended⟩ : ∃ s, Runs.run step init
      [⟨.received [104, 105], .accepted 19⟩, ⟨.empty, .again⟩] = some s ∧ s.eof = true :=
    Runs.reaches (by decide +kernel)
  refine ⟨s, reached, ended, (answers_every_chunk_iff reached).mpr ?_⟩
  intro turn member data recv
  rcases List.mem_cons.mp member with first | later
  · rw [first] at recv ⊢
    rw [← Recv.received.inj recv]
    decide +kernel
  · rw [List.mem_singleton.mp later] at recv
    simp at recv

/-- `hi`, whose response finds no room in the socket and is never sent. -/
theorem full_socket_loses_response : ¬ ∀ (turns : List Turn) (s : Conversation),
    (∀ data ∈ turns.filterMap chunk, (decode data).isSome) → Runs.run step init turns = some s →
      s.eof = true → s.accepted = (turns.filterMap chunk).flatMap response := by
  intro always
  obtain ⟨s, reached, ended, nothing⟩ : ∃ s, Runs.run step init
      [⟨.received [104, 105], .again⟩, ⟨.empty, .again⟩] = some s ∧ s.eof = true ∧
        s.accepted = [] := Runs.reaches (by decide +kernel)
  have answered := always _ s (by decide +kernel) reached ended
  rw [nothing] at answered
  exact absurd answered (by decide +kernel)

end EchoServer
