import MigrationTransport.Lib.Utf8Cut
import MigrationTransport.ReuseAddr.EchoServer

/-!
What the echo servers make of a stream that `recv` cuts into pieces. Each piece is decoded on
its own, so the loop survives a cut if and only if no character is cut.
-/
namespace EchoSegmentation
open ByteStream
open EchoServer (decode receiveSize)

/-- What a turn of an echo loop hears. `sends` is false where sending the response raises, and
    `nothing` is a turn that has to be made again. -/
inductive Event where
  | piece (data : Bytes) (sends : Bool)
  | nothing
  | finish
  | raises
  deriving DecidableEq

/-- What the echo loops do with the stream, whatever they answer. -/
structure Reader where
  running : Bool
  eof : Bool
  decoded : List String
  deriving DecidableEq

def Reader.init : Reader := ⟨true, false, []⟩

def Reader.step (r : Reader) (e : Event) : Option Reader :=
  if r.running then
    match e with
    | .piece data sends =>
      if 0 < data.length ∧ data.length ≤ receiveSize then
        match decode data with
        | some text => some ⟨sends, r.eof, r.decoded ++ [text]⟩
        | none => some { r with running := false }
      else none
    | .nothing => some r
    | .finish => some { r with running := false, eof := true }
    | .raises => some { r with running := false }
  else none

def Event.data : Event → Option Bytes
  | .piece data _ => some data
  | .nothing | .finish | .raises => none

def heard (events : List Event) : List Bytes := events.filterMap Event.data

/-- Neither `recv` nor the sending of a response raises. -/
def Quiet (e : Event) : Prop := e ≠ .raises ∧ ∀ data, e ≠ .piece data false

variable {r t : Reader} {e : Event} {events : List Event} {pieces : List Bytes} {data : Bytes}
  {stream : Bytes} {text : String}

theorem heard_cons : heard (e :: events) = e.data.toList ++ heard events := by
  rw [heard, List.filterMap_cons]
  cases e.data <;> rfl

theorem step_running (stepped : r.step e = some t) : r.running = true := by
  by_contra stopped
  simp [Reader.step, stopped] at stepped

theorem step_fits {sends : Bool} (stepped : r.step (.piece data sends) = some t) :
    0 < data.length ∧ data.length ≤ receiveSize := by
  simp only [Reader.step, Option.ite_none_right_eq_some] at stepped
  exact stepped.2.1

inductive Effect (r : Reader) : Event → Reader → Prop where
  | text {data : Bytes} {sends : Bool} {text : String} (decoded : decode data = some text) :
      Effect r (.piece data sends) ⟨sends, r.eof, r.decoded ++ [text]⟩
  | cut {data : Bytes} {sends : Bool} (failed : decode data = none) :
      Effect r (.piece data sends) { r with running := false }
  | nothing : Effect r .nothing r
  | finish : Effect r .finish { r with running := false, eof := true }
  | raises : Effect r .raises { r with running := false }

theorem step_effect (stepped : r.step e = some t) : Effect r e t := by
  rw [Reader.step.eq_def, Option.ite_none_right_eq_some] at stepped
  obtain ⟨-, stepped⟩ := stepped
  cases e with
  | piece data sends =>
    simp only [Option.ite_none_right_eq_some] at stepped
    obtain ⟨-, stepped⟩ := stepped
    cases decoded : decode data with
    | some text =>
      simp only [decoded, Option.some.injEq] at stepped
      exact stepped ▸ .text decoded
    | none =>
      simp only [decoded, Option.some.injEq] at stepped
      exact stepped ▸ .cut decoded
  | nothing | finish | raises =>
    rw [Option.some.injEq] at stepped
    rw [← stepped]
    constructor

theorem step_decoded (stepped : r.step e = some t) :
    t.decoded = r.decoded ++ (e.data.bind decode).toList := by
  cases step_effect stepped with
  | text decoded => simp [Event.data, decoded]
  | cut failed => simp [Event.data, failed]
  | nothing | finish | raises => exact (List.append_nil _).symm

theorem run_decoded (reached : Runs.run Reader.step r events = some t) :
    t.decoded = r.decoded ++ (heard events).filterMap decode := by
  induction events generalizing r with
  | nil => simp [heard, Runs.run_nil.mp reached]
  | cons e events ih =>
    obtain ⟨u, first, later⟩ := Runs.run_cons.mp reached
    rw [ih later, step_decoded first, heard_cons, List.filterMap_append, List.append_assoc]
    cases e.data with
    | none => rfl
    | some data => cases decoded : decode data <;> simp [decoded]

/-- The loop is under way, or has come to the end of the stream. -/
def Unbroken (r : Reader) : Prop := r.running = true ∨ r.eof = true

/-- A turn that the loop goes on from, or that ends the stream. -/
def Fine (e : Event) : Prop := Quiet e ∧ ∀ data ∈ e.data, (decode data).isSome

theorem step_unbroken (fresh : r.running = true → r.eof = false) (stepped : r.step e = some t) :
    Unbroken t ↔ Unbroken r ∧ Fine e := by
  have going := step_running stepped
  have before := fresh going
  have unbroken : Unbroken r := .inl going
  rw [and_iff_right unbroken]
  cases step_effect stepped with
  | @text data sends text decoded =>
    cases sends <;> simp [Unbroken, Fine, Quiet, Event.data, decoded, before]
  | cut failed => simp [Unbroken, Fine, Event.data, failed, before]
  | nothing | finish | raises => simp [Unbroken, Fine, Quiet, Event.data, going, before]

theorem step_fresh (fresh : r.running = true → r.eof = false) (stepped : r.step e = some t) :
    t.running = true → t.eof = false := by
  have before := fresh (step_running stepped)
  cases step_effect stepped with
  | text | nothing => exact fun _ => before
  | cut | finish | raises => simp

theorem init_fresh : Reader.init.running = true → Reader.init.eof = false := fun _ => rfl

theorem run_unbroken (reached : Runs.run Reader.step .init events = some t) :
    Unbroken t ↔ ∀ e ∈ events, Fine e :=
  (Runs.exact_actions (fun r => r.running = true → r.eof = false) Unbroken Fine
    (fun _ _ _ => step_fresh) (fun _ _ _ => step_unbroken) init_fresh reached).trans
    (and_iff_right (.inl rfl))

theorem run_finish (reached : Runs.run Reader.step .init events = some t) (eof : t.eof = true) :
    .finish ∈ events := by
  by_contra absent
  have unseen : t.eof = false := by
    refine Runs.invariant_actions (·.eof = false) (· ≠ .finish) ?_ rfl ?_ reached
    · intro r e t unseen other stepped
      cases step_effect stepped with
      | finish => exact absurd rfl other
      | text | cut | nothing | raises => exact unseen
    · intro e member same
      exact absent (same ▸ member)
  rw [unseen] at eof
  exact Bool.false_ne_true eof

structure Cut (stream : Bytes) (pieces : List Bytes) : Prop where
  whole : pieces.flatten = stream
  positive : ∀ piece ∈ pieces, 0 < piece.length
  small : ∀ piece ∈ pieces, piece.length ≤ receiveSize

structure Delivered (pieces : List Bytes) (events : List Event) (r : Reader) : Prop where
  inOrder : heard events <+: pieces
  complete : .finish ∈ events → heard events = pieces
  quiet : ∀ e ∈ events, Quiet e
  ended : r.running = false

def TextWhole (stream : Bytes) (text : String) (events : List Event) (r : Reader) : Prop :=
  r.eof = true ∧ (heard events).flatten = stream ∧ String.join r.decoded = text

section Delivered
variable (reached : Runs.run Reader.step .init events = some r)
  (delivered : Delivered pieces events r)
include reached delivered

theorem delivered_eof : r.eof = true ↔ ∀ piece ∈ heard events, Utf8.Valid piece := by
  have unbroken := run_unbroken reached
  rw [Unbroken, delivered.ended, or_iff_right Bool.false_ne_true] at unbroken
  rw [unbroken]
  constructor
  · intro fine piece member
    obtain ⟨e, heardIn, data⟩ := List.mem_filterMap.mp member
    exact Utf8.decode_isSome.mp ((fine e heardIn).2 piece data)
  · intro valid e member
    refine ⟨delivered.quiet e member, fun piece data => ?_⟩
    exact Utf8.decode_isSome.mpr (valid piece (List.mem_filterMap.mpr ⟨e, member, data⟩))

theorem delivered_all (eof : r.eof = true) : heard events = pieces :=
  delivered.complete (run_finish reached eof)

theorem delivered_whole (valid : decode pieces.flatten = some text) :
    TextWhole pieces.flatten text events r ↔
      ∀ piece ∈ pieces, Utf8.StartsCharacter piece := by
  have validStream : Utf8.Valid pieces.flatten :=
    Utf8.decode_isSome.mp (Option.isSome_of_eq_some valid)
  have decoded : r.decoded = (heard events).filterMap decode := run_decoded reached
  rw [← Utf8.valid_pieces validStream]
  constructor
  · rintro ⟨eof, -, -⟩
    rw [← delivered_all reached delivered eof]
    exact (delivered_eof reached delivered).mp eof
  · intro every
    have eof : r.eof = true := by
      rw [delivered_eof reached delivered]
      exact fun piece member => every piece (delivered.inOrder.subset member)
    have all := delivered_all reached delivered eof
    refine ⟨eof, by rw [all], ?_⟩
    have joined := (Utf8.decode_pieces every).symm.trans valid
    rw [decoded, all]
    exact Option.some.inj joined

end Delivered

/-- A turn of which every loop is capable: EAGAIN is not for the blocking sockets. -/
def Prompt (e : Event) : Prop := e = .finish ∨ ∃ data, e = .piece data true

theorem prompt_quiet (prompt : Prompt e) : Quiet e := by
  rcases prompt with rfl | ⟨data, rfl⟩ <;> simp [Quiet]

theorem finish_prompt : Prompt .finish := .inl rfl

theorem piece_prompt (data : Bytes) : Prompt (.piece data true) := .inr ⟨data, rfl⟩

theorem reader_ends (going : r.running = true) (positive : ∀ piece ∈ pieces, 0 < piece.length)
    (small : ∀ piece ∈ pieces, piece.length ≤ receiveSize) :
    ∃ events t, Runs.run Reader.step r events = some t ∧ (∀ e ∈ events, Prompt e) ∧
      Delivered pieces events t := by
  induction pieces generalizing r with
  | nil =>
    refine ⟨[.finish], { r with running := false, eof := true }, ?_, ?_, ?_⟩
    · simp [Reader.step, going]
    · simp [finish_prompt]
    · exact ⟨List.prefix_rfl, fun _ => rfl, by simp [Quiet], rfl⟩
  | cons piece pieces ih =>
    obtain ⟨nonempty, laterPositive⟩ := List.forall_mem_cons.mp positive
    obtain ⟨fits, laterSmall⟩ := List.forall_mem_cons.mp small
    cases decoded : decode piece with
    | none =>
      refine ⟨[.piece piece true], { r with running := false }, ?_, ?_, ?_⟩
      · simp [Reader.step, going, nonempty, fits, decoded]
      · simp [piece_prompt]
      · exact ⟨⟨pieces, rfl⟩, by simp, by simp [Quiet], rfl⟩
    | some text =>
      obtain ⟨events, t, reached, prompt, delivered⟩ :=
        @ih ⟨true, r.eof, r.decoded ++ [text]⟩ rfl laterPositive laterSmall
      have every := List.forall_mem_cons.mpr ⟨piece_prompt piece, prompt⟩
      refine ⟨.piece piece true :: events, t, Runs.run_cons.mpr ⟨_, ?_, reached⟩, every, ?_, ?_,
        fun e member => prompt_quiet (every e member), delivered.ended⟩
      · simp [Reader.step, going, nonempty, fits, decoded]
      · exact (List.prefix_cons_inj piece).mpr delivered.inOrder
      · intro finished
        rcases List.mem_cons.mp finished with here | later
        · exact absurd here (by simp)
        · rw [heard_cons, delivered.complete later]
          rfl

structure EchoLoop where
  State : Type
  Turn : Type
  step : State → Turn → Option State
  start : State
  view : State → Reader
  hears : Turn → Event
  started : view start = .init
  follows : ∀ s turn t, step s turn = some t → (view s).step (hears turn) = some (view t)
  prompt : ∀ s e r, Prompt e → (view s).step e = some r →
    ∃ turn t, hears turn = e ∧ step s turn = some t

/-- The loop of `tcp-server.py` with what `data.decode('utf-8')` returned in it. -/
structure Transcript where
  conversation : EchoServer.Conversation
  decoded : List String
  deriving DecidableEq

def Transcript.step (s : Transcript) (turn : EchoServer.Turn) : Option Transcript :=
  (EchoServer.step s.conversation turn).map fun conversation =>
    ⟨conversation, s.decoded ++ ((EchoServer.chunk turn).bind decode).toList⟩

def Transcript.view (s : Transcript) : Reader :=
  ⟨s.conversation.running, s.conversation.eof, s.decoded⟩

def tcpHears (turn : EchoServer.Turn) : Event :=
  match turn.recv with
  | .received data => .piece data (turn.send ≠ .raises)
  | .empty => .finish
  | .again => .nothing
  | .raises => .raises

theorem tcp_answered {s t : EchoServer.Conversation} {send : EchoServer.Send}
    (answered : EchoServer.answer s text send = some t) :
    t.running = (decide (send ≠ .raises) && s.running) ∧ t.eof = s.eof := by
  rw [EchoServer.answer.eq_def] at answered
  cases send with
  | accepted n =>
    rw [Option.ite_none_right_eq_some, Option.some.injEq] at answered
    rw [← answered.2]
    simp
  | again | raises =>
    rw [Option.some.injEq] at answered
    rw [← answered]
    simp [EchoServer.Conversation.ends]

theorem tcp_follows {s t : Transcript} {turn : EchoServer.Turn} (stepped : s.step turn = some t) :
    s.view.step (tcpHears turn) = some t.view := by
  obtain ⟨conversation, moved, rfl⟩ := Option.map_eq_some_iff.mp stepped
  rw [EchoServer.step, Option.ite_none_right_eq_some] at moved
  obtain ⟨running, moved⟩ := moved
  rw [Reader.step.eq_def, Transcript.view, if_pos running, tcpHears, EchoServer.chunk]
  cases recv : turn.recv with
  | received data =>
    simp only [recv, Option.ite_none_right_eq_some] at moved
    obtain ⟨fits, moved⟩ := moved
    simp only [if_pos fits, Option.bind_some]
    cases decoded : decode data with
    | some text =>
      simp only [decoded] at moved
      obtain ⟨goesOn, eof⟩ := tcp_answered moved
      simp [Transcript.view, goesOn, eof, running]
    | none =>
      simp only [decoded, Option.some.injEq] at moved
      rw [← moved]
      simp [Transcript.view, EchoServer.Conversation.ends]
  | empty | again | raises =>
    simp only [recv, Option.some.injEq] at moved
    rw [← moved]
    simp [Transcript.view, EchoServer.Conversation.ends, running]

theorem tcp_prompt {s : Transcript} {e : Event} {r : Reader} (prompt : Prompt e)
    (stepped : s.view.step e = some r) : ∃ turn t, tcpHears turn = e ∧ s.step turn = some t := by
  have running : s.conversation.running = true := step_running stepped
  obtain ⟨turn, hears, enabled⟩ : ∃ turn, tcpHears turn = e ∧
      (EchoServer.step s.conversation turn).isSome := by
    rcases prompt with rfl | ⟨data, rfl⟩
    · refine ⟨⟨.empty, .again⟩, rfl, ?_⟩
      simp [EchoServer.step, running]
    · refine ⟨⟨.received data, .again⟩, rfl, ?_⟩
      simp only [EchoServer.step, running, step_fits stepped, and_self, if_true]
      cases EchoServer.decode data <;> rfl
  obtain ⟨conversation, moved⟩ := Option.isSome_iff_exists.mp enabled
  exact ⟨turn, _, hears, Option.map_eq_some_iff.mpr ⟨conversation, moved, rfl⟩⟩

def reuseView (s : ReuseAddr.Connection) : Reader := ⟨s.running, s.eof, s.decoded⟩

def reuseHears (turn : ReuseAddr.Turn) : Event :=
  match turn.recv with
  | .received data => .piece data turn.sends
  | .empty => .finish
  | .raises => .raises

theorem reuse_follows (server : String) {s t : ReuseAddr.Connection} {turn : ReuseAddr.Turn}
    (stepped : ReuseAddr.handleClient server s turn = some t) :
    (reuseView s).step (reuseHears turn) = some (reuseView t) := by
  rw [ReuseAddr.handleClient, Option.ite_none_right_eq_some] at stepped
  obtain ⟨running, stepped⟩ := stepped
  rw [Reader.step.eq_def, reuseView, if_pos running, reuseHears]
  cases recv : turn.recv with
  | received data =>
    simp only [recv, Option.ite_none_right_eq_some] at stepped
    obtain ⟨fits, stepped⟩ := stepped
    simp only [if_pos fits]
    cases decoded : decode data with
    | some text =>
      simp only [decoded, Option.some.injEq] at stepped
      rw [← stepped, ReuseAddr.answer]
      cases sends : turn.sends with
      | true => simp [reuseView, running]
      | false => simp [reuseView, ReuseAddr.Connection.ends]
    | none =>
      simp only [decoded, Option.some.injEq] at stepped
      rw [← stepped]
      rfl
  | empty | raises =>
    simp only [recv, Option.some.injEq] at stepped
    rw [← stepped]
    rfl

theorem reuse_prompt (server : String) {s : ReuseAddr.Connection} {e : Event} {r : Reader}
    (prompt : Prompt e) (stepped : (reuseView s).step e = some r) :
    ∃ turn t, reuseHears turn = e ∧ ReuseAddr.handleClient server s turn = some t := by
  have running : s.running = true := step_running stepped
  obtain ⟨turn, hears, enabled⟩ : ∃ turn, reuseHears turn = e ∧
      (ReuseAddr.handleClient server s turn).isSome := by
    rcases prompt with rfl | ⟨data, rfl⟩
    · refine ⟨⟨.empty, true⟩, rfl, ?_⟩
      simp [ReuseAddr.handleClient, running]
    · refine ⟨⟨.received data, true⟩, rfl, ?_⟩
      simp only [ReuseAddr.handleClient, running, step_fits stepped, and_self, if_true]
      cases EchoServer.decode data <;> rfl
  obtain ⟨t, moved⟩ := Option.isSome_iff_exists.mp enabled
  exact ⟨turn, t, hears, moved⟩

def tcpServer : EchoLoop where
  State := Transcript
  Turn := EchoServer.Turn
  step := Transcript.step
  start := ⟨EchoServer.init, []⟩
  view := Transcript.view
  hears := tcpHears
  started := rfl
  follows _ _ _ stepped := tcp_follows stepped
  prompt _ _ _ prompt stepped := tcp_prompt prompt stepped

def reuseLoop (server : String)
    (step : ReuseAddr.Connection → ReuseAddr.Turn → Option ReuseAddr.Connection)
    (same : step = ReuseAddr.handleClient server) : EchoLoop where
  State := ReuseAddr.Connection
  Turn := ReuseAddr.Turn
  step := step
  start := ReuseAddr.init
  view := reuseView
  hears := reuseHears
  started := rfl
  follows _ _ _ stepped := reuse_follows server (same ▸ stepped)
  prompt _ _ _ prompt stepped := by rw [same]; exact reuse_prompt server prompt stepped

def s1Loop : EchoLoop := reuseLoop "S1" ReuseAddr.s1HandleClient rfl

def s2Loop : EchoLoop := reuseLoop "S2" ReuseAddr.s2HandleClient rfl

def echoLoops : List EchoLoop := [tcpServer, s1Loop, s2Loop]

structure Ends (loop : EchoLoop) (pieces : List Bytes) (turns : List loop.Turn) (s : loop.State) :
    Prop where
  reached : Runs.run loop.step loop.start turns = some s
  delivered : Delivered pieces (turns.map loop.hears) (loop.view s)

theorem loop_heard (loop : EchoLoop) {turns : List loop.Turn} {s : loop.State}
    (reached : Runs.run loop.step loop.start turns = some s) :
    Runs.run Reader.step .init (turns.map loop.hears) = some (loop.view s) := by
  rw [← loop.started]
  exact Runs.run_view loop.view loop.hears loop.follows reached

theorem loop_ends (loop : EchoLoop) (cut : Cut stream pieces) :
    ∃ turns s, Ends loop pieces turns s := by
  obtain ⟨events, r, read, prompt, delivered⟩ :=
    @reader_ends .init pieces rfl cut.positive cut.small
  rw [← loop.started] at read
  have lifts : ∀ s e r, Prompt e → (loop.view s).step e = some r →
      ∃ turn t, loop.hears turn = e ∧ loop.step s turn = some t ∧ loop.view t = r := by
    intro s e r prompt stepped
    obtain ⟨turn, t, rfl, moved⟩ := loop.prompt s e r prompt stepped
    refine ⟨turn, t, rfl, moved, ?_⟩
    exact Option.some.inj ((loop.follows s turn t moved).symm.trans stepped)
  obtain ⟨turns, s, rfl, reached, rfl⟩ :=
    Runs.run_lift loop.view loop.hears Prompt lifts prompt read
  exact ⟨turns, s, reached, delivered⟩

/-- However a stream is cut, each echo server comes to an end, and it has taken in the whole
    stream and decoded its text if and only if every piece starts with the first byte of a
    character. -/
theorem text_whole_iff (valid : decode stream = some text) (cut : Cut stream pieces) :
    ∀ loop ∈ echoLoops, (∃ turns s, Ends loop pieces turns s) ∧
      ∀ turns s, Ends loop pieces turns s →
        (TextWhole stream text (turns.map loop.hears) (loop.view s) ↔
          ∀ piece ∈ pieces, Utf8.StartsCharacter piece) := by
  intro loop _
  refine ⟨loop_ends loop cut, ?_⟩
  intro turns s ends
  obtain ⟨rfl, -, -⟩ := cut
  exact delivered_whole (loop_heard loop ends.reached) ends.delivered valid

/-- `é` in one piece. -/
theorem text_whole_uncut : ∃ turns s, Ends s1Loop [[0xc3, 0xa9]] turns s ∧
    TextWhole [0xc3, 0xa9] "é" (turns.map s1Loop.hears) (s1Loop.view s) := by
  have cut : Cut [0xc3, 0xa9] [[0xc3, 0xa9]] := ⟨rfl, by decide, by decide⟩
  have valid : decode [0xc3, 0xa9] = some "é" := by decide +kernel
  have servers := text_whole_iff valid cut s1Loop (by simp [echoLoops])
  obtain ⟨turns, s, ends⟩ := servers.1
  exact ⟨turns, s, ends, (servers.2 turns s ends).mpr (by decide)⟩

/-- `é`, of which `recv` returns the first byte alone. -/
theorem cut_character_ends_loop : ¬ ∀ (stream : Bytes) (text : String) (pieces : List Bytes),
    decode stream = some text → Cut stream pieces → ∀ loop ∈ echoLoops,
      ∀ turns s, Ends loop pieces turns s →
        TextWhole stream text (turns.map loop.hears) (loop.view s) := by
  intro always
  have cut : Cut [0xc3, 0xa9] [[0xc3], [0xa9]] := ⟨rfl, by decide, by decide⟩
  have reached : Runs.run ReuseAddr.s1HandleClient ReuseAddr.init [⟨.received [0xc3], true⟩] =
      some ReuseAddr.init.ends := by decide +kernel
  have quiet : ∀ e ∈ [Event.piece [0xc3] true], Quiet e := by
    simp [prompt_quiet (piece_prompt _)]
  have ends : Ends s1Loop [[0xc3], [0xa9]] [⟨.received [0xc3], true⟩] ReuseAddr.init.ends :=
    ⟨reached, ⟨[[0xa9]], rfl⟩, by decide, quiet, rfl⟩
  have whole := always _ "é" _ (by decide +kernel) cut s1Loop (by simp [echoLoops]) _ _ ends
  exact absurd whole.1 (by decide)

end EchoSegmentation
