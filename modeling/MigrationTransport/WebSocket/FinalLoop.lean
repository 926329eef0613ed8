import MigrationTransport.WebSocket.Release

/-!
The `finally` block of `start_unix_server`: a loop over the keys that the registry has when
it begins, and then the removal of the socket path. An exception out of one call of
`cleanup_connection` leaves the rest undone. Handlers go on running meanwhile.
-/
namespace FinalLoop
open WebSocketClient Release
open Cleanup (ConnectionId ConnInfo Registry Called BothCalled)

/-- `atStart` are the entries of the registry when the loop begins, `late` the connections that
    have been registered since. -/
structure Final where
  client : Client
  atStart : List (ConnectionId × ConnInfo)
  late : List Nat
  pathRemoved : Bool

def init (source destination : Nat → ByteStream.Bytes) : Final where
  client := WebSocketClient.init source destination
  atStart := []
  late := []
  pathRemoved := false

/-- The loop has run through, so that `os.unlink` comes next. -/
def runsThrough (s : Client) : Act → Bool
  | .serverEnds => decide (s.server = .serving ∧ s.registry.activeConnections.keys = [])
  | .serverNext =>
    match s.server with
    | .cleaning _ .returned [] => true
    | _ => false
  | _ => false

def registersLate (s : Client) : Act → List Nat
  | .connected c => if s.server = .serving then [] else [c]
  | _ => []

def step (s : Final) (a : Act) : Option Final :=
  (WebSocketClient.step s.client a).map fun t => {
    client := t
    atStart := if a = .serverEnds then s.client.registry.activeConnections.entries else s.atStart
    late := s.late ++ registersLate s.client a
    pathRemoved := s.pathRemoved || runsThrough s.client a }

/-- What a call has done to the entry that is under its id. -/
def Fits (info : ConnInfo) (r : Registry Caller) : Cleanup.Pc → Prop
  | .closingWebSocket held => held = info ∧ Called r (.websocket info.websocket)
  | .closingUnix held => held = info ∧ BothCalled r info
  | _ => True

/-- Every call that is midway is about the entry that is still there, as far as the loop is
    concerned with that entry. -/
def Matched (r : Registry Caller) (calls : Caller → Option Call)
    (atStart : List (ConnectionId × ConnInfo)) : Prop :=
  ∀ k id pc info, calls k = some (id, pc) → r.activeConnections.get id = some info →
    (id, info) ∈ atStart → Fits info r pc ∨ BothCalled r info

section Calls
variable {r q : Registry Caller} {calls : Caller → Option Call} {k : Caller}
  {id : ConnectionId} {pc next : Cleanup.Pc} {a : Cleanup.Act}
  {atStart : List (ConnectionId × ConnInfo)}

theorem matched_calls {later : Caller → Option Call} (matched : Matched r calls atStart)
    (same : ∀ k, later k = calls k ∨ ∀ other pc, later k = some (other, pc) → pc = .entering) :
    Matched r later atStart := by
  intro k id pc info call held member
  rcases same k with old | new
  · exact matched k id pc info (old ▸ call) held member
  · rw [new id pc call]
    exact .inl trivial

/-- A step of cleanup only takes entries out, and only those whose sockets are closed. -/
theorem moved_get (cleanup : Cleanup.Moved k id r pc a q next) {key : ConnectionId}
    {info : ConnInfo} (held : q.activeConnections.get key = some info) :
    r.activeConnections.get key = some info := by
  cases cleanup with
  | deleted old deleted =>
    rw [OrderedDict.get_del deleted] at held
    split at held
    · simp at held
    · exact held
  | _ => exact held

theorem moved_called (cleanup : Cleanup.Moved k id r pc a q next)
    {resource : Cleanup.Resource} (before : Called r resource) : Called q resource := by
  cases cleanup with
  | passed held => exact Cleanup.called_close before _ _
  | webSocketClosed info => exact Cleanup.called_close before _ _
  | _ => exact before

theorem moved_both (cleanup : Cleanup.Moved k id r pc a q next) {info : ConnInfo}
    (both : BothCalled r info) : BothCalled q info :=
  ⟨moved_called cleanup both.1, moved_called cleanup both.2⟩

theorem moved_fits (cleanup : Cleanup.Moved k id r pc a q next) {info : ConnInfo}
    {place : Cleanup.Pc} (fits : Fits info r place) : Fits info q place := by
  cases place with
  | closingWebSocket held => exact ⟨fits.1, moved_called cleanup fits.2⟩
  | closingUnix held => exact ⟨fits.1, moved_both cleanup fits.2⟩
  | _ => trivial

/-- A call that is about the entry goes on to be about it. -/
theorem own_fits (cleanup : Cleanup.Moved k id r pc a q next) {info : ConnInfo}
    (held : r.activeConnections.get id = some info) (fits : Fits info r pc) :
    Fits info q next := by
  cases cleanup with
  | passed found =>
    obtain rfl := Option.some.inj (found.symm.trans held)
    exact ⟨rfl, Cleanup.called_now _ _ _⟩
  | webSocketClosed old =>
    obtain ⟨rfl, webSocket⟩ := fits
    exact ⟨rfl, Cleanup.called_close webSocket _ _, Cleanup.called_now _ _ _⟩
  | _ => trivial

theorem matched_moved (matched : Matched r calls atStart) (call : calls k = some (id, pc))
    (cleanup : Cleanup.Moved k id r pc a q next) :
    Matched q (Function.update calls k (some (id, next))) atStart := by
  intro other key place info called held member
  have before := moved_get cleanup held
  by_cases mine : other = k
  · subst mine
    rw [Function.update_self, Option.some.injEq, Prod.mk.injEq] at called
    obtain ⟨rfl, rfl⟩ := called
    rcases matched other id pc info call before member with fits | both
    · exact .inl (own_fits cleanup before fits)
    · exact .inr (moved_both cleanup both)
  · rw [Function.update_of_ne mine] at called
    rcases matched other key place info called before member with fits | both
    · exact .inl (moved_fits cleanup fits)
    · exact .inr (moved_both cleanup both)

/-- An entry is there until both its sockets have been closed. -/
theorem moved_keeps (matched : Matched r calls atStart) (call : calls k = some (id, pc))
    (cleanup : Cleanup.Moved k id r pc a q next) {entry : ConnectionId × ConnInfo}
    (member : entry ∈ atStart)
    (kept : r.activeConnections.get entry.1 = some entry.2 ∨ BothCalled r entry.2) :
    q.activeConnections.get entry.1 = some entry.2 ∨ BothCalled q entry.2 := by
  rcases kept with held | both
  · cases cleanup with
    | deleted old deleted =>
      by_cases same : entry.1 = id
      · subst same
        rcases matched k entry.1 _ entry.2 call held member with fits | both
        · exact .inr fits.2
        · exact .inr both
      · rw [OrderedDict.get_del deleted, if_neg same]
        exact .inl held
    | _ => exact .inl held
  · exact .inr (moved_both cleanup both)

end Calls

/-- What the loop has still to do: every entry of the registry is still to come, or was
    registered after the loop began. -/
structure Swept (r : Registry Caller) (calls : Caller → Option Call) (server : ServerPc)
    (atStart : List (ConnectionId × ConnInfo)) (late : List Nat) : Prop where
  matched : Matched r calls atStart
  kept : ∀ entry ∈ atStart,
    r.activeConnections.get entry.1 = some entry.2 ∨ BothCalled r entry.2
  calm : ∀ id pc rest, server = .cleaning id pc rest → ∀ failure, pc ≠ .raised failure
  left : ∀ id pc rest, server = .cleaning id pc rest → ∀ key info,
    r.activeConnections.get key = some info →
      (key = id ∧ pc ≠ .returned) ∨ key ∈ rest ∨ ∃ c ∈ late, info = own c

section Swept
variable {r q : Registry Caller} {calls : Caller → Option Call} {server : ServerPc}
  {atStart : List (ConnectionId × ConnInfo)} {late : List Nat}

theorem swept_calls {later : Caller → Option Call} (swept : Swept r calls server atStart late)
    (same : ∀ k, later k = calls k ∨ ∀ other pc, later k = some (other, pc) → pc = .entering) :
    Swept r later server atStart late :=
  ⟨matched_calls swept.matched same, swept.kept, swept.calm, swept.left⟩

theorem swept_late (swept : Swept r calls server atStart late) (more : List Nat) :
    Swept r calls server atStart (late ++ more) := by
  obtain ⟨matched, kept, calm, left⟩ := swept
  refine ⟨matched, kept, calm, ?_⟩
  intro id pc rest cleaning key info held
  rcases left id pc rest cleaning key info held with current | coming | ⟨c, already, mine⟩
  · exact .inl current
  · exact .inr (.inl coming)
  · exact .inr (.inr ⟨c, List.mem_append_left more already, mine⟩)

theorem swept_handler (swept : Swept r calls server atStart late) {k : Caller}
    {id : ConnectionId} {pc next : Cleanup.Pc} {a : Cleanup.Act}
    (call : calls k = some (id, pc)) (cleanup : Cleanup.Moved k id r pc a q next) :
    Swept q (Function.update calls k (some (id, next))) server atStart late := by
  obtain ⟨matched, kept, calm, left⟩ := swept
  refine ⟨matched_moved matched call cleanup, ?_, calm, ?_⟩
  · intro entry member
    exact moved_keeps matched call cleanup member (kept entry member)
  · intro key place rest cleaning other info held
    exact left key place rest cleaning other info (moved_get cleanup held)

theorem swept_looped {id : ConnectionId} {pc next : Cleanup.Pc} {rest : List ConnectionId}
    {a : Cleanup.Act} (swept : Swept r calls (.cleaning id pc rest) atStart late)
    (call : calls .shutdown = some (id, pc)) (quiet : ∀ failure, next ≠ .raised failure)
    (cleanup : Cleanup.Moved .shutdown id r pc a q next) :
    Swept q (Function.update calls .shutdown (some (id, next))) (.cleaning id next rest)
      atStart late := by
  obtain ⟨matched, kept, calm, left⟩ := swept
  refine ⟨matched_moved matched call cleanup, ?_, ?_, ?_⟩
  · intro entry member
    exact moved_keeps matched call cleanup member (kept entry member)
  · rintro key place others ⟨⟩
    exact quiet
  · rintro key place others ⟨⟩ other info held
    rcases left id pc rest rfl other info (moved_get cleanup held) with ⟨rfl, -⟩ | later
    · refine .inl ⟨rfl, ?_⟩
      rintro rfl
      cases cleanup with
      | absent gone => simp [gone] at held
      | deleted old deleted => simp [OrderedDict.get_del deleted] at held
    · exact .inr later

/-- A connection is registered while the loop runs, over no entry that it has still to close. -/
theorem swept_registered {id : ConnectionId} {c : Nat}
    (swept : Swept r calls server atStart late)
    (closed : ∀ old, (id, old) ∈ atStart → r.activeConnections.get id = some old →
      BothCalled r old) :
    Swept { r with activeConnections := r.activeConnections.set id (own c) } calls server atStart
      (late ++ [c]) := by
  obtain ⟨matched, kept, calm, left⟩ := swept
  have done : ∀ old, (id, old) ∈ atStart → BothCalled r old := by
    intro old member
    rcases kept (id, old) member with held | both
    · exact closed old member held
    · exact both
  refine ⟨?_, ?_, calm, ?_⟩
  · intro k key pc other call found member
    by_cases same : key = id
    · subst same
      exact .inr (done other member)
    · rw [OrderedDict.get_set, if_neg same] at found
      exact matched k key pc other call found member
  · intro entry member
    by_cases same : entry.1 = id
    · subst same
      exact .inr (done entry.2 member)
    · rw [OrderedDict.get_set, if_neg same]
      exact kept entry member
  · intro key place rest cleaning other held found
    rw [OrderedDict.get_set] at found
    split at found
    · obtain rfl := Option.some.inj found
      exact .inr (.inr ⟨c, List.mem_append_right late (List.mem_singleton_self c), rfl⟩)
    · rcases left key place rest cleaning other held found with
        current | coming | ⟨d, already, mine⟩
      · exact .inl current
      · exact .inr (.inl coming)
      · exact .inr (.inr ⟨d, List.mem_append_left _ already, mine⟩)

theorem nextKey_cleaning {keys : List ConnectionId} {id : ConnectionId} {pc : Cleanup.Pc}
    {rest : List ConnectionId} (next : nextKey keys = .cleaning id pc rest) :
    keys = id :: rest ∧ pc = .entering := by
  cases keys with
  | nil => simp [nextKey] at next
  | cons key keys =>
    simp only [nextKey, ServerPc.cleaning.injEq] at next
    obtain ⟨rfl, rfl, rfl⟩ := next
    exact ⟨rfl, rfl⟩

theorem swept_started (matched : Matched r calls r.activeConnections.entries)
    (late : List Nat) :
    Swept r calls (nextKey r.activeConnections.keys) r.activeConnections.entries late := by
  refine ⟨matched, fun entry member => .inl (OrderedDict.get_entry member), ?_, ?_⟩
  · intro id pc rest next failure
    simp [(nextKey_cleaning next).2]
  · intro id pc rest next key info held
    obtain ⟨keys, rfl⟩ := nextKey_cleaning next
    have member := OrderedDict.key_of_get held
    rw [keys, List.mem_cons] at member
    rcases member with rfl | later
    · exact .inl ⟨rfl, by simp⟩
    · exact .inr (.inl later)

theorem swept_next {id : ConnectionId} {rest : List ConnectionId}
    (swept : Swept r calls (.cleaning id .returned rest) atStart late) :
    Swept r calls (nextKey rest) atStart late := by
  obtain ⟨matched, kept, calm, left⟩ := swept
  refine ⟨matched, kept, ?_, ?_⟩
  · intro key pc others next failure
    simp [(nextKey_cleaning next).2]
  · intro key pc others next other info held
    obtain ⟨rfl, rfl⟩ := nextKey_cleaning next
    rcases left id .returned _ rfl other info held with ⟨-, done⟩ | coming | already
    · exact absurd rfl done
    · rcases List.mem_cons.mp coming with rfl | later
      · exact .inl ⟨rfl, by simp⟩
      · exact .inr (.inl later)
    · exact .inr (.inr already)

end Swept

def ofHandler : Act → Bool
  | .serverEnds | .serverCleanup _ | .serverNext => false
  | _ => true

theorem server_same {s t : Client} {a : Act} (mine : ofHandler a = true)
    (stepped : WebSocketClient.step s a = some t) : t.server = s.server := by
  cases a with
  | serverEnds | serverNext | serverCleanup => simp [ofHandler] at mine
  | traffic c x =>
    simp only [WebSocketClient.step, Option.ite_none_right_eq_some,
      Option.map_eq_some_iff] at stepped
    obtain ⟨-, pipes, -, rfl⟩ := stepped
    rfl
  | waitReturns c =>
    simp only [WebSocketClient.step, Option.ite_none_right_eq_some] at stepped
    obtain ⟨-, stepped⟩ := stepped
    split at stepped
    · split at stepped <;> (rw [Option.some.injEq] at stepped; subst stepped; rfl)
    · rw [Option.ite_none_right_eq_some, Option.some.injEq] at stepped
      obtain ⟨-, rfl⟩ := stepped
      rfl
  | cleanup c x =>
    simp only [WebSocketClient.step] at stepped
    split at stepped
    · simp only [Option.map_eq_some_iff] at stepped
      obtain ⟨moved, -, rfl⟩ := stepped
      rfl
    · simp at stepped
  | _ =>
    simp only [WebSocketClient.step, Option.ite_none_right_eq_some, Option.some.injEq] at stepped
    obtain ⟨-, rfl⟩ := stepped
    rfl

theorem ends_effect {s t : Client} (stepped : WebSocketClient.step s .serverEnds = some t) :
    s.server = .serving ∧ t.server = nextKey s.registry.activeConnections.keys ∧
      t.handlers = s.handlers ∧ t.registry = s.registry := by
  simp only [WebSocketClient.step] at stepped
  split at stepped
  · rename_i serving
    rw [Option.some.injEq] at stepped
    subst stepped
    exact ⟨serving, rfl, rfl, rfl⟩
  · simp at stepped

theorem next_effect {s t : Client} (stepped : WebSocketClient.step s .serverNext = some t) :
    t.handlers = s.handlers ∧ t.registry = s.registry ∧ ∃ id rest,
      s.server = .cleaning id .returned rest ∧ t.server = nextKey rest ∨
        t.server = .finished ∧ ∃ failure, s.server = .cleaning id (.raised failure) rest := by
  simp only [WebSocketClient.step] at stepped
  split at stepped
  · rename_i id rest here
    rw [Option.some.injEq] at stepped
    subst stepped
    exact ⟨rfl, rfl, id, rest, .inl ⟨here, rfl⟩⟩
  · rename_i id failure rest here
    rw [Option.some.injEq] at stepped
    subst stepped
    exact ⟨rfl, rfl, id, rest, .inr ⟨rfl, failure, here⟩⟩
  · simp at stepped

theorem loop_effect {s t : Client} {x : Cleanup.Act}
    (stepped : WebSocketClient.step s (.serverCleanup x) = some t) :
    ∃ id pc rest next, s.server = .cleaning id pc rest ∧ t.server = .cleaning id next rest ∧
      t.handlers = s.handlers ∧
        Cleanup.Moved .shutdown id s.registry pc x t.registry next := by
  simp only [WebSocketClient.step] at stepped
  split at stepped
  · rename_i id pc rest here
    simp only [Option.map_eq_some_iff] at stepped
    obtain ⟨⟨q, next⟩, moved, rfl⟩ := stepped
    exact ⟨id, pc, rest, next, here, rfl, rfl, Cleanup.step_moved moved⟩
  · simp at stepped

/-- The key that the loop is about to delete is still in the registry. -/
def KeyHeld (s : Client) : Prop :=
  match s.server with
  | .cleaning id _ _ => s.registry.activeConnections.get id ≠ none
  | _ => True

instance : DecidablePred KeyHeld := fun s => by
  dsimp only [KeyHeld]
  cases s.server <;> infer_instance

def AboutEntry (r : Registry Caller) : Option Call → Prop
  | some (id, pc) => ∀ entry ∈ r.activeConnections.entries, entry.1 = id → Fits entry.2 r pc
  | none => True

instance (info : ConnInfo) (r : Registry Caller) : DecidablePred (Fits info r) := fun pc => by
  cases pc <;> dsimp only [Fits] <;> infer_instance

instance (r : Registry Caller) : DecidablePred (AboutEntry r)
  | some (id, pc) => inferInstanceAs
      (Decidable (∀ entry ∈ r.activeConnections.entries, entry.1 = id → Fits entry.2 r pc))
  | none => inferInstanceAs (Decidable True)

/-- The handler's call of `cleanup_connection` has ended with the key out of the registry. -/
def cleanedUp : HandlerPc → Bool
  | .cleaning .returned | .cleaning (.raised .keyError) => true
  | _ => false

/-- Every entry is that of a connection whose handler has still to clean up. -/
def Attended (s : Client) : Prop :=
  ∀ key info, s.registry.activeConnections.get key = some info →
    ∃ c, info = own c ∧ (s.handlers c).id = key ∧ registered (s.handlers c).pc = true ∧
      cleanedUp (s.handlers c).pc = false

/-- The entries that were there before a step of the handler of `c`. -/
theorem attended_kept {s t : Client} {c : Nat} (attended : Attended s)
    (others : ∀ d, d ≠ c → t.handlers d = s.handlers d)
    (mine : registered (s.handlers c).pc = true → cleanedUp (s.handlers c).pc = false →
      t.registry.activeConnections.get (s.handlers c).id ≠ none →
        (t.handlers c).id = (s.handlers c).id ∧ registered (t.handlers c).pc = true ∧
          cleanedUp (t.handlers c).pc = false)
    {key : ConnectionId} {info : ConnInfo}
    (before : s.registry.activeConnections.get key = some info)
    (held : t.registry.activeConnections.get key = some info) :
    ∃ d, info = own d ∧ (t.handlers d).id = key ∧ registered (t.handlers d).pc = true ∧
      cleanedUp (t.handlers d).pc = false := by
  obtain ⟨d, rfl, rfl, listed, running⟩ := attended key info before
  by_cases same : d = c
  · subst same
    exact ⟨d, rfl, mine listed running (by simp [held])⟩
  · rw [← others d same] at listed running
    exact ⟨d, rfl, by rw [others d same], listed, running⟩

theorem step_attended {s t : Client} {a : Act} (attended : Attended s)
    (stepped : WebSocketClient.step s a = some t) : Attended t := by
  intro key info held
  cases step_effect stepped with
  | accepted c id others registry server before after =>
    refine attended_kept attended others ?_ (registry ▸ held) held
    intro listed
    simp [before, registered] at listed
  | moved c others registry server id known onwards =>
    refine attended_kept attended others (fun listed running _ => ⟨id, ?_⟩) (registry ▸ held) held
    generalize (s.handlers c).pc = pc at onwards listed running
    generalize (t.handlers c).pc = next at onwards
    cases onwards with
    | traffic => exact ⟨listed, running⟩
    | sslRaises | sslCreated | connectRaises => simp [registered] at listed
    | joins | waitReturns | joined | interrupted => exact ⟨rfl, rfl⟩
  | registered c others server before after id known registry =>
    by_cases same : key = (s.handlers c).id
    · rw [registry, OrderedDict.get_set, if_pos same] at held
      exact ⟨c, (Option.some.inj held).symm, id.trans same.symm, by rw [after]; rfl,
        by rw [after]; rfl⟩
    · have old := held
      rw [registry, OrderedDict.get_set, if_neg same] at old
      refine attended_kept attended others ?_ old held
      intro listed
      simp [before, registered] at listed
  | cleaned c others server before after id known cleanup =>
    refine attended_kept attended others (fun _ _ here => ⟨id, ?_⟩) (moved_get cleanup held) held
    rw [after]
    refine ⟨rfl, ?_⟩
    generalize t.registry = q at cleanup here
    -- where the call has ended, the key is out of the registry
    cases cleanup with
    | absent gone | keyError _ gone => exact absurd gone here
    | deleted info deleted => exact absurd (by simp [OrderedDict.get_del deleted]) here
    | _ => rfl
  | looped handlers known before after cleanup =>
    rw [handlers]
    exact attended key info (moved_get cleanup held)
  | turned handlers known registry =>
    rw [handlers]
    exact attended key info (registry ▸ held)

/-- No call of the loop raises, not even for want of a key. When the loop begins, the calls that
    are midway are about the entries that are there; from then on a connection registers over an
    entry of the loop only if that is closed, and the handlers of those that register then have
    cleaned up when the loop ends. -/
def Smooth (s : Final) : Act → Prop
  | .serverCleanup .webSocketRaises | .serverCleanup .waitClosedRaises => False
  | .serverCleanup .unixClosed => KeyHeld s.client
  | .serverEnds => ∀ k ∈ callers s.client, AboutEntry s.client.registry (callFor s.client k)
  | .connected c => s.client.server = .serving ∨
      ∀ entry ∈ s.atStart, entry.1 = (s.client.handlers c).id →
        s.client.registry.activeConnections.get entry.1 = some entry.2 →
          BothCalled s.client.registry entry.2
  | .serverNext => runsThrough s.client .serverNext = true →
      ∀ c ∈ s.late, cleanedUp (s.client.handlers c).pc = true
  | _ => True

instance (s : Final) : DecidablePred (Smooth s)
  | .serverCleanup .webSocketRaises | .serverCleanup .waitClosedRaises => isFalse not_false
  | .serverCleanup .unixClosed => inferInstanceAs (Decidable (KeyHeld _))
  | .serverEnds => inferInstanceAs (Decidable (∀ k ∈ callers _, _))
  | .connected _ => inferInstanceAs (Decidable (_ ∨ _))
  | .serverNext => inferInstanceAs (Decidable (_ → _))
  | .accept _ _ | .sslRaises _ | .sslCreated _ | .connectRaises _ | .traffic _ _ | .waitReturns _
  | .joined _ | .interrupted _ | .cleanup _ _ | .serverCleanup .enter
  | .serverCleanup .webSocketClosed => isTrue trivial

structure SweptIn (s : Final) : Prop where
  known : Known s.client
  attended : Attended s.client
  swept : s.client.server ≠ .serving →
    Swept s.client.registry (callFor s.client) s.client.server s.atStart s.late

theorem matched_at_start {s : Client} (known : Known s)
    (about : ∀ k ∈ callers s, AboutEntry s.registry (callFor s k)) :
    Matched s.registry (callFor s) s.registry.activeConnections.entries := by
  intro k id pc info call _ member
  have here := about k (callFor_known known call)
  rw [call] at here
  exact .inl (here (id, info) member rfl)

theorem handler_swept {s : Final} {t : Client} {a : Act} (mine : ofHandler a = true)
    (begun : s.client.server ≠ .serving)
    (swept : Swept s.client.registry (callFor s.client) s.client.server s.atStart s.late)
    (smooth : Smooth s a) (stepped : WebSocketClient.step s.client a = some t) :
    Swept t.registry (callFor t) t.server s.atStart (s.late ++ registersLate s.client a) := by
  have server := server_same mine stepped
  rw [server]
  cases step_effect stepped with
  | accepted c id others registry _ before after =>
    have quiet : callFor t (.handler c) = callFor s.client (.handler c) := by
      rw [callFor_none (by rw [after]; rfl), callFor_none (by rw [before]; rfl)]
    rw [registry]
    exact swept_late (swept_calls swept (calls_quiet others server (.inl quiet))) _
  | moved c others registry _ id _ onwards =>
    rw [registry]
    exact swept_late (swept_calls swept (calls_quiet others server (onwards_call onwards id))) _
  | registered c others _ before after id _ registry =>
    have quiet := calls_quiet others server (.inr (by simp [callFor, after]))
    have closed : ∀ old, ((s.client.handlers c).id, old) ∈ s.atStart →
        s.client.registry.activeConnections.get (s.client.handlers c).id = some old →
        BothCalled s.client.registry old :=
      fun old member => (smooth.resolve_left begun) (_, old) member rfl
    rw [registry, registersLate, if_neg begun]
    exact swept_calls (swept_registered swept closed) quiet
  | cleaned c others _ before after id _ cleanup =>
    rw [calls_handler others server after id]
    exact swept_late (swept_handler swept (callFor_cleaning before) cleanup) _
  | looped => simp [ofHandler] at mine
  | turned handlers _ registry fresh =>
    rw [registry]
    exact swept_late (swept_calls swept (turned_calls handlers fresh)) _

theorem loop_swept {s : Final} {t : Client} {x : Cleanup.Act} (before : SweptIn s)
    (smooth : Smooth s (.serverCleanup x))
    (stepped : WebSocketClient.step s.client (.serverCleanup x) = some t) :
    Swept t.registry (callFor t) t.server s.atStart s.late := by
  obtain ⟨id, pc, rest, next, here, after, handlers, cleanup⟩ := loop_effect stepped
  have swept := before.swept (by simp [here])
  rw [here] at swept
  have quiet : ∀ failure, next ≠ .raised failure := by
    generalize t.registry = q at cleanup
    cases cleanup with
    | webSocketRaises => exact False.elim smooth
    | waitClosedRaises => exact False.elim smooth
    | keyError info gone => simp [Smooth, KeyHeld, here, gone] at smooth
    | _ => simp
  rw [calls_shutdown handlers after, after]
  exact swept_looped swept (by simp [callFor, here]) quiet cleanup

theorem step_swept {s t : Final} {a : Act} (before : SweptIn s) (smooth : Smooth s a)
    (stepped : step s a = some t) : SweptIn t := by
  obtain ⟨next, moved, rfl⟩ := Option.map_eq_some_iff.mp stepped
  refine ⟨step_known before.known moved, step_attended before.attended moved, fun begun => ?_⟩
  by_cases mine : ofHandler a = true
  · have already : s.client.server ≠ .serving := server_same mine moved ▸ begun
    have notStart : a ≠ .serverEnds := by
      rintro rfl
      simp [ofHandler] at mine
    simp only [if_neg notStart]
    exact handler_swept mine already (before.swept already) smooth moved
  · cases a with
    | serverEnds =>
      obtain ⟨serving, server, handlers, registry⟩ := ends_effect moved
      have calls := turned_calls handlers (server ▸ nextKey_fresh _)
      have matched := matched_at_start before.known smooth
      simp only [if_pos, registry, server]
      exact swept_late (swept_calls (swept_started matched s.late) calls) _
    | serverNext =>
      obtain ⟨handlers, registry, id, rest, ⟨here, server⟩ | ⟨-, failure, here⟩⟩ :=
        next_effect moved
      · have swept := before.swept (by simp [here])
        rw [here] at swept
        have calls := turned_calls handlers (server ▸ nextKey_fresh rest)
        simp only [registry, server]
        exact swept_late (swept_calls (swept_next swept) calls) _
      · have swept := before.swept (by simp [here])
        exact absurd rfl (swept.calm id _ rest here failure)
    | serverCleanup x => exact swept_late (loop_swept before smooth moved) _
    | _ => simp [ofHandler] at mine

/-- How the server comes to its end: the loop has nothing to do, has done all, or is left by
    an exception. -/
theorem finishes {s t : Client} {a : Act} (stepped : WebSocketClient.step s a = some t)
    (running : s.server ≠ .finished) (done : t.server = .finished) :
    (a = .serverEnds ∧ s.registry.activeConnections.keys = [] ∧ t.registry = s.registry) ∨
      a = .serverNext ∧ t.registry = s.registry ∧ ∃ id,
        s.server = .cleaning id .returned [] ∨
          ∃ failure rest, s.server = .cleaning id (.raised failure) rest := by
  by_cases mine : ofHandler a = true
  · exact absurd (server_same mine stepped ▸ done) running
  · cases a with
    | serverEnds =>
      obtain ⟨-, server, -, registry⟩ := ends_effect stepped
      rw [server] at done
      cases keys : s.registry.activeConnections.keys with
      | nil => exact .inl ⟨rfl, rfl, registry⟩
      | cons key keys => simp [keys, nextKey] at done
    | serverNext =>
      obtain ⟨-, registry, id, rest, ⟨here, server⟩ | ⟨-, failure, here⟩⟩ := next_effect stepped
      · rw [server] at done
        cases rest with
        | nil => exact .inr ⟨rfl, registry, id, .inl here⟩
        | cons key rest => simp [nextKey] at done
      · exact .inr ⟨rfl, registry, id, .inr ⟨failure, rest, here⟩⟩
    | serverCleanup x =>
      obtain ⟨id, pc, rest, place, -, after, -⟩ := loop_effect stepped
      simp [after] at done
    | _ => simp [ofHandler] at mine

def Shut (s : Final) : Prop :=
  (∀ entry ∈ s.atStart, Called s.client.registry (.unixWriter entry.2.unixWriter)) ∧
    s.client.registry.activeConnections.keys = [] ∧ s.pathRemoved = true

theorem emptied_keys {d : OrderedDict ConnectionId ConnInfo}
    (absent : ∀ key info, d.get key ≠ some info) : d.keys = [] := by
  apply List.eq_nil_iff_forall_not_mem.mpr
  intro key member
  obtain ⟨info, held⟩ : ∃ info, d.get key = some info := by
    rw [← Option.ne_none_iff_exists']
    exact fun none => OrderedDict.get_none.mp none member
  exact absent key info held

theorem swept_shut {s t : Final} {a : Act} (before : SweptIn s) (smooth : Smooth s a)
    (stepped : step s a = some t) (running : s.client.server ≠ .finished)
    (done : t.client.server = .finished) : Shut t := by
  obtain ⟨next, moved, rfl⟩ := Option.map_eq_some_iff.mp stepped
  rcases finishes moved running done with ⟨rfl, keys, registry⟩ |
    ⟨rfl, registry, id, here | ⟨failure, rest, here⟩⟩
  · have serving := (ends_effect moved).1
    have noEntries : s.client.registry.activeConnections.entries = [] :=
      List.map_eq_nil_iff.mp keys
    refine ⟨by simp [noEntries], ?_, by simp [runsThrough, serving, keys]⟩
    simp only [registry, keys]
  · have swept := before.swept (by simp [here])
    have through : runsThrough s.client .serverNext = true := by simp [runsThrough, here]
    have absent : ∀ key info, s.client.registry.activeConnections.get key ≠ some info := by
      intro key info held
      rcases swept.left id .returned [] here key info held with
        ⟨-, running⟩ | coming | ⟨c, late, rfl⟩
      · exact running rfl
      · simp at coming
      · obtain ⟨d, same, -, -, running⟩ := before.attended key _ held
        obtain rfl := own_injective same
        exact Bool.false_ne_true (running.symm.trans (smooth through c late))
    refine ⟨?_, ?_, by simp [through]⟩
    · intro entry member
      rcases swept.kept entry member with held | both
      · exact absurd held (absent _ _)
      · simpa only [registry] using both.2
    · simp only [registry]
      exact emptied_keys absent
  · have swept := before.swept (by simp [here])
    exact absurd rfl (swept.calm id _ rest here failure)

theorem runsThrough_finishes {s t : Client} {a : Act}
    (stepped : WebSocketClient.step s a = some t) (through : runsThrough s a = true) :
    t.server = .finished := by
  cases a with
  | serverEnds =>
    simp only [runsThrough, decide_eq_true_eq] at through
    rw [(ends_effect stepped).2.1, through.2]
    rfl
  | serverNext =>
    obtain ⟨-, -, id, rest, ⟨here, server⟩ | ⟨-, failure, here⟩⟩ := next_effect stepped
    · cases rest with
      | nil => exact server
      | cons key rest => simp [runsThrough, here] at through
    · simp [runsThrough, here] at through
  | _ => simp [runsThrough] at through

theorem step_running {s t : Client} {a : Act} (stepped : WebSocketClient.step s a = some t)
    (running : t.server ≠ .finished) : s.server ≠ .finished := by
  intro finished
  by_cases mine : ofHandler a = true
  · exact running (server_same mine stepped ▸ finished)
  · cases a with
    | serverEnds => simp [(ends_effect stepped).1] at finished
    | serverNext =>
      obtain ⟨-, -, id, rest, ⟨here, -⟩ | ⟨-, failure, here⟩⟩ := next_effect stepped <;>
        simp [here] at finished
    | serverCleanup x =>
      obtain ⟨id, pc, rest, next, here, -⟩ := loop_effect stepped
      simp [here] at finished
    | _ => simp [ofHandler] at mine

theorem step_path {s t : Final} {a : Act}
    (path : s.client.server ≠ .finished → s.pathRemoved = false)
    (stepped : step s a = some t) : t.client.server ≠ .finished → t.pathRemoved = false := by
  obtain ⟨next, moved, rfl⟩ := Option.map_eq_some_iff.mp stepped
  intro running
  have notThrough : runsThrough s.client a = false := by
    by_contra through
    exact running (runsThrough_finishes moved (by simpa using through))
  simp [path (step_running moved running), notThrough]

theorem init_swept (source destination : Nat → ByteStream.Bytes) :
    SweptIn (init source destination) :=
  ⟨init_known source destination, fun _ _ held => by simp [init, WebSocketClient.init] at held,
    fun begun => absurd rfl begun⟩

theorem run_swept {source destination : Nat → ByteStream.Bytes} {acts : List Act} {s : Final}
    (smooth : Runs.Along step Smooth (init source destination) acts)
    (reached : Runs.run step (init source destination) acts = some s) : SweptIn s :=
  Runs.invariant_along SweptIn (fun _ _ _ => step_swept) (init_swept source destination) smooth
    reached

theorem run_path {source destination : Nat → ByteStream.Bytes} {acts : List Act} {s : Final}
    (reached : Runs.run step (init source destination) acts = some s) :
    s.client.server ≠ .finished → s.pathRemoved = false :=
  Runs.invariant_run (fun s => s.client.server ≠ .finished → s.pathRemoved = false)
    (fun _ _ _ => step_path) (fun _ => rfl) reached

/-- An exception out of the loop leaves at least the path of the socket behind. -/
theorem raised_not_shut {s t : Final} {a : Act}
    (path : s.client.server ≠ .finished → s.pathRemoved = false)
    (raised : ∃ id failure rest, s.client.server = .cleaning id (.raised failure) rest)
    (stepped : step s a = some t) (done : t.client.server = .finished) : ¬ Shut t := by
  obtain ⟨id, failure, rest, here⟩ := raised
  obtain ⟨next, moved, rfl⟩ := Option.map_eq_some_iff.mp stepped
  have running : s.client.server ≠ .finished := by simp [here]
  have notThrough : runsThrough s.client a = false := by
    rcases finishes moved running done with ⟨rfl, -⟩ | ⟨rfl, -⟩ <;> simp [runsThrough, here]
  intro shut
  have removed := shut.2.2
  simp [path running, notThrough] at removed

/-- The server leaves its `finally` block with everything closed, the registry empty and the
    path removed as long as no call of `cleanup_connection` raises in the loop. -/
theorem final_loop_cleans {source destination : Nat → ByteStream.Bytes} {acts : List Act}
    {a : Act} {s t : Final} (reached : Runs.run step (init source destination) acts = some s)
    (stepped : step s a = some t) (running : s.client.server ≠ .finished)
    (done : t.client.server = .finished) :
    (Runs.Along step Smooth (init source destination) (acts ++ [a]) → Shut t) ∧
      ((∃ id failure rest, s.client.server = .cleaning id (.raised failure) rest) → ¬ Shut t) := by
  constructor
  · intro smooth
    have before : Runs.Along step Smooth (init source destination) acts := by
      apply Runs.along_iff.mpr
      intro earlier b later u parts arrived
      exact Runs.along_iff.mp smooth earlier b (later ++ [a]) u (by simp [parts]) arrived
    have last : Smooth s a := Runs.along_iff.mp smooth acts a [] s rfl reached
    exact swept_shut (run_swept before reached) last stepped running done
  · intro raised
    exact raised_not_shut (run_path reached) raised stepped done

/-- A third connection registers while the loop runs, and its handler cleans up. -/
def twoConnections : List Act :=
  [.accept 1 7, .sslCreated 1, .connected 1, .accept 2 8, .sslCreated 2, .connected 2,
    .accept 3 9, .sslCreated 3, .serverEnds, .connected 3, .interrupted 3, .cleanup 3 .enter,
    .cleanup 3 .webSocketClosed, .cleanup 3 .unixClosed, .serverCleanup .enter,
    .serverCleanup .webSocketClosed, .serverCleanup .unixClosed, .serverNext, .serverCleanup .enter, .serverCleanup .webSocketClosed, .serverCleanup .unixClosed]

theorem final_loop_cleans_two :
    ∃ s t, step s .serverNext = some t ∧ s.late = [3] ∧ s.atStart.length = 2 ∧ Shut t := by
  obtain ⟨s, reached, stepped, running, late, two⟩ : ∃ s,
      Runs.run step (init (fun _ => []) fun _ => []) twoConnections = some s ∧
      ((step s .serverNext).any fun t => decide (t.client.server = .finished)) = true ∧
      s.client.server ≠ .finished ∧ s.late = [3] ∧ s.atStart.length = 2 :=
    Runs.reaches (by decide)
  obtain ⟨t, next, done⟩ := (Option.any_eq_true _ _).mp stepped
  have shut := (final_loop_cleans reached next running (of_decide_eq_true done)).1 (by decide +kernel)
  exact ⟨s, t, next, late, two, shut⟩

/-- The websocket of the first connection does not close, and the second is never looked at. -/
theorem final_loop_stops : ¬ ∀ (source destination : Nat → ByteStream.Bytes) (acts : List Act)
    (a : Act) (s t : Final), Runs.run step (init source destination) acts = some s →
      step s a = some t → s.client.server ≠ .finished → t.client.server = .finished →
        Shut t := by
  intro always
  obtain ⟨s, reached, raised, running, stepped⟩ : ∃ s,
      Runs.run step (init (fun _ => []) fun _ => [])
        [.accept 1 7, .sslCreated 1, .connected 1, .accept 2 8, .sslCreated 2, .connected 2,
          .serverEnds, .serverCleanup .enter, .serverCleanup .webSocketRaises] = some s ∧
      runsThrough s.client .serverNext = false ∧ s.client.server ≠ .finished ∧
      ((step s .serverNext).any fun t => decide (t.client.server = .finished ∧
        t.pathRemoved = false)) = true :=
    Runs.reaches (by decide)
  obtain ⟨t, next, check⟩ := (Option.any_eq_true _ _).mp stepped
  obtain ⟨done, left⟩ := of_decide_eq_true check
  have shut := always _ _ _ _ s t reached next running done
  simp [shut.2.2] at left

end FinalLoop
