import MigrationTransport.Lib.Runs
import MigrationTransport.WebSocket.Client

/-!
What becomes of the entry of one connection in the registry. Every caller of
`cleanup_connection` is treated alike: the handlers, whose calls overlap when they have
been given one id, and the final loop.
-/
namespace Release
open WebSocketClient
open Cleanup (ConnectionId ConnInfo Registry Called BothCalled)

abbrev Call := ConnectionId × Cleanup.Pc

/-- The call of `cleanup_connection` that a caller is in, or has returned from. -/
def callFor (s : Client) : Caller → Option Call
  | .handler c =>
    match (s.handlers c).pc with
    | .cleaning pc => some ((s.handlers c).id, pc)
    | _ => none
  | .shutdown =>
    match s.server with
    | .cleaning id pc _ => some (id, pc)
    | _ => none

def callers (s : Client) : List Caller := .shutdown :: s.accepted.map .handler

/-- The call has found an entry for `id` and has not yet come to its `del`. -/
def Midway (id : ConnectionId) : Option Call → Prop
  | some (other, .closingWebSocket _) | some (other, .closingUnix _) => other = id
  | _ => False

def registered : HandlerPc → Bool
  | .forwarding | .joining | .cleaning _ => true
  | _ => false

def finished : HandlerPc → Bool
  | .cleaning .returned | .cleaning (.raised _) => true
  | _ => false

/-- What a call for the id of `c` has done while the entry of `c` is still there. -/
def CallFits (c : Nat) (r : Registry Caller) : Cleanup.Pc → Prop
  | .closingWebSocket info => info = own c ∧ Called r (.websocket c)
  | .closingUnix info => info = own c ∧ BothCalled r (own c)
  | _ => True

/-- The entry of `c` is under its id until someone has closed both sockets of `c`. -/
structure Tended (c : Nat) (past : Bool) (id : ConnectionId) (r : Registry Caller)
    (calls : Caller → Option Call) : Prop where
  only : ∀ other, r.activeConnections.get other = some (own c) → other = id ∧ past = true
  present : past = true → r.activeConnections.get id = some (own c) ∨ BothCalled r (own c)
  fits : r.activeConnections.get id = some (own c) →
    ∀ k pc, calls k = some (id, pc) → CallFits c r pc
  swept : ∀ pc, calls (.handler c) = some (id, pc) → pc = .returned ∨ pc = .raised .keyError →
    r.activeConnections.get id ≠ some (own c)

def TendedIn (c : Nat) (s : Client) : Prop :=
  Tended c (registered (s.handlers c).pc) (s.handlers c).id s.registry (callFor s)

theorem own_injective {c d : Nat} (same : own c = own d) : c = d := by
  simpa [own] using congrArg ConnInfo.websocket same

theorem callFits_close {c : Nat} {r : Registry Caller} {pc : Cleanup.Pc}
    (fits : CallFits c r pc) (caller : Caller) (resource : Cleanup.Resource) :
    CallFits c (Cleanup.close r caller resource) pc := by
  cases pc with
  | closingWebSocket info => exact ⟨fits.1, Cleanup.called_close fits.2 caller resource⟩
  | closingUnix info => exact ⟨fits.1, Cleanup.bothCalled_close fits.2 caller resource⟩
  | _ => trivial

theorem callFits_of_not_midway {c : Nat} {r : Registry Caller} {id : ConnectionId}
    {pc : Cleanup.Pc} (idle : ¬ Midway id (some (id, pc))) : CallFits c r pc := by
  cases pc with
  | closingWebSocket info => exact absurd rfl idle
  | closingUnix info => exact absurd rfl idle
  | _ => trivial

section Tended
variable {c : Nat} {past : Bool} {id : ConnectionId} {r : Registry Caller}
  {calls : Caller → Option Call}

theorem tended_calls {next : Caller → Option Call} (tended : Tended c past id r calls)
    (same : ∀ k, next k = calls k ∨ ∀ other pc, next k = some (other, pc) → pc = .entering) :
    Tended c past id r next := by
  refine ⟨tended.only, tended.present, ?_, ?_⟩
  · intro held k pc call
    rcases same k with old | new
    · exact tended.fits held k pc (old ▸ call)
    · rw [new id pc call]
      trivial
  · intro pc call ended
    rcases same (.handler c) with old | new
    · exact tended.swept pc (old ▸ call) ended
    · rw [new id pc call] at ended
      simp at ended

theorem tended_close (tended : Tended c past id r calls) (caller : Caller)
    (resource : Cleanup.Resource) :
    Tended c past id (Cleanup.close r caller resource) calls := by
  refine ⟨tended.only, ?_, ?_, tended.swept⟩
  · intro been
    rcases tended.present been with held | both
    · exact .inl held
    · exact .inr (Cleanup.bothCalled_close both caller resource)
  · intro held k pc call
    exact callFits_close (tended.fits held k pc call) caller resource

theorem tended_update (tended : Tended c past id r calls) {k : Caller} {other : ConnectionId}
    {pc : Cleanup.Pc}
    (fits : other = id → r.activeConnections.get id = some (own c) → CallFits c r pc)
    (swept : k = .handler c → other = id → pc = .returned ∨ pc = .raised .keyError →
      r.activeConnections.get id ≠ some (own c)) :
    Tended c past id r (Function.update calls k (some (other, pc))) := by
  refine ⟨tended.only, tended.present, ?_, ?_⟩
  · intro held k' pc' call
    by_cases mine : k' = k
    · subst mine
      rw [Function.update_self, Option.some.injEq, Prod.mk.injEq] at call
      obtain ⟨same, rfl⟩ := call
      exact fits same held
    · rw [Function.update_of_ne mine] at call
      exact tended.fits held k' pc' call
  · intro pc' call ended
    by_cases mine : k = .handler c
    · subst mine
      rw [Function.update_self, Option.some.injEq, Prod.mk.injEq] at call
      obtain ⟨same, rfl⟩ := call
      exact swept rfl same ended
    · rw [Function.update_of_ne (Ne.symm mine)] at call
      exact tended.swept pc' call ended

/-- An entry may be deleted once both sockets of `c` are closed, if it was that of `c`. -/
theorem tended_delete (tended : Tended c past id r calls) {key : ConnectionId}
    {rest : OrderedDict ConnectionId ConnInfo} (deleted : r.activeConnections.del key = some rest)
    (allowed : key = id → r.activeConnections.get id = some (own c) → BothCalled r (own c)) :
    Tended c past id { r with activeConnections := rest } calls := by
  have still : ∀ {other}, rest.get other = some (own c) →
      r.activeConnections.get other = some (own c) := by
    intro other held
    rw [OrderedDict.get_del deleted] at held
    split at held
    · simp at held
    · exact held
  refine ⟨fun other held => tended.only other (still held), ?_, ?_, ?_⟩
  · intro been
    rcases tended.present been with held | both
    · by_cases same : key = id
      · exact .inr (allowed same held)
      · refine .inl ?_
        rw [OrderedDict.get_del deleted, if_neg (Ne.symm same)]
        exact held
    · exact .inr both
  · exact fun held => tended.fits (still held)
  · exact fun pc call ended held => tended.swept pc call ended (still held)

/-- A caller, which may be the handler of `c`, takes one step of its cleanup. -/
theorem tended_cleaned {q : Registry Caller} {k : Caller} {other : ConnectionId}
    {place next : Cleanup.Pc} {a : Cleanup.Act} (tended : Tended c past id r calls)
    (call : calls k = some (other, place))
    (cleanup : Cleanup.Moved k other r place a q next) :
    Tended c past id q (Function.update calls k (some (other, next))) := by
  have placed : other = id → r.activeConnections.get id = some (own c) →
      CallFits c r place := by
    rintro rfl held
    exact tended.fits held k place call
  cases cleanup with
  | passed found =>
    refine tended_update (tended_close tended k _) ?_ (by simp)
    rintro rfl held
    obtain rfl := Option.some.inj (found.symm.trans held)
    exact ⟨rfl, Cleanup.called_now _ _ _⟩
  | absent gone =>
    refine tended_update tended (by simp [CallFits]) ?_
    rintro - rfl -
    simp [gone]
  | webSocketClosed info =>
    refine tended_update (tended_close tended k _) ?_ (by simp)
    intro same held
    obtain ⟨rfl, webSocket⟩ := placed same held
    exact ⟨rfl, Cleanup.called_close webSocket _ _, Cleanup.called_now _ _ _⟩
  | deleted info deleted =>
    refine tended_update (tended_delete tended deleted fun same held => (placed same held).2)
      (by simp [CallFits]) ?_
    rintro - rfl -
    simp [OrderedDict.get_del deleted]
  | keyError info gone =>
    refine tended_update tended (by simp [CallFits]) ?_
    rintro - rfl -
    simp [gone]
  | webSocketRaises info => exact tended_update tended (by simp [CallFits]) (by simp)
  | waitClosedRaises info => exact tended_update tended (by simp [CallFits]) (by simp)

/-- `c` itself is registered, while no call for its id is midway. -/
theorem tended_registered (tended : Tended c false id r calls)
    (idle : ∀ k, ¬ Midway id (calls k)) (before : calls (.handler c) = none) :
    Tended c true id
      { r with activeConnections := r.activeConnections.set id (own c) } calls := by
  refine ⟨?_, ?_, ?_, ?_⟩
  · intro other held
    refine ⟨?_, rfl⟩
    by_contra different
    rw [OrderedDict.get_set, if_neg different] at held
    exact Bool.false_ne_true (tended.only other held).2
  · intro _
    exact .inl (by rw [OrderedDict.get_set, if_pos rfl])
  · intro _ k pc call
    have here := idle k
    rw [call] at here
    exact callFits_of_not_midway here
  · intro pc call
    simp [before] at call

/-- Another connection is registered; it may replace the entry of `c` when both sockets of `c`
    are closed. -/
theorem tended_other_registered (tended : Tended c past id r calls) {d : Nat} (other : d ≠ c)
    {key : ConnectionId}
    (allowed : r.activeConnections.get key = some (own c) → BothCalled r (own c)) :
    Tended c past id
      { r with activeConnections := r.activeConnections.set key (own d) } calls := by
  have still : ∀ {spot}, (r.activeConnections.set key (own d)).get spot = some (own c) →
      r.activeConnections.get spot = some (own c) := by
    intro spot held
    rw [OrderedDict.get_set] at held
    split at held
    · exact absurd (own_injective (Option.some.inj held)) other
    · exact held
  refine ⟨fun spot held => tended.only spot (still held), ?_, fun held => tended.fits (still held),
    fun pc call ended held => tended.swept pc call ended (still held)⟩
  intro been
  rcases tended.present been with held | both
  · by_cases same : id = key
    · rw [same] at held
      exact .inr (allowed held)
    · refine .inl ?_
      rw [OrderedDict.get_set, if_neg same]
      exact held
  · exact .inr both

end Tended

theorem tended_new_id {c : Nat} {id newId : ConnectionId} {r : Registry Caller}
    {calls : Caller → Option Call} (tended : Tended c false id r calls) :
    Tended c false newId r calls := by
  have none : ∀ other, r.activeConnections.get other ≠ some (own c) := by
    intro other held
    exact Bool.false_ne_true (tended.only other held).2
  refine ⟨fun other held => absurd held (none other), by simp,
    fun held => absurd held (none newId), fun _ _ _ => none newId⟩

section Calls
variable {s t : Client} {c : Nat}

theorem callFor_handler {d : Nat} (same : t.handlers d = s.handlers d) :
    callFor t (.handler d) = callFor s (.handler d) := by
  simp only [callFor, same]

theorem callFor_cleaning {pc : Cleanup.Pc} (here : (s.handlers c).pc = .cleaning pc) :
    callFor s (.handler c) = some ((s.handlers c).id, pc) := by
  simp [callFor, here]

theorem callFor_none (here : registered (s.handlers c).pc = false) :
    callFor s (.handler c) = none := by
  cases pc : (s.handlers c).pc <;> simp_all [callFor, registered]

theorem callFor_shutdown (same : t.server = s.server) :
    callFor t .shutdown = callFor s .shutdown := by
  simp only [callFor, same]

/-- A step of the handler of `c` that starts a call or is not in one. -/
theorem calls_quiet (others : ∀ d, d ≠ c → t.handlers d = s.handlers d)
    (server : t.server = s.server)
    (mine : callFor t (.handler c) = callFor s (.handler c) ∨
      ∀ other pc, callFor t (.handler c) = some (other, pc) → pc = .entering) (k : Caller) :
    callFor t k = callFor s k ∨ ∀ other pc, callFor t k = some (other, pc) → pc = .entering := by
  cases k with
  | handler d =>
    by_cases same : d = c
    · rw [same]
      exact mine
    · exact .inl (callFor_handler (others d same))
  | shutdown => exact .inl (callFor_shutdown server)

theorem calls_handler {pc : Cleanup.Pc} (others : ∀ d, d ≠ c → t.handlers d = s.handlers d)
    (server : t.server = s.server) (after : (t.handlers c).pc = .cleaning pc)
    (id : (t.handlers c).id = (s.handlers c).id) :
    callFor t = Function.update (callFor s) (.handler c) (some ((s.handlers c).id, pc)) := by
  funext k
  by_cases mine : k = .handler c
  · rw [mine, Function.update_self, ← id]
    exact callFor_cleaning after
  · rw [Function.update_of_ne mine]
    cases k with
    | handler d => exact callFor_handler (others d fun same => mine (by rw [same]))
    | shutdown => exact callFor_shutdown server

theorem calls_shutdown {id : ConnectionId} {pc : Cleanup.Pc} {rest : List ConnectionId}
    (handlers : t.handlers = s.handlers) (after : t.server = .cleaning id pc rest) :
    callFor t = Function.update (callFor s) .shutdown (some (id, pc)) := by
  funext k
  cases k with
  | handler d =>
    rw [Function.update_of_ne (by simp)]
    exact callFor_handler (by rw [handlers])
  | shutdown => simp [callFor, after]

theorem turned_calls (handlers : t.handlers = s.handlers)
    (fresh : ∀ id pc rest, t.server = .cleaning id pc rest → pc = .entering) (k : Caller) :
    callFor t k = callFor s k ∨ ∀ other pc, callFor t k = some (other, pc) → pc = .entering := by
  cases k with
  | handler d => exact .inl (callFor_handler (by rw [handlers]))
  | shutdown =>
    refine .inr fun other pc calling => ?_
    simp only [callFor] at calling
    split at calling
    · rename_i id place rest next
      rw [Option.some.injEq, Prod.mk.injEq] at calling
      rw [← calling.2]
      exact fresh id place rest next
    · simp at calling

theorem onwards_call {a : Act} (onwards : Onwards c a (s.handlers c).pc (t.handlers c).pc)
    (id : (t.handlers c).id = (s.handlers c).id) :
    callFor t (.handler c) = callFor s (.handler c) ∨
      ∀ other pc, callFor t (.handler c) = some (other, pc) → pc = .entering := by
  generalize before : (s.handlers c).pc = place at onwards
  generalize after : (t.handlers c).pc = next at onwards
  cases onwards with
  | traffic => exact .inl (by simp only [callFor, before, after, id])
  | _ => exact .inr (by simp [callFor, after])

end Calls

def Known (s : Client) : Prop := ∀ c, (s.handlers c).pc ≠ .absent → c ∈ s.accepted

theorem onwards_arrived {c : Nat} {a : Act} {pc next : HandlerPc}
    (onwards : Onwards c a pc next) (arrived : next ≠ .absent) : pc ≠ .absent := by
  cases onwards with
  | traffic => exact arrived
  | interrupted trying => rcases trying with rfl | rfl <;> simp
  | _ => simp

theorem known_of_mine {s t : Client} {c : Nat} (known : Known s)
    (others : ∀ d, d ≠ c → t.handlers d = s.handlers d)
    (accepted : ∀ d, d ∈ s.accepted → d ∈ t.accepted)
    (mine : (t.handlers c).pc ≠ .absent → c ∈ t.accepted) : Known t := by
  intro d arrived
  by_cases same : d = c
  · rw [same] at arrived ⊢
    exact mine arrived
  · rw [others d same] at arrived
    exact accepted d (known d arrived)

theorem step_known {s t : Client} {a : Act} (known : Known s) (stepped : step s a = some t) :
    Known t := by
  cases step_effect stepped with
  | accepted c id others registry server before after given accepted =>
    exact known_of_mine known others (by simp +contextual [accepted]) (by simp [accepted])
  | moved c others registry server id accepted onwards =>
    refine known_of_mine known others (by simp [accepted]) fun arrived => ?_
    rw [accepted]
    exact known c (onwards_arrived onwards arrived)
  | registered c others server before after id accepted registry =>
    refine known_of_mine known others (by simp [accepted]) fun _ => ?_
    rw [accepted]
    exact known c (by simp [before])
  | cleaned c others server before after id accepted cleanup =>
    refine known_of_mine known others (by simp [accepted]) fun _ => ?_
    rw [accepted]
    exact known c (by simp [before])
  | looped handlers accepted before after cleanup =>
    rw [Known, handlers, accepted]
    exact known
  | turned handlers accepted registry fresh =>
    rw [Known, handlers, accepted]
    exact known

theorem callFor_known {s : Client} (known : Known s) {k : Caller} {call : Call}
    (calling : callFor s k = some call) : k ∈ callers s := by
  cases k with
  | handler c =>
    have arrived : (s.handlers c).pc ≠ .absent := by
      intro absent
      simp [callFor, absent] at calling
    simp [callers, known c arrived]
  | shutdown => simp [callers]

/-- `c` gets through its set-up and is registered while no call for its id is midway; no other
    connection replaces its entry before both its sockets are closed. -/
def Undisturbed (c : Nat) (s : Client) : Act → Prop
  | .sslRaises d | .connectRaises d => d ≠ c
  | .connected d =>
    if d = c then ∀ k ∈ callers s, ¬ Midway (s.handlers c).id (callFor s k)
    else s.registry.activeConnections.get (s.handlers d).id = some (own c) →
      BothCalled s.registry (own c)
  | _ => True

theorem onwards_registered {c : Nat} {a : Act} {s : Client} {pc next : HandlerPc}
    (onwards : Onwards c a pc next) (undisturbed : Undisturbed c s a) :
    registered next = registered pc := by
  cases onwards with
  | sslRaises => exact absurd rfl undisturbed
  | connectRaises => exact absurd rfl undisturbed
  | interrupted trying => rcases trying with rfl | rfl <;> rfl
  | _ => rfl

theorem step_tended {s t : Client} {a : Act} {c : Nat} (known : Known s)
    (tended : TendedIn c s) (undisturbed : Undisturbed c s a) (stepped : step s a = some t) :
    TendedIn c t := by
  unfold TendedIn at tended ⊢
  cases step_effect stepped with
  | accepted d id others registry server before after given accepted =>
    have quiet : callFor t (.handler d) = callFor s (.handler d) := by
      rw [callFor_none (by rw [after]; rfl), callFor_none (by rw [before]; rfl)]
    have calls := tended_calls tended (calls_quiet others server (.inl quiet))
    rw [registry]
    by_cases mine : d = c
    · subst mine
      rw [before] at calls
      rw [after]
      exact tended_new_id calls
    · rw [others c (Ne.symm mine)]
      exact calls
  | moved d others registry server id accepted onwards =>
    have calls := tended_calls tended (calls_quiet others server (onwards_call onwards id))
    rw [registry]
    by_cases mine : d = c
    · subst mine
      rw [onwards_registered onwards undisturbed, id]
      exact calls
    · rw [others c (Ne.symm mine)]
      exact calls
  | registered d others server before after id accepted registry =>
    have none : callFor s (.handler d) = none := callFor_none (by rw [before]; rfl)
    have quiet := calls_quiet others server (.inr (by simp [callFor, after]))
    rw [registry]
    by_cases mine : d = c
    · subst mine
      rw [before] at tended
      rw [after, id]
      refine tended_calls (tended_registered tended ?_ none) quiet
      intro k midway
      cases calling : callFor s k with
      | none => simp [calling, Midway] at midway
      | some call =>
        simp only [Undisturbed, if_pos] at undisturbed
        exact undisturbed k (callFor_known known calling) midway
    · rw [others c (Ne.symm mine)]
      simp only [Undisturbed, if_neg mine] at undisturbed
      exact tended_calls (tended_other_registered tended mine undisturbed) quiet
  | cleaned d others server before after id accepted cleanup =>
    rw [calls_handler others server after id]
    have next := tended_cleaned tended (callFor_cleaning before) cleanup
    by_cases mine : d = c
    · subst mine
      rw [after, id]
      rw [before] at next
      exact next
    · rw [others c (Ne.symm mine)]
      exact next
  | looped handlers accepted before after cleanup =>
    rw [calls_shutdown handlers after, handlers]
    exact tended_cleaned tended (by simp [callFor, before]) cleanup
  | turned handlers accepted registry fresh =>
    rw [handlers, registry]
    exact tended_calls tended (turned_calls handlers fresh)

theorem init_known (source destination : Nat → ByteStream.Bytes) :
    Known (init source destination) := by
  simp [Known, init]

theorem init_tended (source destination : Nat → ByteStream.Bytes) (c : Nat) :
    TendedIn c (init source destination) := by
  constructor <;> simp [init, registered, callFor]

/-- Besides, neither close of the cleanup of `c` raises. -/
def Spared (c : Nat) (s : Client) : Act → Prop
  | .cleanup d .webSocketRaises | .cleanup d .waitClosedRaises => d ≠ c
  | a => Undisturbed c s a

theorem spared_undisturbed {c : Nat} {s : Client} {a : Act} (spared : Spared c s a) :
    Undisturbed c s a := by
  unfold Spared at spared
  split at spared
  · trivial
  · trivial
  · exact spared

/-- The cleanup of `c` has not been left by an exception of a close. -/
def ClosesReturn (c : Nat) (s : Client) : Prop :=
  (s.handlers c).pc ≠ .cleaning (.raised .closeRaised)

theorem onwards_no_raise {c : Nat} {a : Act} {pc next : HandlerPc}
    (onwards : Onwards c a pc next) (before : pc ≠ .cleaning (.raised .closeRaised)) :
    next ≠ .cleaning (.raised .closeRaised) := by
  cases onwards with
  | traffic => exact before
  | _ => simp

theorem step_closesReturn {s t : Client} {a : Act} {c : Nat} (closes : ClosesReturn c s)
    (spared : Spared c s a) (stepped : step s a = some t) : ClosesReturn c t := by
  unfold ClosesReturn at closes ⊢
  cases step_effect stepped with
  | accepted d id others registry server before after given accepted =>
    by_cases mine : d = c
    · rw [← mine, after]
      simp
    · rw [others c (Ne.symm mine)]
      exact closes
  | moved d others registry server id accepted onwards =>
    by_cases mine : d = c
    · subst mine
      exact onwards_no_raise onwards closes
    · rw [others c (Ne.symm mine)]
      exact closes
  | registered d others server before after id accepted registry =>
    by_cases mine : d = c
    · rw [← mine, after]
      simp
    · rw [others c (Ne.symm mine)]
      exact closes
  | cleaned d others server before after id accepted cleanup =>
    by_cases mine : d = c
    · subst mine
      rw [after]
      generalize t.registry = q at cleanup
      cases cleanup with
      | webSocketRaises => exact absurd rfl spared
      | waitClosedRaises => exact absurd rfl spared
      | _ => simp
    · rw [others c (Ne.symm mine)]
      exact closes
  | looped handlers accepted before after cleanup =>
    rw [handlers]
    exact closes
  | turned handlers accepted registry fresh =>
    rw [handlers]
    exact closes

def Released (c : Nat) (s : Client) : Prop :=
  Called s.registry (.unixWriter c) ∧ ∀ id, s.registry.activeConnections.get id ≠ some (own c)

theorem tended_released {s : Client} {c : Nat} (tended : TendedIn c s)
    (closes : ClosesReturn c s) (done : finished (s.handlers c).pc = true) : Released c s := by
  have gone : s.registry.activeConnections.get (s.handlers c).id ≠ some (own c) ∧
      registered (s.handlers c).pc = true := by
    cases here : (s.handlers c).pc with
    | cleaning pc =>
      refine ⟨tended.swept pc (callFor_cleaning here) ?_, rfl⟩
      rw [here] at done
      cases pc with
      | returned => exact .inl rfl
      | raised failure =>
        cases failure with
        | keyError => exact .inr rfl
        | closeRaised => exact absurd here closes
      | _ => simp [finished] at done
    | _ => simp [here, finished] at done
  constructor
  · rcases tended.present gone.2 with held | both
    · exact absurd held gone.1
    · exact both.2
  · intro id held
    rw [(tended.only id held).1] at held
    exact gone.1 held

theorem session_released {source destination : Nat → ByteStream.Bytes} {acts : List Act}
    {s : Client} {c : Nat} (spared : Runs.Along step (Spared c) (init source destination) acts)
    (reached : Runs.run step (init source destination) acts = some s)
    (done : finished (s.handlers c).pc = true) : Released c s := by
  obtain ⟨-, tended, closes⟩ : Known s ∧ TendedIn c s ∧ ClosesReturn c s := by
    refine Runs.invariant_along (fun s => Known s ∧ TendedIn c s ∧ ClosesReturn c s) ?_
      ⟨init_known _ _, init_tended _ _ _, by simp [ClosesReturn, init]⟩ spared reached
    rintro s a t ⟨known, tended, closes⟩ spared stepped
    exact ⟨step_known known stepped, step_tended known tended (spared_undisturbed spared) stepped,
      step_closesReturn closes spared stepped⟩
  exact tended_released tended closes done

instance (r : Registry Caller) (resource : Cleanup.Resource) : Decidable (Called r resource) :=
  decidable_of_iff (resource ∈ r.closed.map Prod.snd) (by simp [Called])

instance (r : Registry Caller) (info : ConnInfo) : Decidable (BothCalled r info) :=
  inferInstanceAs (Decidable (_ ∧ _))

instance (id : ConnectionId) : DecidablePred (Midway id)
  | none => inferInstanceAs (Decidable False)
  | some (other, .closingWebSocket _) => inferInstanceAs (Decidable (other = id))
  | some (other, .closingUnix _) => inferInstanceAs (Decidable (other = id))
  | some (_, .entering) => inferInstanceAs (Decidable False)
  | some (_, .returned) => inferInstanceAs (Decidable False)
  | some (_, .raised _) => inferInstanceAs (Decidable False)

instance (c : Nat) (s : Client) (a : Act) : Decidable (Undisturbed c s a) := by
  unfold Undisturbed; split <;> infer_instance

instance (c : Nat) (s : Client) (a : Act) : Decidable (Spared c s a) := by
  unfold Spared; split <;> infer_instance

def oneSession : List Act :=
  [.accept 0 5, .sslCreated 0, .connected 0, .traffic 0 (.up .startSend),
    .traffic 0 (.up (.read 1)), .traffic 0 (.up .accept), .traffic 0 (.up .sendReturns),
    .traffic 0 (.up .eof), .waitReturns 0, .traffic 0 (.down .dropReceive), .joined 0,
    .cleanup 0 .enter, .cleanup 0 .webSocketClosed, .cleanup 0 .unixClosed]

theorem session_released_one_byte : ∃ s,
    Runs.run step (init (fun _ => [1]) fun _ => []) oneSession = some s ∧ Released 0 s := by
  obtain ⟨s, reached, done⟩ : ∃ s,
      Runs.run step (init (fun _ => [1]) fun _ => []) oneSession = some s ∧
        finished (s.handlers 0).pc = true := Runs.reaches (by decide)
  exact ⟨s, reached, session_released (c := 0) (by decide) reached done⟩

/-- `create_ssl_context` raises because a certificate file is missing. -/
theorem failed_setup_keeps_writer :
    ¬ ∀ (source destination : Nat → ByteStream.Bytes) (acts : List Act) (s : Client) (c : Nat),
      Runs.run step (init source destination) acts = some s →
        finished (s.handlers c).pc = true → Released c s := by
  intro claim
  obtain ⟨s, reached, done, kept⟩ : ∃ s, Runs.run step (init (fun _ => []) fun _ => [])
      [.accept 0 5, .sslRaises 0, .cleanup 0 .enter] = some s ∧
        finished (s.handlers 0).pc = true ∧ s.registry.closed = [] := Runs.reaches (by decide)
  obtain ⟨caller, closed⟩ := (claim _ _ _ s 0 reached done).1
  simp [kept] at closed

end Release
