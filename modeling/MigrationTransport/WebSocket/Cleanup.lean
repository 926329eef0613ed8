import MigrationTransport.Lib.OrderedDict

/-!
`cleanup_connection` of the WebSocket client, which every handler runs for its own
connection and `start_unix_server` runs for all that are left. Its test for membership
and its `del` are separated by the two awaits of the closes. `closed` is the history of
the calls of `close()`, with the caller on whose behalf each was made.
-/
namespace Cleanup

/-- `str(uuid.uuid4())[:8]`, eight hexadecimal digits. -/
abbrev ConnectionId := BitVec 32

/-- An entry of `active_connections`; the numbers name the objects. -/
structure ConnInfo where
  websocket : Nat
  unixReader : Nat
  unixWriter : Nat
  deriving DecidableEq

inductive Resource where
  | websocket (name : Nat)
  | unixWriter (name : Nat)
  deriving DecidableEq

structure Registry (Caller : Type) where
  activeConnections : OrderedDict ConnectionId ConnInfo
  closed : List (Caller × Resource)

inductive Failure where
  | keyError
  | closeRaised
  deriving DecidableEq

inductive Pc where
  | entering
  | closingWebSocket (info : ConnInfo)
  | closingUnix (info : ConnInfo)
  | returned
  | raised (failure : Failure)
  deriving DecidableEq

inductive Act where
  | enter
  | webSocketClosed
  | webSocketRaises
  | unixClosed
  | waitClosedRaises
  deriving DecidableEq

variable {Caller : Type}

def close (r : Registry Caller) (caller : Caller) (resource : Resource) : Registry Caller :=
  { r with closed := r.closed ++ [(caller, resource)] }

def step (caller : Caller) (id : ConnectionId) (r : Registry Caller) (pc : Pc) :
    Act → Option (Registry Caller × Pc)
  | .enter =>
    match pc with
    | .entering =>
      match r.activeConnections.get id with
      | some info => some (close r caller (.websocket info.websocket), .closingWebSocket info)
      | none => some (r, .returned)
    | _ => none
  | .webSocketClosed =>
    match pc with
    | .closingWebSocket info =>
      some (close r caller (.unixWriter info.unixWriter), .closingUnix info)
    | _ => none
  | .webSocketRaises =>
    match pc with
    | .closingWebSocket _ => some (r, .raised .closeRaised)
    | _ => none
  | .unixClosed =>
    match pc with
    | .closingUnix _ =>
      match r.activeConnections.del id with
      | some rest => some ({ r with activeConnections := rest }, .returned)
      | none => some (r, .raised .keyError)
    | _ => none
  | .waitClosedRaises =>
    match pc with
    | .closingUnix _ => some (r, .raised .closeRaised)
    | _ => none

def Called (r : Registry Caller) (resource : Resource) : Prop :=
  ∃ caller, (caller, resource) ∈ r.closed

def BothCalled (r : Registry Caller) (info : ConnInfo) : Prop :=
  Called r (.websocket info.websocket) ∧ Called r (.unixWriter info.unixWriter)

theorem called_close {r : Registry Caller} {resource : Resource} (before : Called r resource)
    (c : Caller) (other : Resource) : Called (close r c other) resource := by
  obtain ⟨caller, member⟩ := before
  exact ⟨caller, by simp [close, member]⟩

theorem called_now (r : Registry Caller) (c : Caller) (resource : Resource) :
    Called (close r c resource) resource :=
  ⟨c, by simp [close]⟩

theorem bothCalled_close {r : Registry Caller} {info : ConnInfo} (before : BothCalled r info)
    (c : Caller) (other : Resource) : BothCalled (close r c other) info :=
  ⟨called_close before.1 c other, called_close before.2 c other⟩

inductive Moved (caller : Caller) (id : ConnectionId) (r : Registry Caller) :
    Pc → Act → Registry Caller → Pc → Prop where
  | passed {info : ConnInfo} (held : r.activeConnections.get id = some info) :
      Moved caller id r .entering .enter (close r caller (.websocket info.websocket))
        (.closingWebSocket info)
  | absent (gone : r.activeConnections.get id = none) :
      Moved caller id r .entering .enter r .returned
  | webSocketClosed (info : ConnInfo) :
      Moved caller id r (.closingWebSocket info) .webSocketClosed
        (close r caller (.unixWriter info.unixWriter)) (.closingUnix info)
  | webSocketRaises (info : ConnInfo) :
      Moved caller id r (.closingWebSocket info) .webSocketRaises r (.raised .closeRaised)
  | deleted (info : ConnInfo) {rest : OrderedDict ConnectionId ConnInfo}
      (deleted : r.activeConnections.del id = some rest) :
      Moved caller id r (.closingUnix info) .unixClosed { r with activeConnections := rest }
        .returned
  | keyError (info : ConnInfo) (gone : r.activeConnections.get id = none) :
      Moved caller id r (.closingUnix info) .unixClosed r (.raised .keyError)
  | waitClosedRaises (info : ConnInfo) :
      Moved caller id r (.closingUnix info) .waitClosedRaises r (.raised .closeRaised)

theorem step_moved {caller : Caller} {id : ConnectionId} {r q : Registry Caller} {pc next : Pc}
    {a : Act} (stepped : step caller id r pc a = some (q, next)) :
    Moved caller id r pc a q next := by
  cases a with
  | enter =>
    simp only [step] at stepped
    split at stepped
    · split at stepped
      all_goals
        rename_i held
        simp only [Option.some.injEq, Prod.mk.injEq] at stepped
        obtain ⟨rfl, rfl⟩ := stepped
      · exact .passed held
      · exact .absent held
    · simp at stepped
  | webSocketClosed | webSocketRaises | waitClosedRaises =>
    simp only [step] at stepped
    split at stepped
    · simp only [Option.some.injEq, Prod.mk.injEq] at stepped
      obtain ⟨rfl, rfl⟩ := stepped
      constructor
    · simp at stepped
  | unixClosed =>
    simp only [step] at stepped
    split at stepped
    · split at stepped
      all_goals
        rename_i found
        simp only [Option.some.injEq, Prod.mk.injEq] at stepped
        obtain ⟨rfl, rfl⟩ := stepped
      · exact .deleted _ found
      · exact .keyError _ (OrderedDict.del_none.mp found)
    · simp at stepped

end Cleanup
