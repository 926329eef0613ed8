import MigrationTransport.WebSocket.Release

/-!
Which cleanup closes which sockets. The registry knows a connection only by its id, so a
handler finds its own entry there as long as no other is registered under that id.
-/
namespace Ownership
open WebSocketClient Release
open Cleanup (ConnectionId ConnInfo Registry Called BothCalled)

/-- From registration to the end of the handler. -/
def live (pc : HandlerPc) : Bool := registered pc && !finished pc

/-- What the handler of `c` has closed, for each place in its own cleanup. -/
def Fits (c : Nat) (r : Registry Caller) : HandlerPc → Prop
  | .cleaning pc => CallFits c r pc ∧ (pc = .raised .closeRaised → BothCalled r (own c))
  | _ => True

/-- The handler of `c` finds nothing under its id but its own entry, and has closed nothing but
    its own sockets. -/
structure Kept (c : Nat) (pc : HandlerPc) (id : ConnectionId) (r : Registry Caller) : Prop where
  alone : live pc = true →
    r.activeConnections.get id = some (own c) ∨ r.activeConnections.get id = none
  fits : Fits c r pc
  log : ∀ resource, (Caller.handler c, resource) ∈ r.closed →
    resource = .websocket c ∨ resource = .unixWriter c

def KeptIn (c : Nat) (s : Client) : Prop :=
  Kept c (s.handlers c).pc (s.handlers c).id s.registry

/-- No connection is registered under the id of a live one or while the final loop is midway
    with its id; no handler fails before its connection is registered, and no
    `websocket.close()` that a handler awaits raises. -/
def Orderly (s : Client) : Act → Prop
  | .connected c =>
    (∀ d ∈ s.accepted, live (s.handlers d).pc = true → (s.handlers d).id ≠ (s.handlers c).id) ∧
      ¬ Midway (s.handlers c).id (callFor s .shutdown)
  | .sslRaises _ | .connectRaises _ | .cleanup _ .webSocketRaises => False
  | _ => True

theorem live_registered {pc : HandlerPc} (alive : live pc = true) : registered pc = true := by
  simp only [live, Bool.and_eq_true] at alive
  exact alive.1

theorem registered_cases {pc : HandlerPc} (been : registered pc = true) :
    live pc = true ∨ finished pc = true := by
  cases done : finished pc with
  | true => exact .inr rfl
  | false => exact .inl (by simp [live, been, done])

theorem live_arrived {pc : HandlerPc} (alive : live pc = true) : pc ≠ .absent := by
  rintro rfl
  simp [live, registered] at alive

theorem midway_live {s : Client} {d : Nat} {id : ConnectionId}
    (midway : Midway id (callFor s (.handler d))) :
    live (s.handlers d).pc = true ∧ (s.handlers d).id = id := by
  cases here : (s.handlers d).pc with
  | cleaning pc =>
    rw [callFor_cleaning here] at midway
    cases pc with
    | closingWebSocket info => exact ⟨rfl, midway⟩
    | closingUnix info => exact ⟨rfl, midway⟩
    | _ => exact midway.elim
  | _ => simp [callFor, here, Midway] at midway

theorem kept_finished {s : Client} {c : Nat} (tended : TendedIn c s) (kept : KeptIn c s)
    (done : finished (s.handlers c).pc = true) : BothCalled s.registry (own c) := by
  by_cases closes : ClosesReturn c s
  · have gone := (tended_released tended closes done).2 (s.handlers c).id
    have been : registered (s.handlers c).pc = true := by
      cases here : (s.handlers c).pc <;> simp_all [finished, registered]
    rcases tended.present been with held | both
    · exact absurd held gone
    · exact both
  · have fits := kept.fits
    rw [not_not.mp closes] at fits
    exact fits.2 rfl

theorem orderly_undisturbed {s : Client} {a : Act} {c : Nat} (known : Known s)
    (tended : TendedIn c s) (kept : KeptIn c s) (orderly : Orderly s a) : Undisturbed c s a := by
  cases a with
  | sslRaises d => exact orderly.elim
  | connectRaises d => exact orderly.elim
  | connected d =>
    obtain ⟨fresh, idle⟩ := orderly
    simp only [Undisturbed]
    split
    · rename_i mine
      subst mine
      intro k calling midway
      cases k with
      | shutdown => exact idle midway
      | handler e =>
        obtain ⟨alive, same⟩ := midway_live midway
        exact fresh e (known e (live_arrived alive)) alive same
    · intro held
      obtain ⟨same, been⟩ := tended.only _ held
      rcases registered_cases been with alive | done
      · exact absurd same.symm (fresh c (known c (live_arrived alive)) alive)
      · exact kept_finished tended kept done
  | _ => trivial

theorem fits_close {c : Nat} {r : Registry Caller} {pc : HandlerPc} (fits : Fits c r pc)
    (caller : Caller) (resource : Cleanup.Resource) :
    Fits c (Cleanup.close r caller resource) pc := by
  cases pc with
  | cleaning pc =>
    exact ⟨callFits_close fits.1 caller resource,
      fun raised => Cleanup.bothCalled_close (fits.2 raised) caller resource⟩
  | _ => trivial

theorem kept_moves {c : Nat} {a : Act} {pc next : HandlerPc} {id : ConnectionId} {s : Client}
    {r : Registry Caller} (kept : Kept c pc id r) (orderly : Orderly s a)
    (onwards : Onwards c a pc next) : Kept c next id r := by
  cases onwards with
  | sslRaises => exact orderly.elim
  | connectRaises => exact orderly.elim
  | sslCreated => exact ⟨by simp [live, registered], trivial, kept.log⟩
  | traffic a pc => exact kept
  | joins => exact ⟨fun _ => kept.alone rfl, trivial, kept.log⟩
  | waitReturns => exact ⟨fun _ => kept.alone rfl, ⟨trivial, by simp⟩, kept.log⟩
  | joined => exact ⟨fun _ => kept.alone rfl, ⟨trivial, by simp⟩, kept.log⟩
  | interrupted trying =>
    rcases trying with rfl | rfl
    · exact ⟨fun _ => kept.alone rfl, ⟨trivial, by simp⟩, kept.log⟩
    · exact ⟨fun _ => kept.alone rfl, ⟨trivial, by simp⟩, kept.log⟩

theorem kept_close {c : Nat} {pc : HandlerPc} {id : ConnectionId} {r : Registry Caller}
    (kept : Kept c pc id r) {caller : Caller} (other : caller ≠ .handler c)
    (resource : Cleanup.Resource) : Kept c pc id (Cleanup.close r caller resource) := by
  refine ⟨kept.alone, fits_close kept.fits caller resource, ?_⟩
  intro closed member
  rcases List.mem_append.mp member with old | new
  · exact kept.log closed old
  · rw [List.mem_singleton, Prod.mk.injEq] at new
    exact absurd new.1.symm other

theorem kept_delete {c : Nat} {pc : HandlerPc} {id key : ConnectionId} {r : Registry Caller}
    {rest : OrderedDict ConnectionId ConnInfo} (kept : Kept c pc id r)
    (deleted : r.activeConnections.del key = some rest) :
    Kept c pc id { r with activeConnections := rest } := by
  refine ⟨fun alive => ?_, kept.fits, kept.log⟩
  rw [OrderedDict.get_del deleted]
  split
  · exact .inr rfl
  · exact kept.alone alive

theorem kept_other_cleaned {c : Nat} {pc : HandlerPc} {id key : ConnectionId}
    {r q : Registry Caller} {k : Caller} {place next : Cleanup.Pc} {a : Cleanup.Act}
    (kept : Kept c pc id r) (other : k ≠ .handler c)
    (cleanup : Cleanup.Moved k key r place a q next) : Kept c pc id q := by
  cases cleanup with
  | passed held => exact kept_close kept other _
  | webSocketClosed info => exact kept_close kept other _
  | deleted info deleted => exact kept_delete kept deleted
  | _ => exact kept

theorem kept_own_close {c : Nat} {pc next : Cleanup.Pc} {id : ConnectionId}
    {r : Registry Caller} {resource : Cleanup.Resource} (kept : Kept c (.cleaning pc) id r)
    (before : live (.cleaning pc) = true)
    (mine : resource = .websocket c ∨ resource = .unixWriter c)
    (fits : Fits c (Cleanup.close r (.handler c) resource) (.cleaning next)) :
    Kept c (.cleaning next) id (Cleanup.close r (.handler c) resource) := by
  refine ⟨fun _ => kept.alone before, fits, ?_⟩
  intro closed member
  rcases List.mem_append.mp member with old | new
  · exact kept.log closed old
  · rw [List.mem_singleton, Prod.mk.injEq] at new
    rw [new.2]
    exact mine

theorem kept_own_cleaned {c : Nat} {id : ConnectionId} {r q : Registry Caller}
    {place next : Cleanup.Pc} {a : Cleanup.Act} (kept : Kept c (.cleaning place) id r)
    (closes : a ≠ .webSocketRaises) (cleanup : Cleanup.Moved (.handler c) id r place a q next) :
    Kept c (.cleaning next) id q := by
  cases cleanup with
  | passed found =>
    rename_i info
    have mine : info = own c := by
      rcases kept.alone rfl with held | gone
      · exact Option.some.inj (found.symm.trans held)
      · simp [found] at gone
    subst mine
    exact kept_own_close kept rfl (.inl rfl) ⟨⟨rfl, Cleanup.called_now _ _ _⟩, by simp⟩
  | absent gone => exact ⟨fun _ => .inr gone, ⟨trivial, by simp⟩, kept.log⟩
  | webSocketClosed info =>
    obtain ⟨rfl, webSocket⟩ := kept.fits.1
    exact kept_own_close kept rfl (.inr rfl)
      ⟨⟨rfl, Cleanup.called_close webSocket _ _, Cleanup.called_now _ _ _⟩, by simp⟩
  | webSocketRaises info => exact absurd rfl closes
  | deleted info deleted =>
    have kept := kept_delete kept deleted
    exact ⟨by simp [live, finished], ⟨trivial, by simp⟩, kept.log⟩
  | keyError info gone => exact ⟨fun _ => .inr gone, ⟨trivial, by simp⟩, kept.log⟩
  | waitClosedRaises info =>
    exact ⟨by simp [live, finished], ⟨trivial, fun _ => kept.fits.1.2⟩, kept.log⟩

theorem kept_registered {c : Nat} {id : ConnectionId} {r : Registry Caller}
    (kept : Kept c .connecting id r) :
    Kept c .forwarding id { r with activeConnections := r.activeConnections.set id (own c) } :=
  ⟨fun _ => .inl (by rw [OrderedDict.get_set, if_pos rfl]), trivial, kept.log⟩

theorem kept_other_registered {c d : Nat} {pc : HandlerPc} {id key : ConnectionId}
    {r : Registry Caller} (kept : Kept c pc id r) (apart : live pc = true → id ≠ key) :
    Kept c pc id { r with activeConnections := r.activeConnections.set key (own d) } := by
  refine ⟨fun alive => ?_, kept.fits, kept.log⟩
  rw [OrderedDict.get_set, if_neg (apart alive)]
  exact kept.alone alive

theorem step_kept {s t : Client} {a : Act} {c : Nat} (known : Known s) (kept : KeptIn c s)
    (orderly : Orderly s a) (stepped : step s a = some t) : KeptIn c t := by
  unfold KeptIn at kept ⊢
  cases step_effect stepped with
  | accepted d id others registry server before after given accepted =>
    rw [registry]
    by_cases mine : d = c
    · rw [← mine, after]
      rw [← mine] at kept
      exact ⟨by simp [live, registered], trivial, kept.log⟩
    · rw [others c (Ne.symm mine)]
      exact kept
  | moved d others registry server id accepted onwards =>
    rw [registry]
    by_cases mine : d = c
    · subst mine
      rw [id]
      exact kept_moves kept orderly onwards
    · rw [others c (Ne.symm mine)]
      exact kept
  | registered d others server before after id accepted registry =>
    rw [registry]
    by_cases mine : d = c
    · subst mine
      rw [after, id]
      rw [before] at kept
      exact kept_registered kept
    · rw [others c (Ne.symm mine)]
      exact kept_other_registered kept fun alive =>
        orderly.1 c (known c (live_arrived alive)) alive
  | cleaned d others server before after id accepted cleanup =>
    by_cases mine : d = c
    · subst mine
      rw [after, id]
      rw [before] at kept
      refine kept_own_cleaned kept ?_ cleanup
      rintro rfl
      exact orderly
    · rw [others c (Ne.symm mine)]
      exact kept_other_cleaned kept (by simpa using mine) cleanup
  | looped handlers accepted before after cleanup =>
    rw [handlers]
    exact kept_other_cleaned kept (by simp) cleanup
  | turned handlers accepted registry fresh =>
    rw [handlers, registry]
    exact kept

theorem init_kept (source destination : Nat → ByteStream.Bytes) (c : Nat) :
    KeptIn c (init source destination) := by
  constructor <;> simp [init, live, registered, Fits]

/-- Called by the handler of `c` or by the final loop, for nobody else has to. -/
def ClosedByOwner (s : Client) (c : Nat) (resource : Cleanup.Resource) : Prop :=
  (Caller.handler c, resource) ∈ s.registry.closed ∨ (Caller.shutdown, resource) ∈ s.registry.closed

def CleanedUp (s : Client) (c : Nat) : Prop :=
  ClosedByOwner s c (.websocket c) ∧ ClosedByOwner s c (.unixWriter c)

structure Owned (s : Client) : Prop where
  released : ∀ c, finished (s.handlers c).pc = true → CleanedUp s c
  closes : ∀ c d, (Caller.handler c, .websocket d) ∈ s.registry.closed ∨
    (Caller.handler c, .unixWriter d) ∈ s.registry.closed → live (s.handlers d).pc = true → d = c
  present : ∀ c, live (s.handlers c).pc = true →
    s.registry.activeConnections.get (s.handlers c).id = some (own c) ∨ CleanedUp s c

theorem called_by_owner {s : Client} (kept : ∀ c, KeptIn c s) {c : Nat}
    {resource : Cleanup.Resource} (mine : resource = .websocket c ∨ resource = .unixWriter c)
    (called : Called s.registry resource) : ClosedByOwner s c resource := by
  obtain ⟨caller, member⟩ := called
  cases caller with
  | shutdown => exact .inr member
  | handler d =>
    have same : c = d := by
      rcases mine with rfl | rfl
      · simpa using (kept d).log _ member
      · simpa using (kept d).log _ member
    rw [← same] at member
    exact .inl member

theorem cleanedUp_of_called {s : Client} (kept : ∀ c, KeptIn c s) {c : Nat}
    (both : BothCalled s.registry (own c)) : CleanedUp s c :=
  ⟨called_by_owner kept (.inl rfl) both.1, called_by_owner kept (.inr rfl) both.2⟩

theorem kept_owned {s : Client} (tended : ∀ c, TendedIn c s) (kept : ∀ c, KeptIn c s) :
    Owned s := by
  refine ⟨?_, ?_, ?_⟩
  · intro c done
    exact cleanedUp_of_called kept (kept_finished (tended c) (kept c) done)
  · rintro c d (closed | closed) -
    · simpa using (kept c).log _ closed
    · simpa using (kept c).log _ closed
  · intro c alive
    rcases (tended c).present (live_registered alive) with held | both
    · exact .inl held
    · exact .inr (cleanedUp_of_called kept both)

theorem connections_keep_their_sockets {source destination : Nat → ByteStream.Bytes}
    {acts : List Act} {s : Client}
    (orderly : Runs.Along step Orderly (init source destination) acts)
    (reached : Runs.run step (init source destination) acts = some s) : Owned s := by
  obtain ⟨-, whole⟩ : Known s ∧ ∀ c, TendedIn c s ∧ KeptIn c s := by
    refine Runs.invariant_along (fun s => Known s ∧ ∀ c, TendedIn c s ∧ KeptIn c s) ?_
      ⟨init_known _ _, fun c => ⟨init_tended _ _ c, init_kept _ _ c⟩⟩ orderly reached
    rintro s a t ⟨known, whole⟩ orderly stepped
    refine ⟨step_known known stepped, fun c => ?_⟩
    obtain ⟨tended, kept⟩ := whole c
    exact ⟨step_tended known tended (orderly_undisturbed known tended kept orderly) stepped,
      step_kept known kept orderly stepped⟩
  exact kept_owned (fun c => (whole c).1) fun c => (whole c).2

instance (s : Client) : DecidablePred (Orderly s)
  | .connected _ => inferInstanceAs (Decidable (_ ∧ _))
  | .sslRaises _ | .connectRaises _ | .cleanup _ .webSocketRaises => isFalse not_false
  | .accept _ _ | .sslCreated _ | .traffic _ _ | .waitReturns _ | .joined _ | .interrupted _
  | .cleanup _ .enter | .cleanup _ .webSocketClosed | .cleanup _ .unixClosed
  | .cleanup _ .waitClosedRaises | .serverEnds | .serverCleanup _ | .serverNext => isTrue trivial

/-- Both connections get the same id, but the first has been deleted when the second is
    registered. -/
def reusedId : List Act :=
  [.accept 0 5, .sslCreated 0, .connected 0, .interrupted 0, .accept 1 5, .sslCreated 1,
    .cleanup 0 .enter, .cleanup 0 .webSocketClosed, .cleanup 0 .unixClosed, .connected 1,
    .interrupted 1, .cleanup 1 .enter]

theorem connections_keep_their_sockets_reused_id : ∃ s,
    Runs.run step (init (fun _ => []) fun _ => []) reusedId = some s ∧ Owned s := by
  obtain ⟨s, reached, -⟩ : ∃ s, Runs.run step (init (fun _ => []) fun _ => []) reusedId = some s ∧
      finished (s.handlers 0).pc = true := Runs.reaches (by decide)
  exact ⟨s, reached, connections_keep_their_sockets (by decide) reached⟩

/-- Two connections get the same id, so the first handler to fail closes the sockets of the
    other. -/
theorem shared_id_closes_the_other :
    ¬ ∀ (source destination : Nat → ByteStream.Bytes) (acts : List Act) (s : Client),
      Runs.run step (init source destination) acts = some s → Owned s := by
  intro claim
  obtain ⟨s, reached, closed, alive⟩ : ∃ s, Runs.run step (init (fun _ => []) fun _ => [])
      [.accept 0 5, .accept 1 5, .sslCreated 0, .sslCreated 1, .connected 0, .connected 1,
        .interrupted 0, .cleanup 0 .enter] = some s ∧
      (Caller.handler 0, Cleanup.Resource.websocket 1) ∈ s.registry.closed ∧
        live (s.handlers 1).pc = true := Runs.reaches (by decide)
  have same := (claim _ _ _ s reached).closes 0 1 (.inl closed) alive
  simp at same

end Ownership
