import MigrationTransport.WebSocket.Cleanup
import MigrationTransport.WebSocket.Tunnel

/-!
`handle_client` of the WebSocket server, for all of its sessions at once: each is a run of
the handler beside the two loops that it creates, and they share `active_connections` under
truncated ids. One action is one stretch between two awaits. A handler may be cancelled at
any await; whoever ends the event loop may cancel the forwarding loops as well.
-/
namespace WebSocketServer
open ByteStream WebSocketPipe
open WebSocketTunnel (Task)
open Cleanup (ConnectionId)

structure ClientInfo where
  websocket : Nat
  deriving DecidableEq

def maxRetries : Nat := 30

/-- `opening` and `sleeping` are the two awaits of `create_unix_connection` in its attempt
    `n`; `joining` is `await task`, `closingUnix` is `await unix_writer.wait_closed()`. -/
inductive HandlerPc where
  | absent
  | opening (n : Nat)
  | sleeping (n : Nat)
  | waiting
  | joining (t : Task)
  | closingUnix
  | finished
  deriving DecidableEq

/-- `opened`: the handler has got its `unix_writer`. `unixClosed`: it has called
    `unix_writer.close()`. `cancelled`: a cancellation is to be delivered at its await. -/
structure Session where
  pc : HandlerPc
  id : ConnectionId
  pipes : Pipes
  opened : Bool
  unixClosed : Bool
  cancelled : Bool
  deriving DecidableEq

inductive SessionAct where
  | opened
  | refused
  | openRaises
  | slept (there : Bool)
  | waitReturns
  | joined
  | waitClosed
  | waitClosedRaises
  | cancel
  | interrupted
  | traffic (a : PipesAct)
  | arrives (message : Message)
  deriving DecidableEq

def taskDone (p : Pipes) : Task → Bool
  | .wsToUnix => decide (p.up.wsToUnix = .finished)
  | .unixToWs => decide (p.down.unixToWs = .finished)

def askTask (p : Pipes) : Task → Pipes
  | .wsToUnix => { p with up := askReceive p.up }
  | .unixToWs => { p with down := askSend p.down }

/-- The next attempt to connect, or the wait for the socket to be there. -/
def attempt (n : Nat) (there : Bool) : HandlerPc := if there then .opening n else .sleeping n

def closeUnix (s : Session) : Session := { s with pc := .closingUnix, unixClosed := true }

def cancelTask (s : Session) (t : Task) : Session :=
  { s with pc := .joining t, pipes := askTask s.pipes t }

def arriving (p : Pipe) (message : Message) : Pipe :=
  { p with inFlight := p.inFlight ++ [message] }

/-- A step that leads to `finished` runs the `finally` block as well, see `step`. -/
def Session.step (s : Session) : SessionAct → Option Session
  | .opened =>
    match s.pc with
    | .opening _ =>
      if s.cancelled then none
      else some { s with pc := .waiting, opened := true, pipes := s.pipes.createServerTasks }
    | _ => none
  | .refused =>
    match s.pc with
    | .opening n => if s.cancelled then none else some { s with pc := .sleeping n }
    | _ => none
  | .openRaises =>
    match s.pc with
    | .opening _ => some { s with pc := .finished }
    | _ => none
  | .slept there =>
    match s.pc with
    | .sleeping n =>
      if s.cancelled then none
      else if n + 1 < maxRetries then some { s with pc := attempt (n + 1) there }
      else some { s with pc := .finished }
    | _ => none
  | .waitReturns =>
    if s.pc = .waiting ∧ s.cancelled = false then
      if taskDone s.pipes .wsToUnix then
        if taskDone s.pipes .unixToWs then some (closeUnix s) else some (cancelTask s .unixToWs)
      else if taskDone s.pipes .unixToWs then some (cancelTask s .wsToUnix)
      else none
    else none
  | .joined =>
    match s.pc with
    | .joining t => if taskDone s.pipes t then some (closeUnix s) else none
    | _ => none
  | .waitClosed =>
    if s.pc = .closingUnix ∧ s.cancelled = false then some { s with pc := .finished } else none
  | .waitClosedRaises =>
    if s.pc = .closingUnix then some { s with pc := .finished } else none
  | .cancel =>
    match s.pc with
    | .absent | .finished => none
    -- `await task` hands it on to the task, and `except asyncio.CancelledError` is around it
    | .joining t => some { s with pipes := askTask s.pipes t }
    | .opening _ | .sleeping _ | .waiting | .closingUnix => some { s with cancelled := true }
  | .interrupted =>
    match s.pc with
    | .opening _ | .sleeping _ | .waiting | .closingUnix =>
      if s.cancelled then some { s with pc := .finished } else none
    | _ => none
  | .traffic a =>
    if a = .createServerTasks then none
    else (s.pipes.step a).map fun pipes => { s with pipes := pipes }
  | .arrives message =>
    some { s with pipes := { s.pipes with up := arriving s.pipes.up message } }

structure Server where
  sessions : Nat → Session
  activeConnections : OrderedDict ConnectionId ClientInfo

def init (source destination : Nat → Bytes) : Server where
  sessions := fun c => {
    pc := .absent
    id := 0
    pipes := .init (source c) (destination c)
    opened := false
    unixClosed := false
    cancelled := false }
  activeConnections := .empty

/-- The websocket of session `c` is called `c`. -/
inductive Act where
  | certificateRaises (c : Nat)
  | connected (c : Nat) (id : ConnectionId) (there : Bool)
  | session (c : Nat) (a : SessionAct)
  deriving DecidableEq

/-- `if connection_id in self.active_connections: del self.active_connections[connection_id]` -/
def remove (d : OrderedDict ConnectionId ClientInfo) (id : ConnectionId) :
    OrderedDict ConnectionId ClientInfo := (d.del id).getD d

def step (s : Server) : Act → Option Server
  | .certificateRaises c =>
    if (s.sessions c).pc = .absent then
      some { s with
        sessions := Function.update s.sessions c { s.sessions c with pc := .finished } }
    else none
  | .connected c id there =>
    if (s.sessions c).pc = .absent then
      some {
        sessions := Function.update s.sessions c
          { s.sessions c with pc := attempt 0 there, id := id }
        activeConnections := s.activeConnections.set id ⟨c⟩ }
    else none
  | .session c a =>
    ((s.sessions c).step a).map fun t => {
      sessions := Function.update s.sessions c t
      activeConnections :=
        if t.pc = .finished ∧ (s.sessions c).pc ≠ .finished then
          remove s.activeConnections t.id
        else s.activeConnections }

def trying : HandlerPc → Bool
  | .opening _ | .sleeping _ => true
  | _ => false

@[simp] theorem attempt_trying (n : Nat) (there : Bool) : trying (attempt n there) = true := by
  cases there <;> rfl

def other : Task → Task
  | .wsToUnix => .unixToWs
  | .unixToWs => .wsToUnix

inductive Moved (s : Session) : SessionAct → Session → Prop where
  | opened (connecting : trying s.pc = true) (kept : s.cancelled = false) :
      Moved s .opened
        { s with pc := .waiting, opened := true, pipes := s.pipes.createServerTasks }
  | tries {a : SessionAct} {pc : HandlerPc} (connecting : trying s.pc = true)
      (still : trying pc = true) : Moved s a { s with pc := pc }
  | givesUp {a : SessionAct} (connecting : trying s.pc = true) :
      Moved s a { s with pc := .finished }
  | waited (waiting : s.pc = .waiting) (kept : s.cancelled = false)
      (done : ∀ t, taskDone s.pipes t = true) :
      Moved s .waitReturns (closeUnix s)
  | cancels (t : Task) (waiting : s.pc = .waiting) (kept : s.cancelled = false)
      (done : taskDone s.pipes (other t) = true) :
      Moved s .waitReturns (cancelTask s t)
  | joined (t : Task) (joining : s.pc = .joining t) (done : taskDone s.pipes t = true) :
      Moved s .joined (closeUnix s)
  | closed {a : SessionAct} (closing : s.pc = .closingUnix) :
      Moved s a { s with pc := .finished }
  | handedOn (t : Task) (joining : s.pc = .joining t) :
      Moved s .cancel { s with pipes := askTask s.pipes t }
  | asked (awaits : trying s.pc = true ∨ s.pc = .waiting ∨ s.pc = .closingUnix) :
      Moved s .cancel { s with cancelled := true }
  | cutOff (waiting : s.pc = .waiting) (wanted : s.cancelled = true) :
      Moved s .interrupted { s with pc := .finished }
  | traffic {a : PipesAct} {pipes : Pipes} (moved : s.pipes.step a = some pipes) :
      Moved s (.traffic a) { s with pipes := pipes }
  | arrives (message : Message) :
      Moved s (.arrives message)
        { s with pipes := { s.pipes with up := arriving s.pipes.up message } }

theorem step_moved {s t : Session} {a : SessionAct} (stepped : s.step a = some t) :
    Moved s a t := by
  cases a with
  | opened =>
    simp only [Session.step] at stepped
    split at stepped
    · rename_i n here
      rw [Option.ite_none_left_eq_some, Bool.not_eq_true, Option.some.injEq] at stepped
      obtain ⟨kept, rfl⟩ := stepped
      exact .opened (by simp [here, trying]) kept
    · simp at stepped
  | refused =>
    simp only [Session.step] at stepped
    split at stepped
    · rename_i n here
      rw [Option.ite_none_left_eq_some, Option.some.injEq] at stepped
      obtain ⟨-, rfl⟩ := stepped
      exact .tries (by simp [here, trying]) rfl
    · simp at stepped
  | openRaises =>
    simp only [Session.step] at stepped
    split at stepped
    · rename_i n here
      rw [Option.some.injEq] at stepped
      subst stepped
      exact .givesUp (by simp [here, trying])
    · simp at stepped
  | slept there =>
    simp only [Session.step] at stepped
    split at stepped
    · rename_i n here
      have connecting : trying s.pc = true := by simp [here, trying]
      rw [Option.ite_none_left_eq_some] at stepped
      obtain ⟨-, stepped⟩ := stepped
      split at stepped <;> (rw [Option.some.injEq] at stepped; subst stepped)
      · exact .tries connecting (attempt_trying _ _)
      · exact .givesUp connecting
    · simp at stepped
  | waitReturns =>
    simp only [Session.step, Option.ite_none_right_eq_some] at stepped
    obtain ⟨⟨waiting, kept⟩, stepped⟩ := stepped
    split at stepped
    · rename_i received
      split at stepped <;> (rw [Option.some.injEq] at stepped; subst stepped)
      · rename_i sent
        exact .waited waiting kept fun t => by cases t <;> assumption
      · exact .cancels .unixToWs waiting kept received
    · rw [Option.ite_none_right_eq_some, Option.some.injEq] at stepped
      obtain ⟨sent, rfl⟩ := stepped
      exact .cancels .wsToUnix waiting kept sent
  | joined =>
    simp only [Session.step] at stepped
    split at stepped
    · rename_i t here
      rw [Option.ite_none_right_eq_some, Option.some.injEq] at stepped
      obtain ⟨done, rfl⟩ := stepped
      exact .joined t here done
    · simp at stepped
  | waitClosed =>
    simp only [Session.step, Option.ite_none_right_eq_some, Option.some.injEq] at stepped
    obtain ⟨⟨closing, -⟩, rfl⟩ := stepped
    exact .closed closing
  | waitClosedRaises =>
    simp only [Session.step, Option.ite_none_right_eq_some, Option.some.injEq] at stepped
    obtain ⟨closing, rfl⟩ := stepped
    exact .closed closing
  | cancel =>
    simp only [Session.step] at stepped
    split at stepped <;> simp only [Option.some.injEq, reduceCtorEq] at stepped
    all_goals subst stepped
    · exact .handedOn _ ‹_›
    all_goals exact .asked (by simp [trying, *])
  | interrupted =>
    simp only [Session.step] at stepped
    split at stepped
    all_goals simp only [Option.ite_none_right_eq_some, Option.some.injEq, reduceCtorEq] at stepped
    all_goals obtain ⟨wanted, rfl⟩ := stepped
    · exact .givesUp (by simp [trying, *])
    · exact .givesUp (by simp [trying, *])
    · exact .cutOff ‹_› wanted
    · exact .closed ‹_›
  | traffic a =>
    simp only [Session.step, Option.ite_none_left_eq_some, Option.map_eq_some_iff] at stepped
    obtain ⟨-, pipes, moved, rfl⟩ := stepped
    exact .traffic moved
  | arrives message =>
    simp only [Session.step, Option.some.injEq] at stepped
    subst stepped
    exact .arrives message

end WebSocketServer
