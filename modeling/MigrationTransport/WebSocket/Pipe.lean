import MigrationTransport.Lib.Runs
import MigrationTransport.ByteStream

/-!
`forward_unix_to_ws` and `forward_ws_to_unix`, which are the same text in the WebSocket
client and in the server. A `Pipe` is one direction of the tunnel: the first of them at
the near end, the messages in flight on the websocket, the second at the far end. One
action is one stretch between two awaits. A `send` accepts its message whole or not at
all, before it returns or fails, and what it has accepted arrives in order.
-/
namespace WebSocketPipe
open ByteStream

inductive Message where
  | binary (payload : Bytes)
  | text (content : String)
  deriving DecidableEq

/-- What `isinstance(message, bytes)` lets through. -/
def payload : Message → Bytes
  | .binary data => data
  | .text _ => []

def payloads (messages : List Message) : Bytes := messages.flatMap payload

/-- `sent` is a `send` that has accepted the message and not returned yet. -/
inductive SendPc where
  | absent
  | created
  | reading
  | sending (data : Bytes)
  | sent (data : Bytes)
  | finished
  deriving DecidableEq

inductive ReceivePc where
  | absent
  | created
  | receiving
  | draining (data : Bytes)
  | finished
  deriving DecidableEq

/-- The bytes the near peer sends before its EOF are `bytesRead ++ unread`; `written` is
    the history of the far `unix_writer.write`. `sentBytes` and `receivedBytes` are the
    two `total_bytes`. -/
structure Pipe where
  unixToWs : SendPc
  unixToWsCancelled : Bool
  unread : Bytes
  bytesRead : Bytes
  sentBytes : Nat
  sentProgress : List Nat
  inFlight : List Message
  wsToUnix : ReceivePc
  wsToUnixCancelled : Bool
  written : Bytes
  receivedBytes : Nat
  receivedProgress : List Nat
  deriving DecidableEq

inductive Act where
  | startSend
  | dropSend
  | read (n : Nat)
  | eof
  | readRaises
  | accept
  | sendReturns
  | sendRaises
  | cancelSend
  | startReceive
  | dropReceive
  | receive
  | drained
  | drainRaises
  | iterationEnds
  | cancelReceive
  deriving DecidableEq

def init (stream : Bytes) : Pipe where
  unixToWs := .absent
  unixToWsCancelled := false
  unread := stream
  bytesRead := []
  sentBytes := 0
  sentProgress := []
  inFlight := []
  wsToUnix := .absent
  wsToUnixCancelled := false
  written := []
  receivedBytes := 0
  receivedProgress := []

def createSend (p : Pipe) : Pipe :=
  if p.unixToWs = .absent then { p with unixToWs := .created } else p

def createReceive (p : Pipe) : Pipe :=
  if p.wsToUnix = .absent then { p with wsToUnix := .created } else p

/-- `task.cancel()`, which has no effect on a finished task. -/
def askSend (p : Pipe) : Pipe :=
  if p.unixToWs = .absent ∨ p.unixToWs = .finished then p else { p with unixToWsCancelled := true }

def askReceive (p : Pipe) : Pipe :=
  if p.wsToUnix = .absent ∨ p.wsToUnix = .finished then p else { p with wsToUnixCancelled := true }

def step (p : Pipe) : Act → Option Pipe
  | .startSend =>
    if p.unixToWs = .created ∧ p.unixToWsCancelled = false then
      some { p with unixToWs := .reading }
    else none
  | .dropSend =>
    if p.unixToWs = .created ∧ p.unixToWsCancelled = true then
      some { p with unixToWs := .finished }
    else none
  | .read n =>
    if p.unixToWs = .reading ∧ p.unixToWsCancelled = false ∧ 0 < n ∧ n ≤ readSize ∧
        n ≤ p.unread.length then
      some { p with
        unixToWs := .sending (p.unread.take n)
        unread := p.unread.drop n
        bytesRead := p.bytesRead ++ p.unread.take n }
    else none
  | .eof =>
    if p.unixToWs = .reading ∧ p.unixToWsCancelled = false ∧ p.unread = [] then
      some { p with unixToWs := .finished }
    else none
  | .readRaises =>
    if p.unixToWs = .reading then some { p with unixToWs := .finished } else none
  | .accept =>
    match p.unixToWs with
    | .sending data =>
      some { p with unixToWs := .sent data, inFlight := p.inFlight ++ [.binary data] }
    | _ => none
  | .sendReturns =>
    match p.unixToWs with
    | .sent data =>
      if p.unixToWsCancelled then none
      else some { p with
        unixToWs := .reading
        sentBytes := p.sentBytes + data.length
        sentProgress := logProgress p.sentProgress (p.sentBytes + data.length) }
    | _ => none
  | .sendRaises =>
    match p.unixToWs with
    | .sending _ | .sent _ => some { p with unixToWs := .finished }
    | _ => none
  | .cancelSend =>
    if p.unixToWsCancelled then
      match p.unixToWs with
      | .reading | .sending _ | .sent _ => some { p with unixToWs := .finished }
      | .absent | .created | .finished => none
    else none
  | .startReceive =>
    if p.wsToUnix = .created ∧ p.wsToUnixCancelled = false then
      some { p with wsToUnix := .receiving }
    else none
  | .dropReceive =>
    if p.wsToUnix = .created ∧ p.wsToUnixCancelled = true then
      some { p with wsToUnix := .finished }
    else none
  | .receive =>
    if p.wsToUnix = .receiving ∧ p.wsToUnixCancelled = false then
      match p.inFlight with
      | .binary data :: rest =>
        some { p with
          wsToUnix := .draining data
          inFlight := rest
          written := p.written ++ data }
      | .text _ :: rest => some { p with inFlight := rest }
      | [] => none
    else none
  | .drained =>
    match p.wsToUnix with
    | .draining data =>
      if p.wsToUnixCancelled then none
      else some { p with
        wsToUnix := .receiving
        receivedBytes := p.receivedBytes + data.length
        receivedProgress := logProgress p.receivedProgress (p.receivedBytes + data.length) }
    | _ => none
  | .drainRaises =>
    match p.wsToUnix with
    | .draining _ => some { p with wsToUnix := .finished }
    | _ => none
  | .iterationEnds =>
    if p.wsToUnix = .receiving then some { p with wsToUnix := .finished } else none
  | .cancelReceive =>
    if p.wsToUnixCancelled then
      match p.wsToUnix with
      | .receiving | .draining _ => some { p with wsToUnix := .finished }
      | .absent | .created | .finished => none
    else none

inductive Effect (p : Pipe) : Act → Pipe → Prop where
  | startSend (created : p.unixToWs = .created) (kept : p.unixToWsCancelled = false) :
      Effect p .startSend { p with unixToWs := .reading }
  | dropSend (created : p.unixToWs = .created) (wanted : p.unixToWsCancelled = true) :
      Effect p .dropSend { p with unixToWs := .finished }
  | read (n : Nat) (reading : p.unixToWs = .reading) (kept : p.unixToWsCancelled = false)
      (positive : 0 < n) (small : n ≤ readSize) (available : n ≤ p.unread.length) :
      Effect p (.read n) { p with
        unixToWs := .sending (p.unread.take n)
        unread := p.unread.drop n
        bytesRead := p.bytesRead ++ p.unread.take n }
  | eof (reading : p.unixToWs = .reading) (kept : p.unixToWsCancelled = false)
      (ended : p.unread = []) : Effect p .eof { p with unixToWs := .finished }
  | readRaises (reading : p.unixToWs = .reading) :
      Effect p .readRaises { p with unixToWs := .finished }
  | accept (data : Bytes) (sending : p.unixToWs = .sending data) :
      Effect p .accept { p with
        unixToWs := .sent data, inFlight := p.inFlight ++ [.binary data] }
  | sendReturns (data : Bytes) (sent : p.unixToWs = .sent data)
      (kept : p.unixToWsCancelled = false) :
      Effect p .sendReturns { p with
        unixToWs := .reading
        sentBytes := p.sentBytes + data.length
        sentProgress := logProgress p.sentProgress (p.sentBytes + data.length) }
  | sendRaises (data : Bytes) (inSend : p.unixToWs = .sending data ∨ p.unixToWs = .sent data) :
      Effect p .sendRaises { p with unixToWs := .finished }
  | cancelSend (wanted : p.unixToWsCancelled = true) (awaits : p.unixToWs = .reading ∨
      ∃ data, p.unixToWs = .sending data ∨ p.unixToWs = .sent data) :
      Effect p .cancelSend { p with unixToWs := .finished }
  | startReceive (created : p.wsToUnix = .created) (kept : p.wsToUnixCancelled = false) :
      Effect p .startReceive { p with wsToUnix := .receiving }
  | dropReceive (created : p.wsToUnix = .created) (wanted : p.wsToUnixCancelled = true) :
      Effect p .dropReceive { p with wsToUnix := .finished }
  | receive (data : Bytes) (rest : List Message) (receiving : p.wsToUnix = .receiving)
      (kept : p.wsToUnixCancelled = false) (next : p.inFlight = .binary data :: rest) :
      Effect p .receive { p with
        wsToUnix := .draining data, inFlight := rest, written := p.written ++ data }
  | skip (content : String) (rest : List Message) (receiving : p.wsToUnix = .receiving)
      (kept : p.wsToUnixCancelled = false) (next : p.inFlight = .text content :: rest) :
      Effect p .receive { p with inFlight := rest }
  | drained (data : Bytes) (draining : p.wsToUnix = .draining data)
      (kept : p.wsToUnixCancelled = false) :
      Effect p .drained { p with
        wsToUnix := .receiving
        receivedBytes := p.receivedBytes + data.length
        receivedProgress := logProgress p.receivedProgress (p.receivedBytes + data.length) }
  | drainRaises (data : Bytes) (draining : p.wsToUnix = .draining data) :
      Effect p .drainRaises { p with wsToUnix := .finished }
  | iterationEnds (receiving : p.wsToUnix = .receiving) :
      Effect p .iterationEnds { p with wsToUnix := .finished }
  | cancelReceive (wanted : p.wsToUnixCancelled = true)
      (awaits : p.wsToUnix = .receiving ∨ ∃ data, p.wsToUnix = .draining data) :
      Effect p .cancelReceive { p with wsToUnix := .finished }

theorem step_effect {p q : Pipe} {a : Act} (stepped : step p a = some q) : Effect p a q := by
  cases a with
  | read n =>
    simp only [step, Option.ite_none_right_eq_some, Option.some.injEq] at stepped
    obtain ⟨⟨reading, kept, positive, small, available⟩, rfl⟩ := stepped
    exact .read n reading kept positive small available
  | eof =>
    simp only [step, Option.ite_none_right_eq_some, Option.some.injEq] at stepped
    obtain ⟨⟨reading, kept, ended⟩, rfl⟩ := stepped
    exact .eof reading kept ended
  | accept | drainRaises =>
    simp only [step] at stepped
    split at stepped <;> simp only [Option.some.injEq, reduceCtorEq] at stepped
    subst stepped
    constructor
    assumption
  | sendReturns | drained =>
    simp only [step] at stepped
    split at stepped
    · simp only [Option.ite_none_left_eq_some, Option.some.injEq, Bool.not_eq_true] at stepped
      obtain ⟨kept, rfl⟩ := stepped
      constructor <;> assumption
    · simp at stepped
  | sendRaises =>
    simp only [step] at stepped
    split at stepped <;> simp only [Option.some.injEq, reduceCtorEq] at stepped
    all_goals subst stepped
    · exact .sendRaises _ (.inl ‹_›)
    · exact .sendRaises _ (.inr ‹_›)
  | cancelSend =>
    simp only [step, Option.ite_none_right_eq_some] at stepped
    obtain ⟨wanted, stepped⟩ := stepped
    split at stepped <;> simp only [Option.some.injEq, reduceCtorEq] at stepped
    all_goals subst stepped
    · exact .cancelSend wanted (.inl ‹_›)
    · exact .cancelSend wanted (.inr ⟨_, .inl ‹_›⟩)
    · exact .cancelSend wanted (.inr ⟨_, .inr ‹_›⟩)
  | receive =>
    simp only [step, Option.ite_none_right_eq_some] at stepped
    obtain ⟨⟨receiving, kept⟩, stepped⟩ := stepped
    split at stepped <;> simp only [Option.some.injEq, reduceCtorEq] at stepped
    all_goals subst stepped
    · exact .receive _ _ receiving kept ‹_›
    · exact .skip _ _ receiving kept ‹_›
  | cancelReceive =>
    simp only [step, Option.ite_none_right_eq_some] at stepped
    obtain ⟨wanted, stepped⟩ := stepped
    split at stepped <;> simp only [Option.some.injEq, reduceCtorEq] at stepped
    all_goals subst stepped
    · exact .cancelReceive wanted (.inl ‹_›)
    · exact .cancelReceive wanted (.inr ⟨_, ‹_›⟩)
  | readRaises | iterationEnds =>
    simp only [step, Option.ite_none_right_eq_some, Option.some.injEq] at stepped
    obtain ⟨here, rfl⟩ := stepped
    constructor
    exact here
  | _ =>
    simp only [step, Option.ite_none_right_eq_some, Option.some.injEq] at stepped
    obtain ⟨⟨created, asked⟩, rfl⟩ := stepped
    constructor <;> assumption

theorem send_stays_finished {p q : Pipe} {a : Act}
    (stepped : step p a = some q) (ended : p.unixToWs = .finished) :
    q.unixToWs = .finished := by
  cases step_effect stepped <;> simp_all

theorem receive_stays_finished {p q : Pipe} {a : Act}
    (stepped : step p a = some q) (ended : p.wsToUnix = .finished) :
    q.wsToUnix = .finished := by
  cases step_effect stepped <;> simp_all

@[simp] theorem createSend_exists (p : Pipe) : (createSend p).unixToWs ≠ .absent := by
  unfold createSend
  split
  · simp
  · assumption

@[simp] theorem createReceive_exists (p : Pipe) : (createReceive p).wsToUnix ≠ .absent := by
  unfold createReceive
  split
  · simp
  · assumption

@[simp] theorem createSend_wsToUnix (p : Pipe) : (createSend p).wsToUnix = p.wsToUnix := by
  unfold createSend
  split <;> rfl

theorem createSend_finished {p : Pipe} (ended : p.unixToWs = .finished) :
    (createSend p).unixToWs = .finished := by
  simp [createSend, ended]

theorem createReceive_finished {p : Pipe} (ended : p.wsToUnix = .finished) :
    (createReceive p).wsToUnix = .finished := by
  simp [createReceive, ended]

@[simp] theorem createReceive_unixToWs (p : Pipe) :
    (createReceive p).unixToWs = p.unixToWs := by
  unfold createReceive
  split <;> rfl

@[simp] theorem askSend_unixToWs (p : Pipe) : (askSend p).unixToWs = p.unixToWs := by
  unfold askSend
  split <;> rfl

@[simp] theorem askSend_wsToUnix (p : Pipe) : (askSend p).wsToUnix = p.wsToUnix := by
  unfold askSend
  split <;> rfl

@[simp] theorem askReceive_unixToWs (p : Pipe) : (askReceive p).unixToWs = p.unixToWs := by
  unfold askReceive
  split <;> rfl

@[simp] theorem askReceive_wsToUnix (p : Pipe) : (askReceive p).wsToUnix = p.wsToUnix := by
  unfold askReceive
  split <;> rfl

/-- Both directions of one tunnel, with four loops: `up` goes from the client to the
    server. -/
structure Pipes where
  up : Pipe
  down : Pipe
  deriving DecidableEq

inductive PipesAct where
  | up (a : Act)
  | down (a : Act)
  | createClientTasks
  | createServerTasks
  | askUpSend
  | askUpReceive
  | askDownSend
  | askDownReceive
  deriving DecidableEq

def Pipes.createClientTasks (s : Pipes) : Pipes :=
  { up := createSend s.up, down := createReceive s.down }

def Pipes.createServerTasks (s : Pipes) : Pipes :=
  { up := createReceive s.up, down := createSend s.down }

def Pipes.init (source destination : Bytes) : Pipes :=
  { up := WebSocketPipe.init source, down := WebSocketPipe.init destination }

def Pipes.step (s : Pipes) : PipesAct → Option Pipes
  | .up a => (WebSocketPipe.step s.up a).map fun p => { s with up := p }
  | .down a => (WebSocketPipe.step s.down a).map fun p => { s with down := p }
  | .createClientTasks => some s.createClientTasks
  | .createServerTasks => some s.createServerTasks
  | .askUpSend => some { s with up := askSend s.up }
  | .askUpReceive => some { s with up := askReceive s.up }
  | .askDownSend => some { s with down := askSend s.down }
  | .askDownReceive => some { s with down := askReceive s.down }

end WebSocketPipe
