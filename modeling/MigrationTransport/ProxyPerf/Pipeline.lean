import MigrationTransport.Lib.SendLog
import MigrationTransport.ProxyPerf.BenchmarkSend
import MigrationTransport.ProxyPerf.UnixReceiver
import MigrationTransport.ProxyPerf.UnixSenderGap
import MigrationTransport.ProxyPerf.TcpReceiverGap

/-!
The hybrid benchmark as a whole: `unix-sender.py` sends into the unix socket of
`benchmark_send_unix`, which sends over TLS to `handle_client_unix`, which sends into the unix
socket of `unix-receiver.py`. The four loops run at any speeds, and any `sendall` may fail
after some of its bytes. Each program counts for itself; here the counts are compared.
-/
namespace Pipeline
open ByteStream ProxyPerf SendLog
open UnixSender (Config)

/-- `self.test_data` of the unix sender. -/
def testData : Bytes := List.replicate 8192 120

structure Setup where
  sender : Config
  gateway : Config
  forwarder : ℚ
  receiver : Config

structure System where
  sender : BenchmarkSend.Sender
  toGateway : Pipe UInt8
  gateway : UnixSender.Sender
  toForwarder : Pipe UInt8
  forwarder : TcpReceiver.Forwarder
  toReceiver : Pipe UInt8
  receiver : Receiver
  received : Bytes

/-- One turn of a loop. `cut` is how much a `sendall` that raises has sent. -/
inductive Act where
  | sender (turn : BenchmarkSend.Turn) (cut : Nat)
  | gateway (turn : UnixSender.Turn) (cut : Nat)
  | forwarder (turn : TcpReceiver.UnixTurn) (cut : Nat)
  | receiver (turn : UnixReceiver.Turn)

def init (setup : Setup) : System where
  sender := BenchmarkSend.init setup.sender.startTime
  toGateway := .empty
  gateway := UnixSender.init setup.gateway.startTime
  toForwarder := .empty
  forwarder := TcpReceiver.initUnix setup.forwarder
  toReceiver := .empty
  receiver := .init setup.receiver.startTime
  received := []

def senderAttempt (cfg : Config) (turn : BenchmarkSend.Turn) : Option (Bytes × Bool) :=
  if BenchmarkSend.inTime cfg turn then some (testData, turn.sent) else none

def receiverChunk (cfg : Config) (turn : UnixReceiver.Turn) : Option Bytes :=
  match turn.recv with
  | .received data => if UnixReceiver.goesOn cfg turn then some data else none
  | .empty | .timeout | .raises => none

def passOn (p : Pipe UInt8) (cut : Nat) : Option (Bytes × Bool) → Pipe UInt8
  | none => p
  | some (data, sent) => p.send data (if sent then none else some cut)

def takeFrom (p : Pipe UInt8) : Option Bytes → Option (Pipe UInt8)
  | none => some p
  | some data => p.read data

/-- `recv` returns `b''` only at the end of the stream. -/
def atEnd (p : Pipe UInt8) (writing : Bool) : Prop := p.waiting = [] ∧ writing = false

instance (p : Pipe UInt8) (writing : Bool) : Decidable (atEnd p writing) :=
  inferInstanceAs (Decidable (_ ∧ _))

def gatewayStep (cfg : Config) (cut : Nat) (s : System) (turn : UnixSender.Turn) :
    Option System :=
  if turn.poll = .disconnected → atEnd s.toGateway s.sender.running then
    let attempt := UnixSenderGap.attempt cfg turn
    (UnixSender.step cfg s.gateway turn).bind fun gateway =>
      (takeFrom s.toGateway (attempt.map Prod.fst)).map fun toGateway =>
        { s with gateway, toGateway, toForwarder := passOn s.toForwarder cut attempt }
  else none

def forwarderStep (startTime : ℚ) (cut : Nat) (s : System) (turn : TcpReceiver.UnixTurn) :
    Option System :=
  if turn.recv = .empty → atEnd s.toForwarder s.gateway.running then
    let attempt := TcpReceiverGap.attempt turn
    (TcpReceiver.handleClientUnix startTime s.forwarder turn).bind fun forwarder =>
      (takeFrom s.toForwarder (attempt.map Prod.fst)).map fun toForwarder =>
        { s with forwarder, toForwarder, toReceiver := passOn s.toReceiver cut attempt }
  else none

def receiverStep (cfg : Config) (s : System) (turn : UnixReceiver.Turn) : Option System :=
  if turn.recv = .empty → atEnd s.toReceiver s.forwarder.running then
    let chunk := receiverChunk cfg turn
    (UnixReceiver.receiveData cfg s.receiver turn).bind fun receiver =>
      (takeFrom s.toReceiver chunk).map fun toReceiver =>
        { s with receiver, toReceiver, received := s.received ++ chunk.getD [] }
  else none

def step (setup : Setup) (s : System) : Act → Option System
  | .sender turn cut =>
    (BenchmarkSend.sendData setup.sender s.sender turn).map fun sender =>
      { s with
        sender := sender
        toGateway := passOn s.toGateway cut (senderAttempt setup.sender turn) }
  | .gateway turn cut => gatewayStep setup.gateway cut s turn
  | .forwarder turn cut => forwarderStep setup.forwarder cut s turn
  | .receiver turn => receiverStep setup.receiver s turn

def counts : Option (Bytes × Bool) → Nat
  | some (data, true) => data.length
  | some (_, false) | none => 0

/-- Every count is of the whole sends into the next pipe, and what was read from a pipe was
    offered to the next. -/
structure Accounts (setup : Setup) (s : System) : Prop where
  senderStarted : setup.sender.startTime ≤ s.sender.progress.lastReportTime
  sent : s.sender.bytesSent = whole s.toGateway.sends
  toGateway : Conveys s.toGateway (offered s.toForwarder.sends)
  forwarded : s.gateway.bytesSent = whole s.toForwarder.sends
  toForwarder : Conveys s.toForwarder (offered s.toReceiver.sends)
  forwarderStarted : setup.forwarder ≤ s.forwarder.progress.lastReportTime
  passed : s.forwarder.bytesReceived = whole s.toReceiver.sends
  toReceiver : Conveys s.toReceiver s.received
  receiverStarted : setup.receiver.startTime ≤ s.receiver.progress.lastReportTime
  counted : s.receiver.bytesReceived = s.received.length

variable {setup : Setup} {cfg : Config} {s t : System} {p q : Pipe UInt8} {a : Act}
  {acts : List Act} {cut : Nat} {taken : Bytes} {startTime : ℚ}
  {attempt : Option (Bytes × Bool)} {m n : Meter}

theorem testData_length : testData.length = 8192 := List.length_replicate

theorem passOn_whole (p : Pipe UInt8) (cut : Nat) (attempt : Option (Bytes × Bool)) :
    whole (passOn p cut attempt).sends = whole p.sends + counts attempt := by
  cases attempt with
  | none => rfl
  | some chunk =>
    obtain ⟨data, sent⟩ := chunk
    cases sent with
    | true => simp [passOn, Pipe.send, whole_append, whole, counts]
    | false => simp [passOn, Pipe.send, whole_append, whole, counts]

theorem passOn_conveys (conveys : Conveys p taken) (cut : Nat) (attempt : Option (Bytes × Bool)) :
    Conveys (passOn p cut attempt) taken := by
  cases attempt with
  | none => exact conveys
  | some chunk => exact send_conveys conveys chunk.1 _

/-- A program takes from one pipe what it offers to the next. -/
theorem takeFrom_conveys {next : Pipe UInt8} (conveys : Conveys p (offered next.sends))
    (takes : takeFrom p (attempt.map Prod.fst) = some q) :
    Conveys q (offered (passOn next cut attempt).sends) ∧ q.sends = p.sends := by
  cases attempt with
  | none =>
    cases takes
    exact ⟨conveys, rfl⟩
  | some chunk =>
    obtain ⟨later, same⟩ := read_conveys conveys takes
    refine ⟨?_, same⟩
    simpa [passOn, Pipe.send] using later

theorem pass_started (started : startTime ≤ m.progress.lastReportTime) {pass : Pass}
    (follows : n = m.pass startTime pass) : startTime ≤ n.progress.lastReportTime := by
  rw [follows]
  exact started.trans (pass_later m startTime pass)

theorem sender_counts {u v : BenchmarkSend.Sender} {turn : BenchmarkSend.Turn}
    (started : cfg.startTime ≤ u.progress.lastReportTime)
    (stepped : BenchmarkSend.sendData cfg u turn = some v) :
    v.bytesSent = u.bytesSent + counts (senderAttempt cfg turn) ∧
      cfg.startTime ≤ v.progress.lastReportTime := by
  have follows := BenchmarkSend.sendLoop_follows started stepped
  refine ⟨?_, pass_started (m := BenchmarkSend.meter u) started follows⟩
  have bytes := congrArg Meter.bytes follows
  rw [pass_bytes] at bytes
  have turned : (BenchmarkSend.pass 8192 cfg turn).counted.getD 0 =
      counts (senderAttempt cfg turn) := by
    unfold BenchmarkSend.pass senderAttempt
    by_cases here : BenchmarkSend.inTime cfg turn
    · cases turn.sent with
      | true => simp [here, counts, testData_length]
      | false => simp [here, counts]
    · simp [here, counts]
  rw [← turned]
  exact bytes

theorem gateway_counts {u v : UnixSender.Sender} {turn : UnixSender.Turn}
    (stepped : UnixSender.step cfg u turn = some v) :
    v.bytesSent = u.bytesSent + counts (UnixSenderGap.attempt cfg turn) := by
  cases UnixSenderGap.step_effect stepped with
  | nothing none attempts bytes => simp [none, counts, bytes]
  | sent data taken attempts bytes => simp [taken, counts, bytes]
  | failed data taken attempts bytes => simp [taken, counts, bytes]

theorem forwarder_counts {u v : TcpReceiver.Forwarder} {turn : TcpReceiver.UnixTurn}
    (started : startTime ≤ u.progress.lastReportTime)
    (stepped : TcpReceiver.handleClientUnix startTime u turn = some v) :
    v.bytesReceived = u.bytesReceived + counts (TcpReceiverGap.attempt turn) ∧
      startTime ≤ v.progress.lastReportTime := by
  have follows := TcpReceiver.handleClientUnix_follows started stepped
  refine ⟨?_, pass_started (m := u.meter) started follows⟩
  have bytes := congrArg Meter.bytes follows
  rw [pass_bytes] at bytes
  have turned : (TcpReceiver.passUnix turn).counted.getD 0 =
      counts (TcpReceiverGap.attempt turn) := by
    unfold TcpReceiver.passUnix TcpReceiver.pass TcpReceiverGap.attempt
    cases turn.recv with
    | received data =>
      by_cases sent : turn.sendall = none
      · simp [sent, counts]
      · simp [sent, counts]
    | empty | raises e =>
      split <;> rfl
  rw [← turned]
  exact bytes

theorem receiver_counts {u v : Receiver} {turn : UnixReceiver.Turn}
    (started : cfg.startTime ≤ u.progress.lastReportTime)
    (stepped : UnixReceiver.receiveData cfg u turn = some v) :
    v.bytesReceived = u.bytesReceived + ((receiverChunk cfg turn).getD []).length ∧
      cfg.startTime ≤ v.progress.lastReportTime := by
  have follows := UnixReceiver.receiveData_follows started stepped
  refine ⟨?_, pass_started (m := u.meter) started follows⟩
  have bytes := congrArg Meter.bytes follows
  rw [pass_bytes] at bytes
  have turned : (UnixReceiver.pass cfg turn).counted.getD 0 =
      ((receiverChunk cfg turn).getD []).length := by
    unfold UnixReceiver.pass receiverChunk
    cases turn.recv with
    | received data =>
      by_cases here : UnixReceiver.goesOn cfg turn
      · simp [here]
      · simp [here]
    | empty | timeout | raises => rfl
  rw [← turned]
  exact bytes

theorem takeFrom_sends {chunk : Option Bytes} (takes : takeFrom p chunk = some q) :
    q.sends = p.sends := by
  cases chunk with
  | none =>
    cases takes
    rfl
  | some data =>
    obtain ⟨-, same⟩ := Option.ite_none_right_eq_some.mp takes
    cases same
    rfl

theorem init_accounts : Accounts setup (init setup) where
  senderStarted := le_refl _
  sent := rfl
  toGateway := empty_conveys
  forwarded := rfl
  toForwarder := empty_conveys
  forwarderStarted := le_refl _
  passed := rfl
  toReceiver := empty_conveys
  receiverStarted := le_refl _
  counted := rfl

theorem step_accounts (accounts : Accounts setup s) (stepped : step setup s a = some t) :
    Accounts setup t := by
  obtain ⟨senderStarted, sent, toGateway, forwarded, toForwarder, forwarderStarted, passed,
    toReceiver, receiverStarted, counted⟩ := accounts
  cases a with
  | sender turn cut =>
    obtain ⟨sender, moved, rfl⟩ := Option.map_eq_some_iff.mp stepped
    obtain ⟨more, started⟩ := sender_counts senderStarted moved
    refine ⟨started, ?_, passOn_conveys toGateway _ _, forwarded, toForwarder, forwarderStarted,
      passed, toReceiver, receiverStarted, counted⟩
    rw [passOn_whole, more, sent]
  | gateway turn cut =>
    obtain ⟨-, stepped⟩ := Option.ite_none_right_eq_some.mp stepped
    obtain ⟨gateway, moved, stepped⟩ := Option.bind_eq_some_iff.mp stepped
    obtain ⟨pipe, takes, rfl⟩ := Option.map_eq_some_iff.mp stepped
    obtain ⟨conveys, same⟩ := takeFrom_conveys toGateway takes
    refine ⟨senderStarted, ?_, conveys, ?_, passOn_conveys toForwarder _ _, forwarderStarted,
      passed, toReceiver, receiverStarted, counted⟩
    · rw [same]
      exact sent
    · rw [passOn_whole, gateway_counts moved, forwarded]
  | forwarder turn cut =>
    obtain ⟨-, stepped⟩ := Option.ite_none_right_eq_some.mp stepped
    obtain ⟨forwarder, moved, stepped⟩ := Option.bind_eq_some_iff.mp stepped
    obtain ⟨pipe, takes, rfl⟩ := Option.map_eq_some_iff.mp stepped
    obtain ⟨more, started⟩ := forwarder_counts forwarderStarted moved
    obtain ⟨conveys, same⟩ := takeFrom_conveys toForwarder takes
    refine ⟨senderStarted, sent, ?_, ?_, conveys, started, ?_, passOn_conveys toReceiver _ _,
      receiverStarted, counted⟩
    · rw [same]
      exact toGateway
    · rw [same]
      exact forwarded
    · rw [passOn_whole, more, passed]
  | receiver turn =>
    obtain ⟨-, stepped⟩ := Option.ite_none_right_eq_some.mp stepped
    obtain ⟨receiver, moved, stepped⟩ := Option.bind_eq_some_iff.mp stepped
    obtain ⟨pipe, takes, rfl⟩ := Option.map_eq_some_iff.mp stepped
    obtain ⟨more, started⟩ := receiver_counts receiverStarted moved
    have reads : Conveys pipe (s.received ++ (receiverChunk setup.receiver turn).getD []) ∧
        pipe.sends = s.toReceiver.sends := by
      cases chunk : receiverChunk setup.receiver turn with
      | none =>
        rw [chunk] at takes
        cases takes
        simpa using toReceiver
      | some data =>
        rw [chunk] at takes
        exact read_conveys toReceiver takes
    refine ⟨senderStarted, sent, toGateway, forwarded, ?_, forwarderStarted, ?_, reads.1,
      started, ?_⟩
    · rw [reads.2]
      exact toForwarder
    · rw [reads.2]
      exact passed
    · rw [List.length_append, more, counted]

theorem reached_accounts (reached : Runs.run (step setup) (init setup) acts = some s) :
    Accounts setup s :=
  Runs.invariant_run (Accounts setup) (fun _ _ _ accounts stepped => step_accounts accounts stepped)
    init_accounts reached

theorem neighbours_account (accounts : Accounts setup s) :
    s.sender.bytesSent + partly s.toGateway.sends = s.toGateway.waiting.length +
      s.gateway.bytesSent + partly s.toForwarder.sends + missing s.toForwarder.sends ∧
    s.gateway.bytesSent + partly s.toForwarder.sends = s.toForwarder.waiting.length +
      s.forwarder.bytesReceived + partly s.toReceiver.sends + missing s.toReceiver.sends ∧
    s.forwarder.bytesReceived + partly s.toReceiver.sends = s.toReceiver.waiting.length +
      s.receiver.bytesReceived := by
  have first := conveys_length accounts.toGateway
  have second := conveys_length accounts.toForwarder
  have third := conveys_length accounts.toReceiver
  have toForwarder : (offered s.toForwarder.sends).length = _ := offered_length
  have toReceiver : (offered s.toReceiver.sends).length = _ := offered_length
  have sent := accounts.sent
  have forwarded := accounts.forwarded
  have passed := accounts.passed
  have counted := accounts.counted
  omega

/-- What two neighbours count differs by what waits between them and by what their failed sends
    have put into the pipes or kept out. End to end, what was sent and not received waits in one
    of the pipes, or was lost with a chunk whose `sendall` raised in one of the two programs in
    the middle. -/
theorem pipeline_accounts (reached : Runs.run (step setup) (init setup) acts = some s) :
    (s.sender.bytesSent + partly s.toGateway.sends = s.toGateway.waiting.length +
        s.gateway.bytesSent + partly s.toForwarder.sends + missing s.toForwarder.sends ∧
      s.gateway.bytesSent + partly s.toForwarder.sends = s.toForwarder.waiting.length +
        s.forwarder.bytesReceived + partly s.toReceiver.sends + missing s.toReceiver.sends ∧
      s.forwarder.bytesReceived + partly s.toReceiver.sends = s.toReceiver.waiting.length +
        s.receiver.bytesReceived) ∧
    s.sender.bytesSent + partly s.toGateway.sends = s.receiver.bytesReceived +
      (s.toGateway.waiting.length + s.toForwarder.waiting.length + s.toReceiver.waiting.length) +
      (missing s.toForwarder.sends + missing s.toReceiver.sends) := by
  have accounts := neighbours_account (reached_accounts reached)
  exact ⟨accounts, by omega⟩

/-- The unix sender sends a chunk; the gateway takes two bytes and fails after one, then takes
    three, of which the forwarder gets two before its own send fails. -/
def failing : List Act :=
  [.sender ⟨0, true, 0⟩ 0, .gateway ⟨0, .received [120, 120] false, 0⟩ 1,
    .gateway ⟨0, .received [120, 120, 120] true, 0⟩ 0,
    .forwarder ⟨⟨.received [120, 120], 0⟩, some .other⟩ 1, .receiver ⟨false, 0, .received [120], 0⟩]

def tenSeconds : Setup :=
  let cfg : Config := { durationSeconds := 10, targetMbps := none, startTime := 0 }
  { sender := cfg, gateway := cfg, forwarder := 0, receiver := cfg }

theorem pipeline_accounts_failing : ∃ s,
    Runs.run (step tenSeconds) (init tenSeconds) failing = some s ∧
    s.receiver.bytesReceived = 1 ∧ missing s.toForwarder.sends = 1 ∧
    missing s.toReceiver.sends = 1 ∧
    s.sender.bytesSent + partly s.toGateway.sends = s.receiver.bytesReceived +
      (s.toGateway.waiting.length + s.toForwarder.waiting.length + s.toReceiver.waiting.length) +
      (missing s.toForwarder.sends + missing s.toReceiver.sends) := by
  obtain ⟨s, reached, received, toForwarder, toReceiver⟩ : ∃ s,
      Runs.run (step tenSeconds) (init tenSeconds) failing = some s ∧
      s.receiver.bytesReceived = 1 ∧ missing s.toForwarder.sends = 1 ∧
      missing s.toReceiver.sends = 1 :=
    Runs.reaches (by decide +kernel)
  exact ⟨s, reached, received, toForwarder, toReceiver, (pipeline_accounts reached).2⟩

def sends : Act → Bool
  | .sender turn _ => turn.sent
  | .gateway turn _ =>
    match turn.poll with
    | .received _ sent => sent
    | .selectRaises | .idle | .recvRaises | .disconnected => true
  | .forwarder turn _ => turn.sendall.isNone
  | .receiver _ => true

def AllWhole (p : Pipe UInt8) : Prop := ∀ send ∈ p.sends, send.2 = none

structure Fine (s : System) : Prop where
  toGateway : AllWhole s.toGateway
  toForwarder : AllWhole s.toForwarder
  toReceiver : AllWhole s.toReceiver
  chunks : offered s.toGateway.sends = (List.replicate s.sender.chunksSent testData).flatten

theorem passOn_all_whole (all : AllWhole p) (cut : Nat)
    (sent : ∀ data, attempt ≠ some (data, false)) : AllWhole (passOn p cut attempt) := by
  cases attempt with
  | none => exact all
  | some chunk =>
    obtain ⟨data, ok⟩ := chunk
    cases ok with
    | false => exact absurd rfl (sent data)
    | true =>
      intro send member
      rcases List.mem_append.mp member with early | late
      · exact all send early
      · rw [List.mem_singleton.mp late]
        rfl

theorem sendData_chunks {u v : BenchmarkSend.Sender} {turn : BenchmarkSend.Turn}
    (started : cfg.startTime ≤ u.progress.lastReportTime)
    (stepped : BenchmarkSend.sendData cfg u turn = some v) (sent : turn.sent = true) :
    v.chunksSent = u.chunksSent + ((senderAttempt cfg turn).toList).length := by
  unfold senderAttempt
  rcases (BenchmarkSend.sendLoop_cases started stepped).2 with ⟨⟨here, -⟩, rfl⟩ | ⟨late, rfl⟩
  · rw [if_pos here]
    rfl
  · have ended : ¬ BenchmarkSend.inTime cfg turn := fun here => late ⟨here, sent⟩
    rw [if_neg ended]
    rfl

theorem gateway_sent {turn : UnixSender.Turn} (fine : sends (.gateway turn cut) = true)
    (data : Bytes) : UnixSenderGap.attempt cfg turn ≠ some (data, false) := by
  unfold UnixSenderGap.attempt
  simp only [sends] at fine
  split
  · rename_i chunk sent polled
    rw [polled] at fine
    have here : sent = true := fine
    split
    · simp [here]
    · simp
  · simp

theorem forwarder_sent {turn : TcpReceiver.UnixTurn} (fine : sends (.forwarder turn cut) = true)
    (data : Bytes) : TcpReceiverGap.attempt turn ≠ some (data, false) := by
  unfold TcpReceiverGap.attempt
  have here : turn.sendall = none := Option.isNone_iff_eq_none.mp fine
  split
  · simp [here]
  · simp
  · simp

theorem init_fine : Fine (init setup) := by
  constructor <;> simp [init, AllWhole, Pipe.empty, BenchmarkSend.init]

theorem step_fine (accounts : Accounts setup s) (fine : Fine s) (whole : sends a = true)
    (stepped : step setup s a = some t) : Fine t := by
  obtain ⟨toGateway, toForwarder, toReceiver, chunks⟩ := fine
  cases a with
  | sender turn cut =>
    obtain ⟨sender, moved, rfl⟩ := Option.map_eq_some_iff.mp stepped
    have more := sendData_chunks accounts.senderStarted moved whole
    have sent : ∀ data, senderAttempt setup.sender turn ≠ some (data, false) := by
      intro data
      have here : turn.sent = true := whole
      unfold senderAttempt
      split
      · simp [here]
      · simp
    refine ⟨passOn_all_whole toGateway cut sent, toForwarder, toReceiver, ?_⟩
    rw [more]
    unfold senderAttempt
    split
    · simp [passOn, Pipe.send, chunks, List.replicate_succ']
    · simpa [passOn] using chunks
  | gateway turn cut =>
    obtain ⟨-, stepped⟩ := Option.ite_none_right_eq_some.mp stepped
    obtain ⟨gateway, moved, stepped⟩ := Option.bind_eq_some_iff.mp stepped
    obtain ⟨pipe, takes, rfl⟩ := Option.map_eq_some_iff.mp stepped
    have same := takeFrom_sends takes
    refine ⟨?_, passOn_all_whole toForwarder cut (gateway_sent whole), toReceiver, ?_⟩
    · rw [AllWhole, same]
      exact toGateway
    · rw [same]
      exact chunks
  | forwarder turn cut =>
    obtain ⟨-, stepped⟩ := Option.ite_none_right_eq_some.mp stepped
    obtain ⟨forwarder, moved, stepped⟩ := Option.bind_eq_some_iff.mp stepped
    obtain ⟨pipe, takes, rfl⟩ := Option.map_eq_some_iff.mp stepped
    have same := takeFrom_sends takes
    refine ⟨toGateway, ?_, passOn_all_whole toReceiver cut (forwarder_sent whole), chunks⟩
    rw [AllWhole, same]
    exact toForwarder
  | receiver turn =>
    obtain ⟨-, stepped⟩ := Option.ite_none_right_eq_some.mp stepped
    obtain ⟨receiver, moved, stepped⟩ := Option.bind_eq_some_iff.mp stepped
    obtain ⟨pipe, takes, rfl⟩ := Option.map_eq_some_iff.mp stepped
    refine ⟨toGateway, toForwarder, ?_, chunks⟩
    rw [AllWhole, takeFrom_sends takes]
    exact toReceiver

theorem reached_fine (reached : Runs.run (step setup) (init setup) acts = some s)
    (whole : ∀ a ∈ acts, sends a = true) : Accounts setup s ∧ Fine s := by
  apply Runs.invariant_actions (fun s => Accounts setup s ∧ Fine s) (fun a => sends a = true) ?_ ?_
    whole reached
  · rintro s a t ⟨accounts, fine⟩ whole stepped
    exact ⟨step_accounts accounts stepped, step_fine accounts fine whole stepped⟩
  · exact ⟨init_accounts, init_fine⟩

/-- Where no `sendall` raises, what the receiver has read and what waits in the three pipes is
    exactly what the sender has sent, in order, and neighbours count alike up to what waits
    between them. -/
theorem pipeline_agrees (reached : Runs.run (step setup) (init setup) acts = some s)
    (whole : ∀ a ∈ acts, sends a = true) :
    s.received ++ s.toReceiver.waiting ++ s.toForwarder.waiting ++ s.toGateway.waiting =
        (List.replicate s.sender.chunksSent testData).flatten ∧
      s.sender.bytesSent = s.gateway.bytesSent + s.toGateway.waiting.length ∧
      s.gateway.bytesSent = s.forwarder.bytesReceived + s.toForwarder.waiting.length ∧
      s.forwarder.bytesReceived = s.receiver.bytesReceived + s.toReceiver.waiting.length := by
  obtain ⟨accounts, fine⟩ := reached_fine reached whole
  obtain ⟨first, second, third⟩ := neighbours_account accounts
  have noneFirst := nothing_missing fine.toGateway
  have noneSecond := nothing_missing fine.toForwarder
  have noneThird := nothing_missing fine.toReceiver
  refine ⟨?_, by omega, by omega, by omega⟩
  have toGateway : _ = _ := accounts.toGateway
  have toForwarder : _ = _ := accounts.toForwarder
  have toReceiver : _ = _ := accounts.toReceiver
  rw [arrived_all fine.toGateway] at toGateway
  rw [arrived_all fine.toForwarder] at toForwarder
  rw [arrived_all fine.toReceiver] at toReceiver
  rw [← fine.chunks, toGateway, toForwarder, toReceiver]

/-- Two chunks are sent. The gateway passes on the first and two bytes of the second, the
    forwarder the first, and three bytes of that get to the other end in two reads. -/
def passing : List Act :=
  [.sender ⟨0, true, 0⟩ 0, .sender ⟨0, true, 0⟩ 0, .gateway ⟨0, .received testData true, 0⟩ 0,
    .gateway ⟨0, .received [120, 120] true, 0⟩ 0, .forwarder ⟨⟨.received testData, 0⟩, none⟩ 0,
    .receiver ⟨false, 0, .received [120], 0⟩, .receiver ⟨false, 0, .received [120, 120], 0⟩]

theorem pipeline_agrees_two_chunks : ∃ s,
    Runs.run (step tenSeconds) (init tenSeconds) passing = some s ∧
    s.received = [120, 120, 120] ∧ s.sender.chunksSent = 2 ∧
    s.received ++ s.toReceiver.waiting ++ s.toForwarder.waiting ++ s.toGateway.waiting =
      (List.replicate s.sender.chunksSent testData).flatten ∧
    s.sender.bytesSent = s.gateway.bytesSent + s.toGateway.waiting.length ∧
    s.gateway.bytesSent = s.forwarder.bytesReceived + s.toForwarder.waiting.length ∧
    s.forwarder.bytesReceived = s.receiver.bytesReceived + s.toReceiver.waiting.length := by
  obtain ⟨s, reached, received, two⟩ : ∃ s,
      Runs.run (step tenSeconds) (init tenSeconds) passing = some s ∧
      s.received = [120, 120, 120] ∧ s.sender.chunksSent = 2 :=
    Runs.reaches (by decide +kernel)
  exact ⟨s, reached, received, two, pipeline_agrees reached (by decide)⟩

end Pipeline
