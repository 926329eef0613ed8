import MigrationTransport.Lib.Runs
import MigrationTransport.TcpProxy.Chunks
import MigrationTransport.WebSocket.Pipe

/-!
The progress lines of the forwarders, which are to report every megabyte. A line is logged
when the running total is a whole number of megabytes after a chunk, so a megabyte is
reported only if a chunk ends on it.
-/
namespace ProgressLines
open ByteStream Chunks

/-- A forwarder that adds up the lengths of its chunks: `chunk` is what an action adds, and
    `keep` is an invariant that bounds it. -/
structure Forwarder where
  State : Type
  Act : Type
  step : State → Act → Option State
  start : State
  total : State → Nat
  lines : State → List Nat
  chunk : State → Act → Option Nat
  keep : State → Prop
  started : keep start
  fresh : total start = 0 ∧ lines start = []
  kept : ∀ {s a t}, keep s → step s a = some t → keep t
  small : ∀ {s a length}, keep s → chunk s a = some length → 0 < length ∧ length ≤ readSize
  counts : ∀ {s a t}, step s a = some t →
    chunk s a = none ∧ total t = total s ∧ lines t = lines s ∨
      ∃ length, chunk s a = some length ∧ total t = total s + length ∧
        lines t = logProgress (lines s) (total s + length)

/-- No multiple of a megabyte is passed, unless the chunk ends on it. -/
def Stops (total length : Nat) : Prop :=
  (total + length) / megabyte = total / megabyte ∨ (total + length) % megabyte = 0

instance (total length : Nat) : Decidable (Stops total length) := by
  unfold Stops
  infer_instance

variable {total length : Nat} {lines : List Nat}

theorem progressLine_whole (whole : total % megabyte = 0) :
    (logProgress lines total).length = lines.length + 1 := by
  rw [logProgress, progressLine, if_pos whole]
  simp

theorem progressLine_between (between : total % megabyte ≠ 0) :
    logProgress lines total = lines := by
  rw [logProgress, progressLine, if_neg between]
  simp

/-- A chunk that is smaller than a megabyte passes at most one multiple of it. -/
theorem next_megabyte (total : Nat) (positive : 0 < length) (small : length ≤ readSize) :
    (total + length) / megabyte = total / megabyte ∧ (total + length) % megabyte ≠ 0 ∨
      (total + length) / megabyte = total / megabyte + 1 := by
  simp only [megabyte, readSize] at small ⊢
  omega

theorem lines_bound (bound : lines.length ≤ total / megabyte) (positive : 0 < length)
    (small : length ≤ readSize) :
    (logProgress lines (total + length)).length ≤ (total + length) / megabyte := by
  by_cases whole : (total + length) % megabyte = 0
  · rw [progressLine_whole whole]
    rcases next_megabyte total positive small with ⟨-, between⟩ | next
    · exact absurd whole between
    · omega
  · rw [progressLine_between whole]
    have later : total / megabyte ≤ (total + length) / megabyte :=
      Nat.div_le_div_right (Nat.le_add_right total length)
    omega

theorem lines_exact (bound : lines.length ≤ total / megabyte) (positive : 0 < length)
    (small : length ≤ readSize) :
    (logProgress lines (total + length)).length = (total + length) / megabyte ↔
      lines.length = total / megabyte ∧ Stops total length := by
  unfold Stops
  by_cases whole : (total + length) % megabyte = 0
  · rw [progressLine_whole whole]
    rcases next_megabyte total positive small with ⟨-, between⟩ | next
    · exact absurd whole between
    · omega
  · rw [progressLine_between whole]
    rcases next_megabyte total positive small with ⟨same, -⟩ | next
    · omega
    · omega

/-- What is kept of the lines: there are never too many. -/
structure Counted (f : Forwarder) (s : f.State) : Prop where
  keep : f.keep s
  bound : (f.lines s).length ≤ f.total s / megabyte

variable {f : Forwarder} {s t : f.State} {a : f.Act} {acts : List f.Act}

theorem step_counted (counted : Counted f s) (stepped : f.step s a = some t) : Counted f t := by
  refine ⟨f.kept counted.keep stepped, ?_⟩
  rcases f.counts stepped with ⟨-, total, lines⟩ | ⟨length, adds, total, lines⟩
  · rw [total, lines]
    exact counted.bound
  · obtain ⟨positive, small⟩ := f.small counted.keep adds
    rw [total, lines]
    exact lines_bound counted.bound positive small

theorem step_exact (counted : Counted f s) (stepped : f.step s a = some t) :
    (f.lines t).length = f.total t / megabyte ↔
      (f.lines s).length = f.total s / megabyte ∧
        ∀ length ∈ f.chunk s a, Stops (f.total s) length := by
  rcases f.counts stepped with ⟨none, total, lines⟩ | ⟨length, adds, total, lines⟩
  · simp [none, total, lines]
  · obtain ⟨positive, small⟩ := f.small counted.keep adds
    rw [total, lines, lines_exact counted.bound positive small, adds]
    simp

/-- A forwarder has reported every megabyte if and only if no chunk went past one. -/
theorem forwarder_exact (reached : Runs.run f.step f.start acts = some s) :
    (f.lines s).length = f.total s / megabyte ↔
      Runs.Along f.step (fun s a => ∀ length ∈ f.chunk s a, Stops (f.total s) length)
        f.start acts := by
  obtain ⟨total, lines⟩ := f.fresh
  have counted : Counted f f.start := ⟨f.started, by simp [lines]⟩
  rw [Runs.exact_along (Counted f) (fun s => (f.lines s).length = f.total s / megabyte)
    (fun _ _ _ => step_counted) (fun _ _ _ => step_exact) counted reached]
  apply and_iff_right
  rw [total, lines]
  rfl

inductive ForwardAct where
  | act (a : ForwardData.Act)
  | cancel
  deriving DecidableEq

def forwardStep (f : ForwardData.Forward) : ForwardAct → Option ForwardData.Forward
  | .act a => ForwardData.step f a
  | .cancel => some (ForwardData.cancel f)

/-- What `write_task` adds to `total_bytes`. -/
def written (f : ForwardData.Forward) : ForwardAct → Option Nat
  | .act .write =>
    match f.writeTask with
    | .writing data => some data.length
    | _ => none
  | _ => none

theorem forward_counts {f g : ForwardData.Forward} {a : ForwardAct}
    (stepped : forwardStep f a = some g) :
    written f a = none ∧ g.totalBytes = f.totalBytes ∧ g.progress = f.progress ∨
      ∃ length, written f a = some length ∧ g.totalBytes = f.totalBytes + length ∧
        g.progress = logProgress f.progress (f.totalBytes + length) := by
  cases a with
  | cancel =>
    rw [forwardStep, Option.some.injEq] at stepped
    left
    rw [← stepped]
    unfold ForwardData.cancel
    split <;> exact ⟨rfl, rfl, rfl⟩
  | act a =>
    cases ForwardData.step_effect stepped with
    | write data writing => exact .inr ⟨data.length, by simp [written, writing], rfl, rfl⟩
    | _ => exact .inl ⟨rfl, rfl, rfl⟩

def writeTask (stream : Bytes) : Forwarder where
  State := ForwardData.Forward
  Act := ForwardAct
  step := forwardStep
  start := ForwardData.init stream
  total := ForwardData.Forward.totalBytes
  lines := ForwardData.Forward.progress
  chunk := written
  keep := Chunked
  started := init_chunked stream
  fresh := ⟨rfl, rfl⟩
  kept := by
    intro f a g chunked stepped
    cases a with
    | act a => exact step_chunked chunked stepped
    | cancel =>
      rw [forwardStep, Option.some.injEq] at stepped
      rw [← stepped]
      exact cancel_chunked chunked
  small := by
    intro f a length chunked adds
    unfold written at adds
    split at adds
    · split at adds
      · rename_i data writing
        rw [← Option.some.inj adds]
        exact chunked.writing data writing
      · simp at adds
    · simp at adds
  counts := forward_counts

inductive PipeAct where
  | act (a : WebSocketPipe.Act)
  | createSend
  | createReceive
  | askSend
  | askReceive
  deriving DecidableEq

def pipeStep (p : WebSocketPipe.Pipe) : PipeAct → Option WebSocketPipe.Pipe
  | .act a => WebSocketPipe.step p a
  | .createSend => some (WebSocketPipe.createSend p)
  | .createReceive => some (WebSocketPipe.createReceive p)
  | .askSend => some (WebSocketPipe.askSend p)
  | .askReceive => some (WebSocketPipe.askReceive p)

/-- Every message on its way is what one `read` returned. -/
structure SizedPipe (p : WebSocketPipe.Pipe) : Prop where
  sending : ∀ data, p.unixToWs = .sending data ∨ p.unixToWs = .sent data → Sized data
  inFlight : ∀ data, .binary data ∈ p.inFlight → Sized data
  draining : ∀ data, p.wsToUnix = .draining data → Sized data

theorem init_sizedPipe (stream : Bytes) : SizedPipe (WebSocketPipe.init stream) := by
  constructor <;> simp [WebSocketPipe.init]

theorem act_sizedPipe {p q : WebSocketPipe.Pipe} {a : WebSocketPipe.Act} (sized : SizedPipe p)
    (stepped : WebSocketPipe.step p a = some q) : SizedPipe q := by
  obtain ⟨sending, inFlight, draining⟩ := sized
  cases WebSocketPipe.step_effect stepped with
  | startSend | dropSend | eof | readRaises | sendReturns | sendRaises | cancelSend =>
    exact ⟨by simp, inFlight, draining⟩
  | startReceive | dropReceive | drained | drainRaises | iterationEnds | cancelReceive =>
    exact ⟨sending, inFlight, by simp⟩
  | read n reading kept positive small available =>
    refine ⟨?_, inFlight, draining⟩
    intro data here
    have taken : p.unread.take n = data := by simpa using here
    rw [← taken]
    exact read_sized positive small available
  | accept data here =>
    refine ⟨?_, ?_, draining⟩
    · intro other sent
      have same : data = other := by simpa using sent
      exact sending other (.inl (same ▸ here))
    · intro other member
      rw [List.mem_append, List.mem_singleton] at member
      rcases member with old | new
      · exact inFlight other old
      · rw [WebSocketPipe.Message.binary.inj new]
        exact sending data (.inl here)
  | receive data rest receiving kept next =>
    refine ⟨sending, ?_, ?_⟩
    · intro other member
      exact inFlight other (by rw [next]; exact List.mem_cons_of_mem _ member)
    · intro other here
      have same : data = other := by simpa using here
      rw [← same]
      exact inFlight data (by rw [next]; exact List.mem_cons_self)
  | skip content rest receiving kept next =>
    refine ⟨sending, ?_, draining⟩
    intro other member
    exact inFlight other (by rw [next]; exact List.mem_cons_of_mem _ member)

theorem handler_frame {p q : WebSocketPipe.Pipe} {a : PipeAct} (stepped : pipeStep p a = some q) :
    (∃ act, a = .act act ∧ WebSocketPipe.step p act = some q) ∨
      (∀ act, a ≠ .act act) ∧ (q.unixToWs = p.unixToWs ∨ q.unixToWs = .created) ∧
        (q.wsToUnix = p.wsToUnix ∨ q.wsToUnix = .created) ∧ q.inFlight = p.inFlight ∧
        q.sentBytes = p.sentBytes ∧ q.sentProgress = p.sentProgress ∧
        q.receivedBytes = p.receivedBytes ∧ q.receivedProgress = p.receivedProgress := by
  cases a with
  | act a => exact .inl ⟨a, rfl, stepped⟩
  | createSend =>
    rw [pipeStep, Option.some.injEq] at stepped
    rw [← stepped, WebSocketPipe.createSend]
    split <;> simp
  | createReceive =>
    rw [pipeStep, Option.some.injEq] at stepped
    rw [← stepped, WebSocketPipe.createReceive]
    split <;> simp
  | askSend =>
    rw [pipeStep, Option.some.injEq] at stepped
    rw [← stepped, WebSocketPipe.askSend]
    split <;> simp
  | askReceive =>
    rw [pipeStep, Option.some.injEq] at stepped
    rw [← stepped, WebSocketPipe.askReceive]
    split <;> simp

theorem pipeStep_sized {p q : WebSocketPipe.Pipe} {a : PipeAct} (sized : SizedPipe p)
    (stepped : pipeStep p a = some q) : SizedPipe q := by
  rcases handler_frame stepped with
    ⟨act, -, stepped⟩ | ⟨-, unixToWs, wsToUnix, inFlight, -⟩
  · exact act_sizedPipe sized stepped
  · refine ⟨?_, ?_, ?_⟩
    · rcases unixToWs with same | created
      · rw [same]
        exact sized.sending
      · rw [created]
        simp
    · rw [inFlight]
      exact sized.inFlight
    · rcases wsToUnix with same | created
      · rw [same]
        exact sized.draining
      · rw [created]
        simp

/-- What `forward_unix_to_ws` adds to its `total_bytes`. -/
def sent (p : WebSocketPipe.Pipe) : PipeAct → Option Nat
  | .act .sendReturns =>
    match p.unixToWs with
    | .sent data => some data.length
    | _ => none
  | _ => none

/-- What `forward_ws_to_unix` adds to its `total_bytes`. -/
def received (p : WebSocketPipe.Pipe) : PipeAct → Option Nat
  | .act .drained =>
    match p.wsToUnix with
    | .draining data => some data.length
    | _ => none
  | _ => none

theorem handler_adds_nothing {p : WebSocketPipe.Pipe} {a : PipeAct}
    (handler : ∀ act, a ≠ .act act) :
    sent p a = none ∧ received p a = none := by
  cases a with
  | act a => exact absurd rfl (handler a)
  | _ => exact ⟨rfl, rfl⟩

def forwardUnixToWs (stream : Bytes) : Forwarder where
  State := WebSocketPipe.Pipe
  Act := PipeAct
  step := pipeStep
  start := WebSocketPipe.init stream
  total := WebSocketPipe.Pipe.sentBytes
  lines := WebSocketPipe.Pipe.sentProgress
  chunk := sent
  keep := SizedPipe
  started := init_sizedPipe stream
  fresh := ⟨rfl, rfl⟩
  kept := pipeStep_sized
  small := by
    intro p a length sized adds
    unfold sent at adds
    split at adds
    · split at adds
      · rename_i data here
        rw [← Option.some.inj adds]
        exact sized.sending data (.inr here)
      · simp at adds
    · simp at adds
  counts := by
    intro p a q stepped
    rcases handler_frame stepped with
      ⟨act, rfl, stepped⟩ | ⟨handler, -, -, -, bytes, lines, -, -⟩
    · cases WebSocketPipe.step_effect stepped with
      | sendReturns data here => exact .inr ⟨data.length, by simp [sent, here], rfl, rfl⟩
      | _ => exact .inl ⟨rfl, rfl, rfl⟩
    · exact .inl ⟨(handler_adds_nothing handler).1, bytes, lines⟩

def forwardWsToUnix (stream : Bytes) : Forwarder where
  State := WebSocketPipe.Pipe
  Act := PipeAct
  step := pipeStep
  start := WebSocketPipe.init stream
  total := WebSocketPipe.Pipe.receivedBytes
  lines := WebSocketPipe.Pipe.receivedProgress
  chunk := received
  keep := SizedPipe
  started := init_sizedPipe stream
  fresh := ⟨rfl, rfl⟩
  kept := pipeStep_sized
  small := by
    intro p a length sized adds
    unfold received at adds
    split at adds
    · split at adds
      · rename_i data here
        rw [← Option.some.inj adds]
        exact sized.draining data here
      · simp at adds
    · simp at adds
  counts := by
    intro p a q stepped
    rcases handler_frame stepped with
      ⟨act, rfl, stepped⟩ | ⟨handler, -, -, -, -, -, bytes, lines⟩
    · cases WebSocketPipe.step_effect stepped with
      | drained data here => exact .inr ⟨data.length, by simp [received, here], rfl, rfl⟩
      | _ => exact .inl ⟨rfl, rfl, rfl⟩
    · exact .inl ⟨(handler_adds_nothing handler).2, bytes, lines⟩

def forwarders (stream : Bytes) : List Forwarder :=
  [writeTask stream, forwardUnixToWs stream, forwardWsToUnix stream]

/-- A forwarder has logged a line for every megabyte if and only if each chunk that went past
    a whole number of megabytes ended on it. -/
theorem line_for_every_megabyte_iff (stream : Bytes) : ∀ f ∈ forwarders stream,
    ∀ (acts : List f.Act) (s : f.State), Runs.run f.step f.start acts = some s →
      ((f.lines s).length = f.total s / megabyte ↔
        Runs.Along f.step (fun s a => ∀ length ∈ f.chunk s a, Stops (f.total s) length)
          f.start acts) := by
  intro f _ acts s reached
  exact forwarder_exact reached

def addChunk (counts : Nat × List Nat) (length : Nat) : Nat × List Nat :=
  (counts.1 + length, logProgress counts.2 (counts.1 + length))

def sendChunk (n : Nat) : List PipeAct := [.act (.read n), .act .accept, .act .sendReturns]

/-- At the head of its loop, with `available` bytes to come. -/
structure AtRead (p : WebSocketPipe.Pipe) (available : Nat) (counts : Nat × List Nat) : Prop where
  reading : p.unixToWs = .reading
  kept : p.unixToWsCancelled = false
  unread : p.unread.length = available
  total : p.sentBytes = counts.1
  lines : p.sentProgress = counts.2

theorem chunk_run {p : WebSocketPipe.Pipe} {available n : Nat} {counts : Nat × List Nat}
    (here : AtRead p available counts) (positive : 0 < n) (small : n ≤ readSize)
    (enough : n ≤ available) : ∃ q, Runs.run pipeStep p (sendChunk n) = some q ∧
      AtRead q (available - n) (addChunk counts n) := by
  obtain ⟨reading, kept, unread, total, lines⟩ := here
  have fits : n ≤ p.unread.length := unread.symm ▸ enough
  have taken : (p.unread.take n).length = n := List.length_take_of_le fits
  have read : pipeStep p (.act (.read n)) = some { p with
      unixToWs := .sending (p.unread.take n)
      unread := p.unread.drop n
      bytesRead := p.bytesRead ++ p.unread.take n } :=
    if_pos ⟨reading, kept, positive, small, fits⟩
  refine ⟨{ p with
    unixToWs := .reading
    unread := p.unread.drop n
    bytesRead := p.bytesRead ++ p.unread.take n
    inFlight := p.inFlight ++ [.binary (p.unread.take n)]
    sentBytes := p.sentBytes + (p.unread.take n).length
    sentProgress := logProgress p.sentProgress (p.sentBytes + (p.unread.take n).length) }, ?_, ?_⟩
  · refine Runs.run_cons.mpr ⟨_, read, Runs.run_cons.mpr ⟨_, rfl, Runs.run_cons.mpr ⟨_, ?_, rfl⟩⟩⟩
    exact if_neg (by simp [kept])
  · constructor
    · rfl
    · exact kept
    · simp only [List.length_drop, unread]
    · simp only [taken, total, addChunk]
    · simp only [taken, total, lines, addChunk]

theorem cut_run {p : WebSocketPipe.Pipe} {available : Nat} {counts : Nat × List Nat}
    (cut : List Nat) (here : AtRead p available counts)
    (sized : ∀ n ∈ cut, 0 < n ∧ n ≤ readSize) (enough : cut.sum ≤ available) :
    ∃ q, Runs.run pipeStep p (cut.flatMap sendChunk) = some q ∧
      AtRead q (available - cut.sum) (cut.foldl addChunk counts) := by
  induction cut generalizing p available counts with
  | nil => exact ⟨p, by simp, by simpa using here⟩
  | cons n cut ih =>
    obtain ⟨⟨positive, small⟩, sized⟩ := List.forall_mem_cons.mp sized
    rw [List.sum_cons] at enough
    obtain ⟨q, first, next⟩ := chunk_run here positive small (by omega)
    obtain ⟨u, later, last⟩ := ih next sized (by omega)
    refine ⟨u, ?_, ?_⟩
    · rw [List.flatMap_cons]
      exact Runs.run_append.mpr ⟨q, first, later⟩
    · rw [List.sum_cons, Nat.sub_add_eq]
      exact last

def sendCut (cut : List Nat) : List PipeAct :=
  [.createSend, .act .startSend] ++ cut.flatMap sendChunk

theorem send_cut_run (stream : Bytes) (cut : List Nat)
    (sized : ∀ n ∈ cut, 0 < n ∧ n ≤ readSize) (enough : cut.sum ≤ stream.length) :
    ∃ p, Runs.run pipeStep (WebSocketPipe.init stream) (sendCut cut) = some p ∧
      AtRead p (stream.length - cut.sum) (cut.foldl addChunk (0, [])) := by
  have begins : Runs.run pipeStep (WebSocketPipe.init stream) [.createSend, .act .startSend] =
      some { WebSocketPipe.init stream with unixToWs := .reading } := rfl
  have here : AtRead { WebSocketPipe.init stream with unixToWs := .reading } stream.length
      (0, []) := ⟨rfl, rfl, rfl, rfl, rfl⟩
  obtain ⟨p, reached, last⟩ := cut_run cut here sized enough
  exact ⟨p, Runs.run_append.mpr ⟨_, begins, reached⟩, last⟩

def longStream : Bytes := List.replicate (megabyte + 1) 0

theorem long_stream_length : longStream.length = megabyte + 1 := List.length_replicate

/-- 128 chunks of 8192 bytes, the last of which ends on the megabyte. -/
theorem line_for_every_megabyte_whole_chunks : ∃ p,
    Runs.run pipeStep (WebSocketPipe.init longStream) (sendCut (List.replicate 128 8192)) =
        some p ∧
      p.sentBytes = megabyte ∧ p.sentProgress = [1] ∧
      Runs.Along pipeStep (fun p a => ∀ length ∈ sent p a, Stops p.sentBytes length)
        (WebSocketPipe.init longStream) (sendCut (List.replicate 128 8192)) := by
  obtain ⟨p, reached, last⟩ := send_cut_run longStream (List.replicate 128 8192)
    (by decide +kernel) (by rw [long_stream_length]; decide +kernel)
  have counts : (List.replicate 128 8192).foldl addChunk (0, []) = (megabyte, [1]) := by
    decide +kernel
  have total : p.sentBytes = megabyte := by rw [last.total, counts]
  have lines : p.sentProgress = [1] := by rw [last.lines, counts]
  have agree := line_for_every_megabyte_iff longStream (forwardUnixToWs longStream)
    (by simp [forwarders]) (sendCut (List.replicate 128 8192)) p reached
  refine ⟨p, reached, total, lines, agree.mp ?_⟩
  change p.sentProgress.length = p.sentBytes / megabyte
  rw [total, lines]
  decide

def steppingOver : List Nat := 1 :: List.replicate 128 8192

/-- A chunk of one byte and 128 chunks of 8192 bytes: the megabyte is stepped over. -/
theorem short_read_hides_megabyte : ¬ ∀ (stream : Bytes) (acts : List PipeAct)
    (p : WebSocketPipe.Pipe), Runs.run pipeStep (WebSocketPipe.init stream) acts = some p →
      p.sentProgress.length = p.sentBytes / megabyte := by
  intro always
  obtain ⟨p, reached, last⟩ := send_cut_run longStream steppingOver
    (by decide +kernel) (by rw [long_stream_length]; decide +kernel)
  have counts : steppingOver.foldl addChunk (0, []) = (megabyte + 1, []) := by decide +kernel
  have line := always longStream _ p reached
  rw [last.total, last.lines, counts] at line
  exact absurd line (by decide)

end ProgressLines
