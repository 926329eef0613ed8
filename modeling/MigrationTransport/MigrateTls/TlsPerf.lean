import MigrationTransport.Lib.CounterMap

/-!
The probe of `tls-perf.bpf` on `sendmsg`. Integers have 64 bits, and a map has room for every
key: `bpftrace` itself bounds the number of keys, by a setting of its own.
-/
namespace TlsPerf

/-- What the probe reads of a call: who makes it, the socket, and the `iov_len` of each entry of
    `msg_iov`, of which there are `msg_iovlen`. -/
structure Sendmsg where
  tid : UInt32
  fd : Int
  iov : List UInt64

/-- The maps of the script. Of a histogram it holds the values that were put into it. -/
structure Maps where
  totalBytes : UInt64
  totalCalls : UInt64
  iovlen : List UInt64
  vlen : List UInt64
  countMig : OrderedDict UInt64 UInt64
  iovCount : OrderedDict UInt32 UInt64
  fd : OrderedDict UInt32 Int
  bytesByTid : OrderedDict UInt32 UInt64
  callsByTid : OrderedDict UInt32 UInt64

def begin : Maps where
  totalBytes := 0
  totalCalls := 0
  iovlen := []
  vlen := []
  countMig := .empty
  iovCount := .empty
  fd := .empty
  bytesByTid := .empty
  callsByTid := .empty

def maxEntries : Nat := 32

/-- What the loop changes: `$total_bytes` and two maps. -/
structure Entries where
  totalBytes : UInt64
  vlen : List UInt64
  countMig : OrderedDict UInt64 UInt64

def countsMig (iovLen : UInt64) : Bool := iovLen < 16 || (4000 ≤ iovLen && iovLen ≤ 8192)

def addEntry (s : Entries) (iovLen : UInt64) : Entries where
  totalBytes := s.totalBytes + iovLen
  vlen := s.vlen ++ [iovLen]
  countMig := if countsMig iovLen then CounterMap.add s.countMig iovLen 1 else s.countMig

/-- `while ($i < $iov_count && $i < 32)`, with the turns that the bound leaves and the entries
    from `$i` on. -/
def addEntries : Nat → List UInt64 → Entries → Entries
  | 0, _, s => s
  | _ + 1, [], s => s
  | turns + 1, iovLen :: rest, s => addEntries turns rest (addEntry s iovLen)

def sysEnterSendmsg (s : Maps) (call : Sendmsg) : Maps :=
  let iovCount := UInt64.ofNat call.iov.length
  let entries := addEntries maxEntries call.iov ⟨0, s.vlen, s.countMig⟩
  { totalBytes := s.totalBytes + entries.totalBytes
    totalCalls := s.totalCalls + 1
    iovlen := s.iovlen ++ [iovCount]
    vlen := entries.vlen
    countMig := entries.countMig
    iovCount := s.iovCount.set call.tid iovCount
    fd := s.fd.set call.tid call.fd
    bytesByTid := CounterMap.add s.bytesByTid call.tid entries.totalBytes
    callsByTid := CounterMap.add s.callsByTid call.tid 1 }

def trace (calls : List Sendmsg) : Maps := calls.foldl sysEnterSendmsg begin

def byteSum (iov : List UInt64) : Nat := (iov.map UInt64.toNat).sum

def sent (calls : List Sendmsg) : Nat := (calls.map fun call => byteSum call.iov).sum

/-- What the loop comes to, and what it does not. -/
def counted (call : Sendmsg) : Nat := byteSum (call.iov.take maxEntries)

def skipped (call : Sendmsg) : Nat := byteSum (call.iov.drop maxEntries)

variable {calls : List Sendmsg} {s : Maps} {call : Sendmsg}

theorem addEntries_bytes (turns : Nat) (iov : List UInt64) (s : Entries) :
    (addEntries turns iov s).totalBytes.toNat =
      (s.totalBytes.toNat + byteSum (iov.take turns)) % 2 ^ 64 := by
  have small := s.totalBytes.toNat_lt
  induction turns generalizing iov s with
  | zero =>
    simp only [addEntries, List.take_zero, byteSum, List.map_nil, List.sum_nil]
    omega
  | succ turns ih =>
    cases iov with
    | nil =>
      simp only [addEntries, List.take_nil, byteSum, List.map_nil, List.sum_nil]
      omega
    | cons iovLen rest =>
      have later := ih rest (addEntry s iovLen) (UInt64.toNat_lt _)
      have first : (addEntry s iovLen).totalBytes.toNat =
          (s.totalBytes.toNat + iovLen.toNat) % 2 ^ 64 := UInt64.toNat_add _ _
      rw [first] at later
      simp only [addEntries, List.take_succ_cons, byteSum, List.map_cons, List.sum_cons] at later ⊢
      omega

theorem byteSum_split (call : Sendmsg) : byteSum call.iov = counted call + skipped call := by
  rw [counted, skipped, byteSum, byteSum, byteSum, ← List.sum_append, ← List.map_append,
    List.take_append_drop]

structure Tally (calls : List Sendmsg) (s : Maps) : Prop where
  bytes : s.totalBytes.toNat = (calls.map counted).sum % 2 ^ 64
  number : s.totalCalls.toNat = calls.length % 2 ^ 64
  bytesByTid : CounterMap.total s.bytesByTid % 2 ^ 64 = s.totalBytes.toNat
  callsByTid : CounterMap.total s.callsByTid % 2 ^ 64 = s.totalCalls.toNat
  bounded : CounterMap.total s.callsByTid ≤ calls.length

theorem step_bytes (s : Maps) (call : Sendmsg) :
    (sysEnterSendmsg s call).totalBytes.toNat = (s.totalBytes.toNat + counted call) % 2 ^ 64 ∧
      CounterMap.total (sysEnterSendmsg s call).bytesByTid % 2 ^ 64 =
        (CounterMap.total s.bytesByTid + counted call) % 2 ^ 64 := by
  have entries := addEntries_bytes maxEntries call.iov ⟨0, s.vlen, s.countMig⟩
  rw [UInt64.toNat_zero, Nat.zero_add] at entries
  constructor
  · simp only [sysEnterSendmsg, UInt64.toNat_add, entries, counted]
    omega
  · simp only [sysEnterSendmsg, CounterMap.total_add_mod, entries, counted]
    omega

theorem step_number (s : Maps) (call : Sendmsg) :
    (sysEnterSendmsg s call).totalCalls.toNat = (s.totalCalls.toNat + 1) % 2 ^ 64 ∧
      CounterMap.total (sysEnterSendmsg s call).callsByTid % 2 ^ 64 =
        (CounterMap.total s.callsByTid + 1) % 2 ^ 64 ∧
      CounterMap.total (sysEnterSendmsg s call).callsByTid ≤ CounterMap.total s.callsByTid + 1 :=
  ⟨UInt64.toNat_add _ _, CounterMap.total_add_mod _ _ _, CounterMap.total_add_le _ _ _⟩

theorem step_tally (tally : Tally calls s) : Tally (calls ++ [call]) (sysEnterSendmsg s call) := by
  obtain ⟨bytes, number, bytesByTid, callsByTid, bounded⟩ := tally
  obtain ⟨moreBytes, moreByTid⟩ := step_bytes s call
  obtain ⟨oneMore, oneMoreByTid, oneMoreAtMost⟩ := step_number s call
  have longer : (calls ++ [call]).length = calls.length + 1 := List.length_append
  have larger : ((calls ++ [call]).map counted).sum = (calls.map counted).sum + counted call := by
    simp
  constructor
  · rw [larger, moreBytes, bytes, Nat.mod_add_mod]
  · rw [longer, oneMore, number, Nat.mod_add_mod]
  · rw [moreByTid, moreBytes, ← bytesByTid, Nat.mod_add_mod]
  · rw [oneMoreByTid, oneMore, ← callsByTid, Nat.mod_add_mod]
  · rw [longer]
    omega

theorem trace_tally (calls : List Sendmsg) : Tally calls (trace calls) := by
  induction calls using List.reverseRecOn with
  | nil => exact ⟨rfl, rfl, rfl, rfl, Nat.le_refl 0⟩
  | append_singleton calls call ih =>
    rw [trace, List.foldl_append]
    exact step_tally ih

structure Accounted (calls : List Sendmsg) (s : Maps) : Prop where
  bytes : s.totalBytes.toNat = sent calls % 2 ^ 64
  number : s.totalCalls.toNat = calls.length
  bytesByTid : CounterMap.total s.bytesByTid % 2 ^ 64 = s.totalBytes.toNat
  callsByTid : CounterMap.total s.callsByTid = s.totalCalls.toNat

theorem sent_split (calls : List Sendmsg) :
    sent calls = (calls.map counted).sum + (calls.map skipped).sum := by
  induction calls with
  | nil => rfl
  | cons call calls ih =>
    have here := byteSum_split call
    simp only [sent, List.map_cons, List.sum_cons] at ih ⊢
    omega

/-- The probe accounts for all calls if and only if their number fits into its counter, and the
    entries behind the 32nd of each call are together empty, modulo 2^64. -/
theorem sendmsg_accounted_iff (calls : List Sendmsg) : Accounted calls (trace calls) ↔
    calls.length < 2 ^ 64 ∧ (calls.map skipped).sum % 2 ^ 64 = 0 := by
  have tally := trace_tally calls
  have split := sent_split calls
  have bytes := tally.bytes
  have number := tally.number
  have callsByTid := tally.callsByTid
  have bounded := tally.bounded
  constructor
  · intro accounted
    have all := accounted.bytes
    have every := accounted.number
    omega
  · rintro ⟨few, none⟩
    refine ⟨?_, ?_, tally.bytesByTid, ?_⟩ <;> omega

/-- A call with 33 entries of one byte. -/
theorem long_iovec_undercounted : ¬ ∀ calls, Accounted calls (trace calls) := by
  intro always
  exact absurd (always [⟨1, 3, List.replicate 33 1⟩]).bytes (by decide)

end TlsPerf
