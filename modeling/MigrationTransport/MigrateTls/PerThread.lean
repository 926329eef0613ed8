import MigrationTransport.MigrateTls.TlsPerf

/-!
The maps of `tls-perf.bpf` that `END` prints by thread, and the one that counts small entries.
The calls of all threads come in any order. A thread's row is told by its own calls alone, and
every map by what its loop saw of the calls.
-/
namespace PerThread
open TlsPerf CounterMap

/-- `$total_bytes` of one call. -/
def callBytes (call : Sendmsg) : UInt64 :=
  (addEntries maxEntries call.iov ⟨0, [], .empty⟩).totalBytes

def seen (calls : List Sendmsg) : List UInt64 := calls.flatMap fun call => call.iov.take maxEntries

def own (tid : UInt32) (calls : List Sendmsg) : List Sendmsg := calls.filter (·.tid = tid)

variable {calls : List Sendmsg} {s : Maps} {call : Sendmsg} {turns : Nat} {iov : List UInt64}

theorem addEntries_total (turns : Nat) (iov : List UInt64) {a b : Entries}
    (same : a.totalBytes = b.totalBytes) :
    (addEntries turns iov a).totalBytes = (addEntries turns iov b).totalBytes := by
  induction turns generalizing iov a b with
  | zero => exact same
  | succ turns ih =>
    cases iov with
    | nil => exact same
    | cons iovLen rest =>
      apply ih rest
      rw [addEntry, addEntry, same]

theorem addEntries_vlen (turns : Nat) (iov : List UInt64) (a : Entries) :
    (addEntries turns iov a).vlen = a.vlen ++ iov.take turns := by
  induction turns generalizing iov a with
  | zero => simp [addEntries]
  | succ turns ih =>
    cases iov with
    | nil => simp [addEntries]
    | cons iovLen rest =>
      rw [addEntries, ih]
      simp [addEntry]

def migrated (entries : List UInt64) : List (UInt64 × UInt64) :=
  (entries.filter countsMig).map fun iovLen => (iovLen, 1)

theorem addEntries_countMig (turns : Nat) (iov : List UInt64) (a : Entries) :
    (addEntries turns iov a).countMig = addAll a.countMig (migrated (iov.take turns)) := by
  induction turns generalizing iov a with
  | zero => simp [addEntries, addAll, migrated]
  | succ turns ih =>
    cases iov with
    | nil => simp [addEntries, addAll, migrated]
    | cons iovLen rest =>
      rw [addEntries, ih]
      by_cases small : countsMig iovLen = true
      · simp [addEntry, small, addAll, migrated]
      · simp [addEntry, small, addAll, migrated]

structure Recorded (calls : List Sendmsg) (s : Maps) : Prop where
  bytesByTid : s.bytesByTid = addAll .empty (calls.map fun call => (call.tid, callBytes call))
  callsByTid : s.callsByTid = addAll .empty (calls.map fun call => (call.tid, 1))
  countMig : s.countMig = addAll .empty (migrated (seen calls))
  vlen : s.vlen = seen calls
  iovlen : s.iovlen = calls.map fun call => UInt64.ofNat call.iov.length
  iovCount : ∀ tid, s.iovCount.get tid =
    (own tid calls).getLast?.map fun call => UInt64.ofNat call.iov.length
  fd : ∀ tid, s.fd.get tid = (own tid calls).getLast?.map Sendmsg.fd

theorem addAll_append {Key : Type} [DecidableEq Key] (d : OrderedDict Key UInt64)
    (earlier later : List (Key × UInt64)) :
    addAll d (earlier ++ later) = addAll (addAll d earlier) later := by
  rw [addAll, List.foldl_append, addAll, addAll]

theorem own_append (tid : UInt32) (calls : List Sendmsg) (call : Sendmsg) :
    own tid (calls ++ [call]) =
      if call.tid = tid then own tid calls ++ [call] else own tid calls := by
  by_cases same : call.tid = tid <;> simp [own, same]

theorem step_recorded (recorded : Recorded calls s) :
    Recorded (calls ++ [call]) (sysEnterSendmsg s call) := by
  obtain ⟨bytesByTid, callsByTid, countMig, vlen, iovlen, iovCount, fd⟩ := recorded
  have total : (addEntries maxEntries call.iov ⟨0, s.vlen, s.countMig⟩).totalBytes =
      callBytes call := addEntries_total maxEntries call.iov rfl
  have more : seen (calls ++ [call]) = seen calls ++ call.iov.take maxEntries := by simp [seen]
  constructor
  · simp only [sysEnterSendmsg, total, bytesByTid, List.map_append, addAll_append]
    rfl
  · simp only [sysEnterSendmsg, callsByTid, List.map_append, addAll_append]
    rfl
  · simp only [sysEnterSendmsg, addEntries_countMig, countMig, more, migrated,
      List.filter_append, List.map_append, addAll_append]
  · simp only [sysEnterSendmsg, addEntries_vlen, vlen, more]
  · simp only [sysEnterSendmsg, iovlen, List.map_append, List.map_cons, List.map_nil]
  · intro tid
    rw [own_append]
    by_cases same : call.tid = tid
    · simp [sysEnterSendmsg, OrderedDict.get_set, same]
    · simp [sysEnterSendmsg, OrderedDict.get_set, Ne.symm same, same, iovCount]
  · intro tid
    rw [own_append]
    by_cases same : call.tid = tid
    · simp [sysEnterSendmsg, OrderedDict.get_set, same]
    · simp [sysEnterSendmsg, OrderedDict.get_set, Ne.symm same, same, fd]

theorem trace_recorded (calls : List Sendmsg) : Recorded calls (trace calls) := by
  induction calls using List.reverseRecOn with
  | nil => constructor <;> simp [trace, begin, addAll, migrated, seen, own]
  | append_singleton calls call ih =>
    rw [trace, List.foldl_append]
    exact step_recorded ih

theorem callBytes_toNat (call : Sendmsg) : (callBytes call).toNat = counted call % 2 ^ 64 := by
  have bytes := addEntries_bytes maxEntries call.iov ⟨0, [], .empty⟩
  rw [UInt64.toNat_zero, Nat.zero_add] at bytes
  exact bytes

theorem amounts_own (tid : UInt32) (weight : Sendmsg → UInt64) (calls : List Sendmsg) :
    amounts tid (calls.map fun call => (call.tid, weight call)) =
      (own tid calls).map fun call => (weight call).toNat := by
  induction calls with
  | nil => rfl
  | cons call calls ih =>
    by_cases same : call.tid = tid
    · simp only [amounts, own, List.map_cons, List.filter_cons, same] at ih ⊢
      simpa using ih
    · simp only [amounts, own, List.map_cons, List.filter_cons, same] at ih ⊢
      simpa using ih

theorem sum_mod (weight : Sendmsg → Nat) (calls : List Sendmsg) :
    (calls.map fun call => weight call % 2 ^ 64).sum % 2 ^ 64 =
      (calls.map weight).sum % 2 ^ 64 := by
  induction calls with
  | nil => rfl
  | cons call calls ih =>
    simp only [List.map_cons, List.sum_cons]
    omega

theorem amounts_migrated (iovLen : UInt64) (entries : List UInt64) :
    amounts iovLen (migrated entries) =
      if countsMig iovLen then List.replicate (entries.count iovLen) 1 else [] := by
  induction entries with
  | nil => simp [amounts, migrated]
  | cons entry entries ih =>
    by_cases same : entry = iovLen
    · subst same
      by_cases small : countsMig entry = true
      · simp only [amounts, migrated, small, List.filter_cons, List.count_cons] at ih ⊢
        simpa [List.replicate_succ] using ih
      · simp only [amounts, migrated, small, List.filter_cons] at ih ⊢
        simpa using ih
    · by_cases small : countsMig entry = true
      · simp only [amounts, migrated, small, List.filter_cons] at ih ⊢
        simpa [same] using ih
      · simp only [amounts, migrated, small, List.filter_cons] at ih ⊢
        simpa [same] using ih

theorem weighed_row (tid : UInt32) (weight : Sendmsg → UInt64) (total : Sendmsg → Nat)
    (reduced : ∀ call, (weight call).toNat = total call % 2 ^ 64) (calls : List Sendmsg) :
    ((addAll .empty (calls.map fun call => (call.tid, weight call))).get tid).map UInt64.toNat =
      if own tid calls = [] then none else some (((own tid calls).map total).sum % 2 ^ 64) := by
  rw [get_addAll, amounts_own]
  simp only [List.map_eq_nil_iff, reduced, sum_mod]

/-- What a thread's row shows is what the thread's own calls come to, the counts of small entries
    are exact, both modulo 2^64, and the histograms get each number that the loop saw once. -/
theorem rows_exact (calls : List Sendmsg) :
    (∀ tid, ((trace calls).bytesByTid.get tid).map UInt64.toNat =
        (if own tid calls = [] then none
          else some (((own tid calls).map counted).sum % 2 ^ 64)) ∧
      ((trace calls).callsByTid.get tid).map UInt64.toNat =
        (if own tid calls = [] then none else some ((own tid calls).length % 2 ^ 64)) ∧
      (trace calls).iovCount.get tid =
        (own tid calls).getLast?.map (fun call => UInt64.ofNat call.iov.length) ∧
      (trace calls).fd.get tid = (own tid calls).getLast?.map Sendmsg.fd) ∧
    (∀ iovLen, ((trace calls).countMig.get iovLen).map UInt64.toNat =
      if countsMig iovLen = true ∧ iovLen ∈ seen calls then
        some ((seen calls).count iovLen % 2 ^ 64)
      else none) ∧
    (trace calls).vlen = seen calls ∧
      (trace calls).iovlen = calls.map fun call => UInt64.ofNat call.iov.length := by
  have recorded := trace_recorded calls
  refine ⟨?_, ?_, recorded.vlen, recorded.iovlen⟩
  · intro tid
    refine ⟨?_, ?_, recorded.iovCount tid, recorded.fd tid⟩
    · rw [recorded.bytesByTid]
      exact weighed_row tid callBytes counted callBytes_toNat calls
    · rw [recorded.callsByTid, weighed_row tid (fun _ => 1) (fun _ => 1) (fun _ => rfl) calls]
      simp
  · intro iovLen
    rw [recorded.countMig, get_addAll, amounts_migrated]
    by_cases small : countsMig iovLen = true
    · by_cases found : iovLen ∈ seen calls
      · have positive := List.count_pos_iff.mpr found
        have counted : (seen calls).count iovLen ≠ 0 := by omega
        simp [small, found, counted]
      · simp [small, found, List.count_eq_zero.mpr found]
    · simp [small]

end PerThread
