import MigrationTransport.TcpProxy.Histogram

/-!
`print_histogram`, which a proxy calls when it exits: after any run of all its connections,
with any failures and cancellations, its rows are the sizes that were read, in increasing
order, each with the exact number of its reads, and their percentages add up to a hundred.
-/
namespace HistogramReport
open Histogram
open ByteStream (readSize)
open ProxySession (Endpoint)

/-- One line of the report. `percentage` is exact, before it is printed with one decimal. -/
structure Row where
  byteCount : Nat
  frequency : Nat
  percentage : ℚ
  deriving DecidableEq

inductive Report where
  | noDataRead
  | table (rows : List Row) (totalReads : Nat)
  deriving DecidableEq

/-- Python compares two tuples by their first components, then by their second. -/
def upTo (a b : Nat × Nat) : Prop := a.1 < b.1 ∨ a.1 = b.1 ∧ a.2 ≤ b.2

instance : DecidableRel upTo := fun a b => inferInstanceAs (Decidable (a.1 < b.1 ∨ a.1 = b.1 ∧ _))

instance : Std.Total upTo := ⟨fun a b => by unfold upTo; omega⟩

instance : IsTrans (Nat × Nat) upTo := ⟨fun a b c => by unfold upTo; omega⟩

/-- `sorted(self.read_histogram.items())` -/
def sortedHistogram (histogram : OrderedDict Nat Nat) : List (Nat × Nat) :=
  histogram.entries.insertionSort upTo

/-- `none` where `frequency / total_reads` raises `ZeroDivisionError`. -/
def row (total : Nat) (entry : Nat × Nat) : Option Row :=
  if total = 0 then none
  else some ⟨entry.1, entry.2, (entry.2 : ℚ) / (total : ℚ) * 100⟩

def printHistogram (histogram : OrderedDict Nat Nat) : Option Report :=
  if histogram.entries = [] then some .noDataRead
  else
    ((sortedHistogram histogram).mapM (row (totalReads histogram))).map fun rows =>
      .table rows (totalReads histogram)

def isReadOf (size : Nat) : Act → Bool
  | .session _ (.forward _ (.read n)) => decide (n = size)
  | _ => false

def frequency (histogram : OrderedDict Nat Nat) (size : Nat) : Nat :=
  (histogram.get size).getD 0

def Positive (histogram : OrderedDict Nat Nat) : Prop :=
  ∀ size ∈ histogram.keys, 0 < frequency histogram size

variable {e : Endpoint} {p q : Proxy} {act : Act} {acts : List Act}
  {histogram : OrderedDict Nat Nat}

theorem count_read_frequency (histogram : OrderedDict Nat Nat) (n size : Nat) :
    frequency (countRead histogram n) size =
      frequency histogram size + if n = size then 1 else 0 := by
  rw [frequency, countRead, OrderedDict.get_set]
  by_cases same : n = size
  · rw [if_pos same.symm, if_pos same, same]
    rfl
  · rw [if_neg (Ne.symm same), if_neg same]
    rfl

theorem count_read_positive (positive : Positive histogram) (n : Nat) :
    Positive (countRead histogram n) := by
  intro size member
  rw [count_read_frequency]
  rcases (OrderedDict.keys_set _ _ _ _).mp member with old | new
  · have before := positive size old
    omega
  · rw [if_pos new.symm]
    omega

theorem step_counts (stepped : step e p act = some q) :
    (∃ i d n, act = .session i (.forward d (.read n)) ∧ 1 ≤ n ∧ n ≤ readSize ∧
      q.readHistogram = countRead p.readHistogram n) ∨
    (∀ size, isReadOf size act = false) ∧ q.readHistogram = p.readHistogram := by
  cases act with
  | accept stream =>
    simp only [step, Option.some.injEq] at stepped
    subst stepped
    exact .inr ⟨fun _ => rfl, rfl⟩
  | session i a =>
    obtain ⟨-, stepped⟩ := Option.ite_none_right_eq_some.mp stepped
    obtain ⟨t, moved, rfl⟩ := Option.map_eq_some_iff.mp stepped
    cases a with
    | forward d x =>
      cases x with
      | read n =>
        obtain ⟨g, read, -⟩ := Option.map_eq_some_iff.mp moved
        cases ForwardData.step_effect read with
        | read _ _ _ positive small =>
          exact .inl ⟨i, d, n, rfl, positive, small, rfl⟩
      | _ => exact .inr ⟨fun _ => rfl, rfl⟩
    | _ => exact .inr ⟨fun _ => rfl, rfl⟩

theorem step_frequency (stepped : step e p act = some q) (size : Nat) :
    frequency q.readHistogram size =
      frequency p.readHistogram size + if isReadOf size act then 1 else 0 := by
  rcases step_counts stepped with ⟨i, d, n, rfl, -, -, counted⟩ | ⟨silent, same⟩
  · rw [counted, count_read_frequency]
    simp [isReadOf]
  · rw [same, silent size]
    rfl

theorem run_frequency (reached : Runs.run (step e) p acts = some q) (size : Nat) :
    frequency q.readHistogram size =
      frequency p.readHistogram size + acts.countP (isReadOf size) := by
  induction acts generalizing p with
  | nil => simp [Runs.run_nil.mp reached]
  | cons act acts ih =>
    obtain ⟨t, first, later⟩ := Runs.run_cons.mp reached
    have counted := step_frequency first size
    rw [ih later, counted, List.countP_cons]
    omega

structure Sound (histogram : OrderedDict Nat Nat) : Prop where
  positive : Positive histogram
  sizes : ∀ size ∈ histogram.keys, 1 ≤ size ∧ size ≤ readSize

theorem step_sound (sound : Sound p.readHistogram) (stepped : step e p act = some q) :
    Sound q.readHistogram := by
  rcases step_counts stepped with ⟨i, d, n, -, positive, small, counted⟩ | ⟨-, same⟩
  · rw [counted]
    refine ⟨count_read_positive sound.positive n, fun size member => ?_⟩
    rcases (OrderedDict.keys_set _ _ _ _).mp member with old | rfl
    · exact sound.sizes size old
    · exact ⟨positive, small⟩
  · rw [same]
    exact sound

theorem empty_sound : Sound .empty := by
  constructor
  · intro size member
    simp [OrderedDict.empty, OrderedDict.keys] at member
  · intro size member
    simp [OrderedDict.empty, OrderedDict.keys] at member

def rowOf (total : Nat) (entry : Nat × Nat) : Row :=
  ⟨entry.1, entry.2, (entry.2 : ℚ) / (total : ℚ) * 100⟩

theorem rows_of_entries {total : Nat} (read : total ≠ 0) (entries : List (Nat × Nat)) :
    entries.mapM (row total) = some (entries.map (rowOf total)) := by
  induction entries with
  | nil => rfl
  | cons entry entries ih =>
    rw [List.mapM_cons, ih, row, if_neg read]
    rfl

theorem percentages_sum (total : Nat) (entries : List (Nat × Nat)) :
    ((entries.map (rowOf total)).map Row.percentage).sum =
      ((entries.map Prod.snd).sum : ℚ) / (total : ℚ) * 100 := by
  induction entries with
  | nil => simp
  | cons entry entries ih =>
    simp only [List.map_cons, List.sum_cons, ih, rowOf, Nat.cast_add]
    ring

theorem sorted_perm (histogram : OrderedDict Nat Nat) :
    (sortedHistogram histogram).Perm histogram.entries :=
  List.perm_insertionSort upTo histogram.entries

/-- The keys are distinct, so the order is strict in them. -/
theorem sorted_strictly (histogram : OrderedDict Nat Nat) :
    (sortedHistogram histogram).Pairwise fun a b => a.1 < b.1 := by
  have ordered : (sortedHistogram histogram).Pairwise upTo :=
    List.pairwise_insertionSort upTo histogram.entries
  have distinct : (sortedHistogram histogram).Pairwise fun a b => a.1 ≠ b.1 := by
    have keys := ((sorted_perm histogram).map Prod.fst).nodup_iff.mpr histogram.distinct
    exact List.pairwise_map.mp keys
  apply (ordered.and distinct).imp
  intro a b both
  obtain ⟨less | ⟨same, -⟩, different⟩ := both
  · exact less
  · exact absurd same different

theorem entry_frequency {entry : Nat × Nat} (member : entry ∈ histogram.entries) :
    frequency histogram entry.1 = entry.2 := by
  rw [frequency, OrderedDict.get_entry member]
  rfl

theorem frequency_entry {size : Nat} (counted : 0 < frequency histogram size) :
    ∃ entry ∈ histogram.entries, entry.1 = size := by
  have held : size ∈ histogram.keys := by
    by_contra absent
    rw [frequency, OrderedDict.get_none.mpr absent] at counted
    simp at counted
  exact List.mem_map.mp held

theorem no_reads (sound : Sound histogram) (none : totalReads histogram = 0) :
    histogram.entries = [] := by
  cases entries : histogram.entries with
  | nil => rfl
  | cons entry rest =>
    have member : entry ∈ histogram.entries := by simp [entries]
    have positive := sound.positive entry.1 (List.mem_map_of_mem member)
    rw [entry_frequency member] at positive
    have sum : totalReads histogram = entry.2 + (rest.map Prod.snd).sum := by
      simp [totalReads, OrderedDict.total, entries]
    omega

def Exact (acts : List Act) : Report → Prop
  | .noDataRead => acts.countP isRead = 0
  | .table rows total =>
    0 < total ∧ total = acts.countP isRead ∧
      rows.Pairwise (fun a b => a.byteCount < b.byteCount) ∧
      (∀ r ∈ rows, 1 ≤ r.byteCount ∧ r.byteCount ≤ readSize ∧
        r.frequency = acts.countP (isReadOf r.byteCount)) ∧
      (∀ size, 0 < acts.countP (isReadOf size) → ∃ r ∈ rows, r.byteCount = size) ∧
      (rows.map Row.percentage).sum = 100

/-- Whatever happens to the connections and their tasks, the report can be printed at any time
    and is exact: it never divides by zero, and it forgets and invents no read. -/
theorem report_exact (reached : Runs.run (step e) start acts = some p) :
    ∃ report, printHistogram p.readHistogram = some report ∧ Exact acts report := by
  have sound : Sound p.readHistogram := Runs.invariant_run (fun p => Sound p.readHistogram)
    (fun _ _ _ sound stepped => step_sound sound stepped) empty_sound reached
  have total : totalReads p.readHistogram = acts.countP isRead := by
    rw [run_reads reached]
    exact Nat.zero_add _
  have counts : ∀ size, frequency p.readHistogram size = acts.countP (isReadOf size) := by
    intro size
    rw [run_frequency reached]
    exact Nat.zero_add _
  by_cases nothing : p.readHistogram.entries = []
  · refine ⟨.noDataRead, if_pos nothing, ?_⟩
    have none : totalReads p.readHistogram = 0 := by
      simp [totalReads, OrderedDict.total, nothing]
    exact total.symm.trans none
  · have read : totalReads p.readHistogram ≠ 0 := fun none => nothing (no_reads sound none)
    have perm := sorted_perm p.readHistogram
    refine ⟨_, by rw [printHistogram, if_neg nothing, rows_of_entries read]; rfl, ?_⟩
    refine ⟨by omega, total, ?_, ?_, ?_, ?_⟩
    · exact List.pairwise_map.mpr (sorted_strictly p.readHistogram)
    · intro r member
      obtain ⟨entry, listed, rfl⟩ := List.mem_map.mp member
      have held := perm.mem_iff.mp listed
      obtain ⟨least, most⟩ := sound.sizes entry.1 (List.mem_map_of_mem held)
      exact ⟨least, most, (entry_frequency held).symm.trans (counts entry.1)⟩
    · intro size counted
      rw [← counts] at counted
      obtain ⟨entry, held, rfl⟩ := frequency_entry counted
      exact ⟨_, List.mem_map_of_mem (perm.mem_iff.mpr held), rfl⟩
    · have sum : ((sortedHistogram p.readHistogram).map Prod.snd).sum =
          totalReads p.readHistogram := (perm.map Prod.snd).sum_eq
      rw [percentages_sum, sum, div_self (Nat.cast_ne_zero.mpr read), one_mul]

/-- A read of two bytes, then one of one byte in a handler that has been cancelled. -/
def twoSizes : List Act :=
  [.accept fun _ => [1, 2, 3]] ++ ProxySession.startBoth.map (.session 0) ++
    [.session 0 (.forward .outward (.read 2)), .session 0 .cancelHandler,
      .session 0 (.forward .outward .put), .session 0 (.forward .outward (.read 1))]

theorem report_exact_two : ∃ p, Runs.run (step .server) start twoSizes = some p ∧
    printHistogram p.readHistogram = some (.table [⟨1, 1, 50⟩, ⟨2, 1, 50⟩] 2) ∧
    twoSizes.countP isRead = 2 := by
  obtain ⟨p, reached, printed⟩ : ∃ p, Runs.run (step .server) start twoSizes = some p ∧
      printHistogram p.readHistogram = some (.table [⟨1, 1, 50⟩, ⟨2, 1, 50⟩] 2) :=
    Runs.reaches (by decide +kernel)
  obtain ⟨report, same, right⟩ := report_exact reached
  rw [printed, Option.some.injEq] at same
  subst same
  exact ⟨p, reached, printed, right.2.1.symm⟩

end HistogramReport
