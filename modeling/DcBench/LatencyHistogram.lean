import DcBench.Lib.Binary64
import DcBench.Lib.Decimal
import DcBench.Lib.OrderStatistic
import Mathlib.Data.List.DropRight

namespace DcBench.LatencyHistogram

open DcBench.Lib

instance linearOrderUInt64 : LinearOrder UInt64 where
  le_refl := UInt64.le_refl
  le_trans _ _ _ := UInt64.le_trans
  le_antisymm _ _ := UInt64.le_antisymm
  le_total := UInt64.le_total
  lt_iff_le_not_ge a b := by
    rw [UInt64.not_le]
    exact ⟨fun h => ⟨UInt64.le_of_lt h, h⟩, And.right⟩
  toDecidableLE := inferInstance

/-- The fields `samples_` and `sorted_`, both mutable: the queries sort the
samples where they need them sorted. -/
structure Histogram where
  samples : List UInt64
  sorted : Bool
deriving DecidableEq

def init : Histogram := ⟨[], false⟩

def record (h : Histogram) (latencyNs : UInt64) : Histogram := ⟨h.samples ++ [latencyNs], false⟩

def addSamples (h : Histogram) (samples : List UInt64) : Histogram := ⟨h.samples ++ samples, false⟩

def reset (_ : Histogram) : Histogram := ⟨[], false⟩

def ensureSorted (h : Histogram) : Histogram :=
  if h.sorted then h else ⟨OrderStatistic.sort h.samples, true⟩

/-- The subtraction is one of `size_t`, so that rank `0` wraps around. A negative
rank, whose conversion is undefined, counts as `0`. -/
def percentileIndex (p : ℚ) (n : Nat) : Nat :=
  let rank := ⌈p / 100 * n⌉.toNat
  let idx := if rank = 0 then 2 ^ 64 - 1 else rank - 1
  min idx (n - 1)

/-- A query that reads the sorted samples and answers `0` when there are none. -/
def readSorted (h : Histogram) (read : List UInt64 → UInt64) : Histogram × UInt64 :=
  if h.samples = [] then (h, 0)
  else
    let h := ensureSorted h
    (h, read h.samples)

def percentile (h : Histogram) (p : ℚ) : Histogram × UInt64 :=
  readSorted h (fun samples => samples.getD (percentileIndex p samples.length) 0)

def minVal (h : Histogram) : Histogram × UInt64 := readSorted h (fun samples => samples.headD 0)

def maxVal (h : Histogram) : Histogram × UInt64 := readSorted h (fun samples => samples.getLastD 0)

/-- The samples are added up in doubles, in the order in which they are stored. -/
def accumulate (samples : List UInt64) : ℚ :=
  samples.foldl (fun sum x => Binary64.round (sum + Binary64.round x.toNat)) 0

def meanVal (h : Histogram) : ℚ :=
  if h.samples = [] then 0
  else Binary64.round (accumulate h.samples / Binary64.round h.samples.length)

def count (h : Histogram) : Nat := h.samples.length

/-- A sample in microseconds, computed in doubles and rounded to two digits
after the point as `std::fixed` does. -/
def usHundredths (x : UInt64) : Nat :=
  (Binary64.halfEven (100 * Binary64.round (Binary64.round x.toNat / 1000))).toNat

def usText (x : UInt64) : List Char := Decimal.hundredthsText (usHundredths x)

def csvRow (i : Nat) (x : UInt64) : List Char :=
  Decimal.natText i ++ ',' :: Decimal.natText x.toNat ++ ',' :: usText x ++ ['\n']

def csvHeader : List Char := "sample_idx,latency_ns,latency_us\n".toList

def csvText (samples : List UInt64) : List Char :=
  csvHeader ++ (samples.mapIdx csvRow).flatten

/-- What `dump_csv` leaves in the file. -/
def dumpCsv (h : Histogram) : Histogram × List Char :=
  let h := ensureSorted h
  (h, csvText h.samples)

inductive Op
  | record (latencyNs : UInt64)
  | addSamples (samples : List UInt64)
  | reset
  | percentile (p : ℚ)
  | minVal
  | maxVal
  | meanVal
  | count
  | dumpCsv
deriving DecidableEq

inductive Answer
  | done
  | sample (x : UInt64)
  | mean (m : ℚ)
  | size (n : Nat)
  | file (text : List Char)
deriving DecidableEq

def step (h : Histogram) : Op → Histogram × Answer
  | .record x => (record h x, .done)
  | .addSamples xs => (addSamples h xs, .done)
  | .reset => (reset h, .done)
  | .percentile p => ((percentile h p).1, .sample (percentile h p).2)
  | .minVal => ((minVal h).1, .sample (minVal h).2)
  | .maxVal => ((maxVal h).1, .sample (maxVal h).2)
  | .meanVal => (h, .mean (meanVal h))
  | .count => (h, .size (count h))
  | .dumpCsv => ((dumpCsv h).1, .file (dumpCsv h).2)

def run (ops : List Op) : Histogram := ops.foldl (fun h op => (step h op).1) init

def Op.values : Op → List UInt64
  | .record x => [x]
  | .addSamples xs => xs
  | _ => []

/-- The values added since the last reset. -/
def added (ops : List Op) : List UInt64 := (ops.rtakeWhile (fun op => op ≠ .reset)).flatMap Op.values

theorem run_concat (ops : List Op) (op : Op) : run (ops ++ [op]) = (step (run ops) op).1 := by
  rw [run, List.foldl_append]
  rfl

theorem added_concat (ops : List Op) (op : Op) :
    added (ops ++ [op]) = if op = .reset then [] else added ops ++ op.values := by
  rw [added, List.rtakeWhile_concat]
  by_cases hop : op = .reset
  · simp [hop]
  · simp [hop, added]

/-- The samples may be in another order than they were added in, and the flag
is set only when they are ascending. -/
structure Holds (h : Histogram) (values : List UInt64) : Prop where
  perm : h.samples.Perm values
  ascending : h.sorted = true → h.samples.Pairwise (· ≤ ·)

variable {h h' : Histogram} {values : List UInt64}

def ascending (values : List UInt64) : Histogram := ⟨OrderStatistic.sort values, true⟩

theorem holds_ascending (values : List UInt64) : Holds (ascending values) values :=
  ⟨OrderStatistic.sort_perm values, fun _ => OrderStatistic.pairwise_sort values⟩

theorem ensureSorted_eq (hh : Holds h values) : ensureSorted h = ascending values := by
  rw [ensureSorted, ascending, ← OrderStatistic.sort_congr hh.perm]
  split_ifs with hs
  · rw [OrderStatistic.sort_of_pairwise (hh.ascending hs), ← hs]
  · rfl

theorem holds_ensureSorted (hh : Holds h values) : Holds (ensureSorted h) values := by
  rw [ensureSorted_eq hh]
  exact holds_ascending values

theorem holds_readSorted (hh : Holds h values) (read : List UInt64 → UInt64) :
    Holds (readSorted h read).1 values := by
  rw [readSorted]
  split_ifs
  · exact hh
  · exact holds_ensureSorted hh

theorem holds_step (hh : Holds h values) {op : Op} (hop : op ≠ .reset) :
    Holds (step h op).1 (values ++ op.values) := by
  have hquery : ∀ q : Op, q.values = [] → Holds (step h q).1 values → Holds (step h q).1 (values ++ q.values) := by
    intro q hq hk
    rwa [hq, List.append_nil]
  cases op with
  | record x => exact ⟨hh.perm.append_right _, nofun⟩
  | addSamples xs => exact ⟨hh.perm.append_right _, nofun⟩
  | reset => exact absurd rfl hop
  | percentile p => exact hquery _ rfl (holds_readSorted hh _)
  | minVal => exact hquery _ rfl (holds_readSorted hh _)
  | maxVal => exact hquery _ rfl (holds_readSorted hh _)
  | meanVal => exact hquery _ rfl hh
  | count => exact hquery _ rfl hh
  | dumpCsv => exact hquery _ rfl (holds_ensureSorted hh)

theorem holds_run (ops : List Op) : Holds (run ops) (added ops) := by
  induction ops using List.reverseRecOn with
  | nil => exact ⟨.nil, nofun⟩
  | append_singleton ops op ih =>
    rw [run_concat, added_concat]
    split_ifs with hop
    · rw [hop]
      exact ⟨.nil, nofun⟩
    · exact holds_step ih hop

theorem samples_eq_nil (hh : Holds h values) : h.samples = [] ↔ values = [] := by
  rw [← List.length_eq_zero_iff, ← List.length_eq_zero_iff, hh.perm.length_eq]

theorem readSorted_eq (hh : Holds h values) (read : List UInt64 → UInt64) :
    (readSorted h read).2 = if values = [] then 0 else read (OrderStatistic.sort values) := by
  simp only [readSorted, samples_eq_nil hh, ensureSorted_eq hh]
  split_ifs
  · rfl
  · rfl

theorem answer_eq (hh : Holds h values) {op : Op} (hop : op ≠ .meanVal) :
    (step h op).2 = (step (ascending values) op).2 := by
  have ha := holds_ascending values
  cases op with
  | record x => rfl
  | addSamples xs => rfl
  | reset => rfl
  | percentile p => simp only [step, percentile, readSorted_eq hh, readSorted_eq ha]
  | minVal => simp only [step, minVal, readSorted_eq hh, readSorted_eq ha]
  | maxVal => simp only [step, maxVal, readSorted_eq hh, readSorted_eq ha]
  | meanVal => exact absurd rfl hop
  | count => simp only [step, count, hh.perm.length_eq, ha.perm.length_eq]
  | dumpCsv => simp only [step, dumpCsv, ensureSorted_eq hh, ensureSorted_eq ha]

theorem answer_congr {values' : List UInt64} (hh : Holds h values) (hh' : Holds h' values')
    (hperm : values.Perm values') {op : Op} (hop : op ≠ .meanVal) : (step h op).2 = (step h' op).2 := by
  have hsort : ascending values = ascending values' := by rw [ascending, ascending, OrderStatistic.sort_congr hperm]
  rw [answer_eq hh hop, answer_eq hh' hop, hsort]

theorem percentileIndex_lt (p : ℚ) {n : Nat} (hn : 0 < n) : percentileIndex p n < n := by
  simp only [percentileIndex]
  omega

/-- A rank of `1` to `n` needs neither the wrap-around nor the clamp. -/
theorem percentileIndex_lt_iff {p : ℚ} (hp : 0 < p) (hle : p ≤ 100) {n : Nat} (hn : 0 < n) (c : Nat) :
    percentileIndex p n < c ↔ p / 100 * n ≤ c := by
  have hn' : (0 : ℚ) < n := by exact_mod_cast hn
  have hpos : 0 < ⌈p / 100 * n⌉ := Int.ceil_pos.mpr (by positivity)
  have htop : ⌈p / 100 * n⌉ ≤ n := by
    rw [Int.ceil_le]
    calc p / 100 * n ≤ 1 * n := mul_le_mul_of_nonneg_right (by linarith) hn'.le
      _ = ((n : Int) : ℚ) := by rw [one_mul, Int.cast_natCast]
  have hidx : percentileIndex p n = ⌈p / 100 * n⌉.toNat - 1 := by
    simp only [percentileIndex]
    split_ifs <;> omega
  have hceil : p / 100 * n ≤ c ↔ ⌈p / 100 * n⌉ ≤ c := by rw [Int.ceil_le, Int.cast_natCast]
  rw [hidx, hceil]
  omega

theorem percentile_read (hh : Holds h values) (hne : values ≠ []) (p : ℚ) :
    ∃ hk : percentileIndex p values.length < (OrderStatistic.sort values).length,
      (percentile h p).2 = (OrderStatistic.sort values)[percentileIndex p values.length] := by
  have hk : percentileIndex p values.length < (OrderStatistic.sort values).length := by
    rw [OrderStatistic.length_sort]
    exact percentileIndex_lt p (List.length_pos_iff.mpr hne)
  refine ⟨hk, ?_⟩
  rw [percentile, readSorted_eq hh, if_neg hne, OrderStatistic.length_sort, List.getD_eq_getElem?_getD,
    List.getElem?_eq_getElem hk, Option.getD_some]

theorem percentile_isLeast (hh : Holds h values) (hne : values ≠ []) {p : ℚ} (hp : 0 < p) (hle : p ≤ 100) :
    IsLeast {v | v ∈ values ∧ p / 100 * values.length ≤ values.countP (fun x => x ≤ v)} (percentile h p).2 := by
  have hn : 0 < values.length := List.length_pos_iff.mpr hne
  obtain ⟨hk, hread⟩ := percentile_read hh hne p
  rw [hread]
  simp only [← percentileIndex_lt_iff hp hle hn]
  exact OrderStatistic.isLeast_sort_getElem values hk

/-- Up to `2 ^ 53` every partial sum is a double. -/
theorem accumulate_eq {samples : List UInt64} (hs : (samples.map UInt64.toNat).sum ≤ 2 ^ 53) :
    accumulate samples = (samples.map UInt64.toNat).sum := by
  suffices ∀ a : Nat, a + (samples.map UInt64.toNat).sum ≤ 2 ^ 53 →
      samples.foldl (fun sum x => Binary64.round (sum + Binary64.round x.toNat)) (a : ℚ) =
        (a + (samples.map UInt64.toNat).sum : Nat) by
    simpa [accumulate] using this 0 (by omega)
  clear hs
  induction samples with
  | nil =>
    intro a _
    rfl
  | cons x samples ih =>
    intro a ha
    rw [List.map_cons, List.sum_cons] at ha ⊢
    have hx : Binary64.round x.toNat = x.toNat := Binary64.round_natCast (by omega)
    have hax : Binary64.round ((a + x.toNat : Nat) : ℚ) = (a + x.toNat : Nat) := Binary64.round_natCast (by omega)
    rw [List.foldl_cons, hx, ← Nat.cast_add, hax, ih _ (by omega), Nat.add_assoc]

theorem meanVal_eq (hh : Holds h values) (hs : (values.map UInt64.toNat).sum ≤ 2 ^ 53) :
    meanVal h = if values = [] then 0
      else Binary64.round ((values.map UInt64.toNat).sum / Binary64.round values.length) := by
  have hsum : (h.samples.map UInt64.toNat).sum = (values.map UInt64.toNat).sum := (hh.perm.map _).sum_eq
  rw [meanVal, accumulate_eq (hsum ▸ hs), hsum, hh.perm.length_eq]
  simp only [samples_eq_nil hh]

/-- Every run leaves the values added since the last reset, in some order, and
the queries see them as a multiset. The mean does so while the sum is exact. -/
theorem run_faithful (ops : List Op) :
    (run ops).samples.Perm (added ops) ∧
    ((run ops).sorted = true → (run ops).samples.Pairwise (· ≤ ·)) ∧
    (∀ p : ℚ, 0 < p → p ≤ 100 → added ops ≠ [] →
      IsLeast {v | v ∈ added ops ∧ p / 100 * (added ops).length ≤ (added ops).countP (fun x => x ≤ v)}
        (percentile (run ops) p).2) ∧
    ∀ ops' : List Op, (added ops).Perm (added ops') → ∀ query : Op,
      (query = .meanVal → ((added ops).map UInt64.toNat).sum ≤ 2 ^ 53) →
      (step (run ops) query).2 = (step (run ops') query).2 := by
  have hh := holds_run ops
  refine ⟨hh.perm, hh.ascending, fun p hp hle hne => percentile_isLeast hh hne hp hle, ?_⟩
  intro ops' hperm query hmean
  have hh' := holds_run ops'
  by_cases hq : query = .meanVal
  · subst hq
    have hsum : ((added ops).map UInt64.toNat).sum = ((added ops').map UInt64.toNat).sum := (hperm.map _).sum_eq
    have hnil : added ops = [] ↔ added ops' = [] := by
      rw [← List.length_eq_zero_iff, ← List.length_eq_zero_iff, hperm.length_eq]
    simp only [step, meanVal_eq hh (hmean rfl), meanVal_eq hh' (hsum ▸ hmean rfl), hsum, hperm.length_eq, hnil]
  · exact answer_congr hh hh' hperm hq

/-- A query that sorts changes the mean that is computed after it. -/
theorem mean_depends_on_order :
    ¬ ∀ ops ops' : List Op, (added ops).Perm (added ops') → ∀ query : Op,
      (step (run ops) query).2 = (step (run ops') query).2 := by
  intro hall
  have hmean := hall [.addSamples [2 ^ 53, 1, 1]] [.addSamples [2 ^ 53, 1, 1], .minVal] (.refl _) .meanVal
  revert hmean
  decide +kernel

end DcBench.LatencyHistogram
