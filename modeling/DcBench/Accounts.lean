import DcBench.Message
import Mathlib.Algebra.BigOperators.Group.List.Basic
import Mathlib.Data.Multiset.Filter
import Mathlib.Algebra.BigOperators.Group.Multiset.Basic
import Mathlib.Algebra.Order.BigOperators.Group.Multiset
import Mathlib.Algebra.BigOperators.Fin

namespace DcBench.Accounts

open DcBench.Message

/-- The counts of a finished run; `samples` is what `latency` has been given. -/
@[ext]
structure BenchmarkResult where
  samples : Multiset UInt64
  totalBytes : UInt64

/-- `result.total_requests`, which is `latency.count()`. -/
def BenchmarkResult.totalRequests (r : BenchmarkResult) : Nat := Multiset.card r.samples

/-- One request of a run: its size, whether its frame has been added to
`total_bytes_`, and the sample it has given. -/
structure Entry where
  size : UInt32
  added : Bool
  sample : Option UInt64
deriving DecidableEq

def Entry.frame (e : Entry) : Nat := headerSize + e.size.toNat

def Entry.counted (e : Entry) : Bool := e.sample.isSome

def Entry.uncounted (e : Entry) : Bool := e.added && !e.counted

def frames (es : Multiset Entry) : Nat := (es.map Entry.frame).sum

/-- The result is what the entries add up to: one sample from each counted
request, and the frames that have been added, in a word of 64 bits. -/
structure Books (r : BenchmarkResult) (es : Multiset Entry) : Prop where
  sound : ∀ e ∈ es, e.counted → e.added
  samples : r.samples = es.filterMap Entry.sample
  totalBytes : r.totalBytes = UInt64.ofNat (frames (es.filter (fun e => e.added)))

/-- The two totals describe one and the same set of requests. -/
def Describes (r : BenchmarkResult) (es : Multiset Entry) : Prop :=
  r.totalRequests = Multiset.card (es.filter (fun e => e.counted)) ∧
    r.totalBytes.toNat = frames (es.filter (fun e => e.counted))

variable {r : BenchmarkResult} {es : Multiset Entry}

theorem card_filterMap_sample (es : Multiset Entry) :
    Multiset.card (es.filterMap Entry.sample) = Multiset.card (es.filter (fun e => e.counted)) := by
  induction es using Multiset.induction_on with
  | empty => rfl
  | cons e es ih =>
    cases hs : e.sample with
    | none =>
      have hc : ¬ e.counted := by simp [Entry.counted, hs]
      rw [Multiset.filterMap_cons_none _ _ hs, Multiset.filter_cons_of_neg (p := fun e : Entry => e.counted) _ hc, ih]
    | some x =>
      have hc : e.counted := by simp [Entry.counted, hs]
      rw [Multiset.filterMap_cons_some _ _ _ hs, Multiset.filter_cons_of_pos (p := fun e : Entry => e.counted) _ hc,
        Multiset.card_cons, Multiset.card_cons, ih]

theorem frames_added_coe {es : List Entry} (h : ∀ e ∈ es, e.added) :
    frames ((es : Multiset Entry).filter (fun e => e.added)) = (es.map Entry.frame).sum := by
  rw [Multiset.filter_coe, List.filter_eq_self.mpr (fun e he => decide_eq_true (h e he)), frames, Multiset.map_coe,
    Multiset.sum_coe]

theorem frames_add (es fs : Multiset Entry) : frames (es + fs) = frames es + frames fs := by
  rw [frames, Multiset.map_add, Multiset.sum_add, frames, frames]

theorem Books.frames_added (h : Books r es) : frames (es.filter (fun e => e.added)) =
    frames (es.filter (fun e => e.counted)) + frames (es.filter (fun e => e.uncounted)) := by
  rw [← frames_add, ← Multiset.filter_add_not (fun e : Entry => e.counted = true) (es.filter (fun e => e.added)),
    Multiset.filter_filter, Multiset.filter_filter]
  congr 2
  · apply Multiset.filter_congr
    intro e he
    exact and_iff_left_of_imp (h.sound e he)
  · apply Multiset.filter_congr
    intro e _
    simp [Entry.uncounted, and_comm]

theorem frames_pos {es : Multiset Entry} (hne : es ≠ 0) : 0 < frames es := by
  obtain ⟨e, he⟩ := Multiset.exists_mem_of_ne_zero hne
  have hle := Multiset.single_le_sum (fun _ _ => Nat.zero_le _) _ (Multiset.mem_map_of_mem Entry.frame he)
  have hpos : 0 < e.frame := by
    rw [Entry.frame, headerSize]
    omega
  exact hpos.trans_le hle

/-- The uncounted requests go unnoticed exactly when their frames add up to a
multiple of the word size. -/
theorem Books.describes_iff (h : Books r es) : Describes r es ↔
    frames (es.filter (fun e => e.counted)) < 2 ^ 64 ∧ 2 ^ 64 ∣ frames (es.filter (fun e => e.uncounted)) := by
  have hbytes : r.totalBytes.toNat = (frames (es.filter (fun e => e.counted)) +
      frames (es.filter (fun e => e.uncounted))) % 2 ^ 64 := by
    rw [h.totalBytes, h.frames_added, UInt64.toNat_ofNat']
  have hreq : r.totalRequests = Multiset.card (es.filter (fun e => e.counted)) := by
    rw [BenchmarkResult.totalRequests, h.samples, card_filterMap_sample]
  rw [Describes, and_iff_right hreq, hbytes]
  omega

theorem Books.describes_iff_of_lt (h : Books r es) (hlt : frames (es.filter (fun e => e.added)) < 2 ^ 64) :
    Describes r es ↔ ∀ e ∈ es, e.added → e.counted := by
  rw [h.describes_iff]
  have hsum := h.frames_added
  constructor
  · rintro ⟨-, hdvd⟩
    have hzero : frames (es.filter (fun e => e.uncounted)) = 0 := Nat.eq_zero_of_dvd_of_lt hdvd (by omega)
    intro e he hadd
    by_contra hc
    have hmem : e ∈ es.filter (fun e => e.uncounted) :=
      Multiset.mem_filter.mpr ⟨he, by simp [Entry.uncounted, hadd, hc]⟩
    have hne : es.filter (fun e => e.uncounted) ≠ 0 := by
      intro hz
      rw [hz] at hmem
      exact Multiset.notMem_zero e hmem
    have hpos := frames_pos hne
    omega
  · intro hall
    have hnone : es.filter (fun e => e.uncounted) = 0 := by
      rw [Multiset.filter_eq_nil]
      intro e he hu
      obtain ⟨hadd, hc⟩ := Bool.and_eq_true_iff.mp hu
      rw [hall e he hadd] at hc
      cases hc
    rw [hnone]
    exact ⟨by omega, dvd_zero _⟩

def sampled : Multiset Entry →+ Multiset UInt64 where
  toFun := Multiset.filterMap Entry.sample
  map_zero' := Multiset.filterMap_zero _
  map_add' := Multiset.filterMap_add _

def framesAdded : Multiset Entry →+ Nat where
  toFun es := frames (es.filter (fun e => e.added))
  map_zero' := rfl
  map_add' es fs := by rw [Multiset.filter_add, frames_add]

theorem books_of_workers {P : Nat} {samples : Fin P → Multiset UInt64} {totalBytes : UInt64}
    {es : Fin P → Multiset Entry} (hsound : ∀ j, ∀ e ∈ es j, e.counted → e.added)
    (hsamples : ∀ j, samples j = (es j).filterMap Entry.sample)
    (hbytes : totalBytes = UInt64.ofNat (∑ j, frames ((es j).filter (fun e => e.added)))) :
    Books ⟨∑ j, samples j, totalBytes⟩ (∑ j, es j) where
  sound := by
    intro e he
    obtain ⟨j, -, hj⟩ := Multiset.mem_sum.mp he
    exact hsound j e hj
  samples := by
    change ∑ j, samples j = sampled (∑ j, es j)
    rw [map_sum]
    exact Finset.sum_congr rfl (fun j _ => hsamples j)
  totalBytes := by
    change totalBytes = UInt64.ofNat (framesAdded (∑ j, es j))
    rw [map_sum]
    exact hbytes

end DcBench.Accounts
