import DcBench.LatencyHistogram
import DcBench.Workload
import DcBench.Lib.Percentile
import DcBench.Lib.PythonData

namespace DcBench.PercentileOrder

open DcBench.Lib DcBench.LatencyHistogram

variable {h : Histogram} {values : List UInt64}

theorem minVal_read (hh : Holds h values) (hne : values ≠ []) :
    ∃ hk : 0 < (OrderStatistic.sort values).length, (minVal h).2 = (OrderStatistic.sort values)[0] := by
  have hk : 0 < (OrderStatistic.sort values).length := by
    rw [OrderStatistic.length_sort]
    exact List.length_pos_iff.mpr hne
  refine ⟨hk, ?_⟩
  rw [minVal, readSorted_eq hh, if_neg hne, List.headD_eq_head?_getD, List.head?_eq_getElem?,
    List.getElem?_eq_getElem hk, Option.getD_some]

theorem maxVal_read (hh : Holds h values) (hne : values ≠ []) :
    ∃ hk : values.length - 1 < (OrderStatistic.sort values).length,
      (maxVal h).2 = (OrderStatistic.sort values)[values.length - 1] := by
  have hk : values.length - 1 < (OrderStatistic.sort values).length := by
    rw [OrderStatistic.length_sort]
    exact Nat.sub_one_lt_of_lt (List.length_pos_iff.mpr hne)
  refine ⟨hk, ?_⟩
  rw [maxVal, readSorted_eq hh, if_neg hne, List.getLastD_eq_getLast?, List.getLast?_eq_getElem?,
    OrderStatistic.length_sort, List.getElem?_eq_getElem hk, Option.getD_some]

theorem percentileIndex_mono {p q : ℚ} (hp : 0 < p) (hpq : p ≤ q) (hq : q ≤ 100) {n : Nat} (hn : 0 < n) :
    percentileIndex p n ≤ percentileIndex q n := by
  have hlast := (percentileIndex_lt_iff (hp.trans_le hpq) hq hn (percentileIndex q n + 1)).mp (Nat.lt_succ_self _)
  have hn' : (0 : ℚ) ≤ n := Nat.cast_nonneg n
  apply Nat.le_of_lt_succ
  rw [percentileIndex_lt_iff hp (hpq.trans hq) hn]
  calc p / 100 * n ≤ q / 100 * n := mul_le_mul_of_nonneg_right (by linarith) hn'
    _ ≤ (percentileIndex q n + 1 : Nat) := hlast

theorem percentileIndex_hundred {n : Nat} (hn : 0 < n) : percentileIndex 100 n = n - 1 := by
  have hlt := percentileIndex_lt 100 hn
  have hge : ¬ percentileIndex 100 n < n - 1 := by
    rw [percentileIndex_lt_iff (by norm_num) le_rfl hn, div_self (by norm_num), one_mul, Nat.cast_le]
    omega
  omega

/-- The rank `0` wraps around, and the clamp makes it the last index. -/
theorem percentileIndex_zero {n : Nat} (hn : n < 2 ^ 64) : percentileIndex 0 n = n - 1 := by
  have hrank : ⌈(0 : ℚ) / 100 * n⌉.toNat = 0 := by rw [zero_div, zero_mul, Int.ceil_zero, Int.toNat_zero]
  simp only [percentileIndex, hrank, if_true]
  omega

/-- The answers at the percentages `p` and `q` are in order, from the least to
the greatest sample. -/
structure Ordered (h : Histogram) (p q : ℚ) : Prop where
  mono : (percentile h p).2 ≤ (percentile h q).2
  lower : (minVal h).2 ≤ (percentile h p).2
  top : (percentile h 100).2 = (maxVal h).2
  bottom : p = 0 → (percentile h p).2 = (minVal h).2

theorem minVal_le_percentile (hh : Holds h values) (hne : values ≠ []) (p : ℚ) :
    (minVal h).2 ≤ (percentile h p).2 := by
  obtain ⟨hk, hread⟩ := percentile_read hh hne p
  obtain ⟨hmin, hread'⟩ := minVal_read hh hne
  rw [hread, hread']
  exact OrderStatistic.sort_getElem_mono values (Nat.zero_le _) hk

theorem ordered_of_pos (hh : Holds h values) (hne : values ≠ []) {p q : ℚ} (hp : 0 < p) (hpq : p ≤ q) (hq : q ≤ 100) :
    Ordered h p q := by
  have hn : 0 < values.length := List.length_pos_iff.mpr hne
  obtain ⟨hp₁, hread₁⟩ := percentile_read hh hne p
  obtain ⟨hp₂, hread₂⟩ := percentile_read hh hne q
  obtain ⟨hp₃, hread₃⟩ := percentile_read hh hne 100
  obtain ⟨hmax, hread₄⟩ := maxVal_read hh hne
  refine ⟨?_, minVal_le_percentile hh hne p, ?_, fun h0 => absurd h0 hp.ne'⟩
  · rw [hread₁, hread₂]
    exact OrderStatistic.sort_getElem_mono values (percentileIndex_mono hp hpq hq hn) hp₂
  · rw [hread₃, hread₄]
    simp only [percentileIndex_hundred hn]

theorem percentile_zero (hh : Holds h values) (hne : values ≠ []) (hsize : values.length < 2 ^ 64) :
    (percentile h 0).2 = (maxVal h).2 := by
  obtain ⟨hk, hread⟩ := percentile_read hh hne 0
  obtain ⟨hmax, hread'⟩ := maxVal_read hh hne
  rw [hread, hread']
  simp only [percentileIndex_zero hsize]

theorem max_eq_min_iff (hh : Holds h values) (hne : values ≠ []) :
    (maxVal h).2 = (minVal h).2 ↔ ∀ x ∈ values, ∀ y ∈ values, x = y := by
  obtain ⟨hmin, hread⟩ := minVal_read hh hne
  obtain ⟨hmax, hread'⟩ := maxVal_read hh hne
  have hmem {k : Nat} (hk : k < (OrderStatistic.sort values).length) : (OrderStatistic.sort values)[k] ∈ values :=
    (OrderStatistic.sort_perm values).mem_iff.mp (List.getElem_mem hk)
  rw [hread, hread']
  constructor
  · intro heq
    -- every sample lies between the first and the last one
    have hall : ∀ x ∈ values, x = (OrderStatistic.sort values)[0] := by
      intro x hx
      obtain ⟨k, hk, rfl⟩ := List.getElem_of_mem ((OrderStatistic.sort_perm values).mem_iff.mpr hx)
      have hle : k ≤ values.length - 1 := by
        rw [OrderStatistic.length_sort] at hk
        omega
      apply le_antisymm
      · rw [← heq]
        exact OrderStatistic.sort_getElem_mono values hle hmax
      · exact OrderStatistic.sort_getElem_mono values (Nat.zero_le k) hk
    intro x hx y hy
    rw [hall x hx, hall y hy]
  · intro hall
    exact hall _ (hmem hmax) _ (hmem hmin)

/-- The percentiles are in order from the least percentage above `0` on. At `0`
the rank wraps around, so there they are in order only when all samples are
equal. -/
theorem ordered_iff_pos_or_constant (ops : List Op) (hne : added ops ≠ []) (hsize : (added ops).length < 2 ^ 64)
    {p q : ℚ} (hp : 0 ≤ p) (hpq : p ≤ q) (hq : q ≤ 100) :
    Ordered (run ops) p q ↔ 0 < p ∨ ∀ x ∈ added ops, ∀ y ∈ added ops, x = y := by
  have hh := holds_run ops
  have hfull : Ordered (run ops) 100 100 := ordered_of_pos hh hne (by norm_num) le_rfl le_rfl
  obtain hp | rfl := hp.lt_or_eq
  · exact iff_of_true (ordered_of_pos hh hne hp hpq hq) (.inl hp)
  · have hzero := percentile_zero hh hne hsize
    have hiff := max_eq_min_iff hh hne
    constructor
    · intro hord
      exact .inr (hiff.mp (hzero.symm.trans (hord.bottom rfl)))
    · rintro (hpos | hconst)
      · exact absurd hpos (lt_irrefl 0)
      · have hbottom : (percentile (run ops) 0).2 = (minVal (run ops)).2 := hzero.trans (hiff.mpr hconst)
        exact ⟨hbottom ▸ minVal_le_percentile hh hne q, hbottom.ge, hfull.top, fun _ => hbottom⟩

theorem ordered_three : Ordered (run [.addSamples [30, 10, 20]]) 50 95 :=
  (ordered_iff_pos_or_constant [.addSamples [30, 10, 20]] (by decide) (by decide) (by norm_num) (by norm_num)
    (by norm_num)).mpr (.inl (by norm_num))

/-- Of two samples the percentile at `0` is the larger one. -/
theorem percentile_zero_not_ordered :
    (percentile (run [.addSamples [1, 2]]) 0).2 = 2 ∧ (percentile (run [.addSamples [1, 2]]) 50).2 = 1 ∧
      (minVal (run [.addSamples [1, 2]])).2 = 1 ∧ ¬ Ordered (run [.addSamples [1, 2]]) 0 50 := by
  have h0 : (percentile (run [.addSamples [1, 2]]) 0).2 = 2 := by decide +kernel
  have h50 : (percentile (run [.addSamples [1, 2]]) 50).2 = 1 := by decide +kernel
  refine ⟨h0, h50, by decide +kernel, ?_⟩
  intro hord
  have hle := hord.mono
  rw [h0, h50] at hle
  exact absurd hle (by decide)

/-- `pct` of `plot_stress.py`, whose `int` drops the fractional part. -/
def PlotStress.pct {α : Type} (arr : List α) (p : ℚ) : Option α :=
  PythonData.index arr (min (Workload.truncate (arr.length * p)) (arr.length - 1))

theorem pct_eq {α : Type} {arr : List α} (hne : arr ≠ []) {x : ℚ} (h₀ : 0 ≤ x) :
    PlotStress.pct arr x = arr[min ⌊arr.length * x⌋.toNat (arr.length - 1)]? := by
  have hn : 0 < arr.length := List.length_pos_iff.mpr hne
  have hpos : (0 : ℚ) ≤ arr.length * x := mul_nonneg (Nat.cast_nonneg _) h₀
  have hidx : min (Workload.truncate (arr.length * x)) ((arr.length : Int) - 1) =
      (min ⌊arr.length * x⌋.toNat (arr.length - 1) : Nat) := by
    have hfloor : 0 ≤ ⌊arr.length * x⌋ := Int.floor_nonneg.mpr hpos
    rw [Workload.truncate, if_pos hpos]
    omega
  rw [PlotStress.pct, hidx, PythonData.index, if_pos (Int.natCast_nonneg _), Int.toNat_natCast]

/-- The rational position `n * x` lies above the index of the histogram, by one
at most. -/
theorem percentileIndex_lt_mul {x : ℚ} (h₀ : 0 < x) (h₁ : x ≤ 1) {n : Nat} (hn : 0 < n) :
    (percentileIndex (100 * x) n : ℚ) < n * x ∧ n * x ≤ percentileIndex (100 * x) n + 1 := by
  have hiff := percentileIndex_lt_iff (p := 100 * x) (by linarith) (by linarith) hn
  have hx : 100 * x / 100 * n = n * x := by ring
  rw [hx] at hiff
  constructor
  · by_contra hle
    exact lt_irrefl _ ((hiff _).mpr (not_lt.mp hle))
  · have hlast := (hiff (percentileIndex (100 * x) n + 1)).mp (Nat.lt_succ_self _)
    exact_mod_cast hlast

theorem floor_mul_eq {i n : Nat} {x : ℚ} (hlt : (i : ℚ) < n * x) (hle : n * x ≤ i + 1) :
    ⌊n * x⌋.toNat = i ∨ ⌊n * x⌋.toNat = i + 1 := by
  have hge : (i : Int) ≤ ⌊n * x⌋ := Int.le_floor.mpr (by exact_mod_cast hlt.le)
  have hup : ⌊n * x⌋ < (i : Int) + 2 := Int.floor_lt.mpr (by push_cast; linarith)
  omega

theorem floor_position_near {i n : Nat} {x : ℚ} (h₀ : 0 < x) (h₁ : x ≤ 1) (hlt : (i : ℚ) < n * x)
    (hle : n * x ≤ i + 1) :
    i ≤ ⌊Percentile.position n (100 * x)⌋.toNat + 1 ∧ ⌊Percentile.position n (100 * x)⌋.toNat ≤ i := by
  have hpos : Percentile.position n (100 * x) = n * x - x := by
    rw [Percentile.position]
    ring
  have hge : (i : Int) - 1 ≤ ⌊n * x - x⌋ := Int.le_floor.mpr (by push_cast; linarith)
  have hup : ⌊n * x - x⌋ < (i : Int) + 1 := Int.floor_lt.mpr (by push_cast; linarith)
  rw [hpos]
  omega

/-- The percentiles of the histogram, of `plot_stress.py` and of `analyze.py`
are at most one order statistic apart. -/
theorem percentiles_within_one {K : Type} [Field K] [LinearOrder K] [IsStrictOrderedRing K] (xs : List K)
    (hne : xs ≠ []) {x : ℚ} (h₀ : 0 < x) (h₁ : x ≤ 1) :
    ∃ below read above v,
      (OrderStatistic.sort xs)[percentileIndex (100 * x) xs.length - 1]? = some below ∧
      (OrderStatistic.sort xs)[percentileIndex (100 * x) xs.length]? = some read ∧
      (OrderStatistic.sort xs)[min (percentileIndex (100 * x) xs.length + 1) (xs.length - 1)]? = some above ∧
      (PlotStress.pct (OrderStatistic.sort xs) x = some read ∨
        PlotStress.pct (OrderStatistic.sort xs) x = some above) ∧
      Percentile.percentile (OrderStatistic.sort xs) (100 * x) = some v ∧ below ≤ v ∧ v ≤ above := by
  have hn : 0 < xs.length := List.length_pos_iff.mpr hne
  have hlen := OrderStatistic.length_sort xs
  have hi : percentileIndex (100 * x) xs.length < xs.length := percentileIndex_lt _ hn
  obtain ⟨hlt, hle⟩ := percentileIndex_lt_mul h₀ h₁ hn
  generalize percentileIndex (100 * x) xs.length = i at hi hlt hle
  have hbelow : i - 1 < (OrderStatistic.sort xs).length := by omega
  have hread : i < (OrderStatistic.sort xs).length := by omega
  have habove : min (i + 1) (xs.length - 1) < (OrderStatistic.sort xs).length := by omega
  have hpct : PlotStress.pct (OrderStatistic.sort xs) x =
      (OrderStatistic.sort xs)[min ⌊xs.length * x⌋.toNat (xs.length - 1)]? := by
    rw [pct_eq (List.length_pos_iff.mp (by omega)) h₀.le, hlen]
  obtain ⟨a, b, ha, hb, v, hav, hbv, hv, hlo, hhi⟩ := Percentile.percentile_between hne (p := 100 * x) (by linarith)
  obtain ⟨hnear, hnear'⟩ := floor_position_near h₀ h₁ hlt hle
  rw [← hav] at hnear hnear'
  refine ⟨_, _, _, v, List.getElem?_eq_getElem hbelow, List.getElem?_eq_getElem hread,
    List.getElem?_eq_getElem habove, ?_, ?_, ?_, ?_⟩
  · obtain hfloor | hfloor := floor_mul_eq hlt hle
    · rw [hpct, hfloor, min_eq_left (by omega)]
      exact .inl (List.getElem?_eq_getElem hread)
    · rw [hpct, hfloor]
      exact .inr (List.getElem?_eq_getElem habove)
  · rw [Percentile.percentile_congr (OrderStatistic.sort_perm xs), hv]
  · exact (OrderStatistic.sort_getElem_mono xs (by omega) ha).trans hlo
  · exact hhi.trans (OrderStatistic.sort_getElem_mono xs (by omega) habove)

/-- At the median of four samples all three differ. -/
theorem percentiles_within_one_median :
    percentileIndex (100 * (1 / 2)) 4 = 1 ∧ PlotStress.pct ([1, 2, 4, 8] : List ℚ) (1 / 2) = some 4 ∧
      ∃ v : ℚ, Percentile.percentile (OrderStatistic.sort [8, 1, 4, 2]) (100 * (1 / 2)) = some v ∧ 1 ≤ v ∧ v ≤ 4 := by
  refine ⟨by decide +kernel, by decide +kernel, ?_⟩
  obtain ⟨below, read, above, v, hbelow, -, habove, -, hv, hlo, hhi⟩ :=
    percentiles_within_one ([8, 1, 4, 2] : List ℚ) (by decide) (x := 1 / 2) (by norm_num) (by norm_num)
  have hb : (OrderStatistic.sort ([8, 1, 4, 2] : List ℚ))[percentileIndex (100 * (1 / 2)) 4 - 1]? = some 1 := by
    decide +kernel
  have ha : (OrderStatistic.sort ([8, 1, 4, 2] : List ℚ))[min (percentileIndex (100 * (1 / 2)) 4 + 1) 3]? = some 4 := by
    decide +kernel
  obtain rfl : 1 = below := Option.some.inj (hb.symm.trans hbelow)
  obtain rfl : 4 = above := Option.some.inj (ha.symm.trans habove)
  exact ⟨v, hv, hlo, hhi⟩

end DcBench.PercentileOrder
