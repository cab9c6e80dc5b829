import DcBench.WorkloadGenerator
import Mathlib.Analysis.SpecialFunctions.Pow.Real

namespace DcBench.ParetoSizes

open DcBench.WorkloadGenerator

variable {G : Type} {lib : Library ℝ G} {cfg : GeneratorConfig ℝ} {g : G}

/-- The library with exact arithmetic. The cast to `uint32_t` drops the fraction of
a value that has a 32-bit result, and is undefined for any other. -/
structure RealArithmetic (lib : Library ℝ G) : Prop where
  literal : ∀ q, lib.literal q = q
  ofUInt32 : ∀ n, lib.ofUInt32 n = n.toNat
  toUInt32 : ∀ x, 0 ≤ x → x < 2 ^ 32 → (lib.toUInt32 x).toNat = ⌊x⌋₊
  sub : ∀ x y, lib.sub x y = x - y
  div : ∀ x y, lib.div x y = x / y
  pow : ∀ x y, lib.pow x y = x ^ y
  uniformReal : ∀ a b g, a < b → a ≤ (lib.uniformReal a b g).1 ∧ (lib.uniformReal a b g).1 < b

def sample (lib : Library ℝ G) (g : G) : ℝ := (lib.uniformReal (lib.literal 0) (lib.literal 1) g).1

noncomputable def value (cfg : GeneratorConfig ℝ) (u : ℝ) : ℝ :=
  cfg.paretoScale.toNat / (1 - u) ^ (1 / cfg.paretoShape)

/-- The size is computed without overflow: it is the floor of the value, cut at
the maximum, grows with the draw and is not below the scale. -/
structure Exact (lib : Library ℝ G) (cfg : GeneratorConfig ℝ) (g : G) : Prop where
  representable : value cfg (sample lib g) < 2 ^ 32
  size : (generatePareto lib cfg g).1.toNat = min ⌊value cfg (sample lib g)⌋₊ cfg.paretoMax.toNat
  monotone : ∀ g', sample lib g' ≤ sample lib g →
    (generatePareto lib cfg g').1 ≤ (generatePareto lib cfg g).1
  lower : min cfg.paretoScale cfg.paretoMax ≤ (generatePareto lib cfg g).1

theorem sample_mem (hlib : RealArithmetic lib) (g : G) : 0 ≤ sample lib g ∧ sample lib g < 1 := by
  have hmem := hlib.uniformReal 0 1 g zero_lt_one
  rwa [sample, hlib.literal, hlib.literal, Rat.cast_zero, Rat.cast_one]

theorem generatePareto_eq (hlib : RealArithmetic lib) :
    (generatePareto lib cfg g).1 = min (lib.toUInt32 (value cfg (sample lib g))) cfg.paretoMax := by
  simp only [generatePareto, value, sample, hlib.literal, hlib.ofUInt32, hlib.sub, hlib.div, hlib.pow, Rat.cast_one]

theorem value_nonneg {u : ℝ} (hu : u < 1) : 0 ≤ value cfg u := by
  have hpos : 0 < 1 - u := sub_pos.mpr hu
  exact div_nonneg (Nat.cast_nonneg _) (Real.rpow_nonneg hpos.le _)

theorem value_mono (hshape : 0 < cfg.paretoShape) {u v : ℝ} (huv : u ≤ v) (hv : v < 1) :
    value cfg u ≤ value cfg v := by
  have hpos : 0 < (1 - v) ^ (1 / cfg.paretoShape) := Real.rpow_pos_of_pos (sub_pos.mpr hv) _
  have hexp : 0 ≤ 1 / cfg.paretoShape := by positivity
  have hle : (1 - v) ^ (1 / cfg.paretoShape) ≤ (1 - u) ^ (1 / cfg.paretoShape) :=
    Real.rpow_le_rpow (sub_nonneg.mpr hv.le) (sub_le_sub_left huv 1) hexp
  exact div_le_div_of_nonneg_left (Nat.cast_nonneg _) hpos hle

theorem value_zero : value cfg 0 = cfg.paretoScale.toNat := by
  rw [value, sub_zero, Real.one_rpow, div_one]

theorem value_lt_iff (hshape : 0 < cfg.paretoShape) {u : ℝ} (hu : u < 1) :
    value cfg u < 2 ^ 32 ↔ (cfg.paretoScale.toNat / 2 ^ 32 : ℝ) ^ cfg.paretoShape < 1 - u := by
  have hpos : 0 < 1 - u := sub_pos.mpr hu
  rw [value, div_lt_comm₀ (Real.rpow_pos_of_pos hpos _) (by positivity), one_div]
  exact Real.lt_rpow_inv_iff_of_pos (by positivity) hpos.le hshape

theorem toNat_min (a b : UInt32) : (min a b).toNat = min a.toNat b.toNat := by
  change (if a ≤ b then a else b).toNat = _
  rw [min_def, apply_ite UInt32.toNat]
  simp only [UInt32.le_iff_toNat_le]

theorem toNat_generatePareto (hlib : RealArithmetic lib) (hrep : value cfg (sample lib g) < 2 ^ 32) :
    (generatePareto lib cfg g).1.toNat = min ⌊value cfg (sample lib g)⌋₊ cfg.paretoMax.toNat := by
  rw [generatePareto_eq hlib, toNat_min, hlib.toUInt32 _ (value_nonneg (sample_mem hlib g).2) hrep]

/-- The size is exact as long as the draw leaves the value within 32 bits. -/
theorem exact_iff_draw_small (hlib : RealArithmetic lib) (hshape : 0 < cfg.paretoShape) (g : G) :
    Exact lib cfg g ↔ (cfg.paretoScale.toNat / 2 ^ 32 : ℝ) ^ cfg.paretoShape < 1 - sample lib g := by
  obtain ⟨hlow, hhigh⟩ := sample_mem hlib g
  rw [← value_lt_iff hshape hhigh]
  constructor
  · intro h
    exact h.representable
  · intro hrep
    have hsize := toNat_generatePareto hlib hrep
    refine ⟨hrep, hsize, ?_, ?_⟩
    · intro g' hle
      have hmono := value_mono hshape hle hhigh
      rw [UInt32.le_iff_toNat_le, hsize, toNat_generatePareto hlib (hmono.trans_lt hrep)]
      exact min_le_min_right _ (Nat.floor_le_floor hmono)
    · have hscale : cfg.paretoScale.toNat ≤ ⌊value cfg (sample lib g)⌋₊ := by
        rw [Nat.le_floor_iff (value_nonneg hhigh), ← value_zero]
        exact value_mono hshape hlow hhigh
      rw [UInt32.le_iff_toNat_le, toNat_min, hsize]
      exact min_le_min_right _ hscale

/-- An exact library whose engine is its next draw. Like the conversion of most
machines its cast keeps the low 32 bits. -/
noncomputable def exactLibrary : Library ℝ (Set.Ico (0 : ℝ) 1) where
  literal q := q
  ofUInt32 n := n.toNat
  toUInt32 x := UInt32.ofNat ⌊x⌋₊
  value x := ⌊x⌋
  le x y := decide (x ≤ y)
  sub x y := x - y
  div x y := x / y
  pow x y := x ^ y
  engine _ := ⟨0, le_refl 0, one_pos⟩
  uniformInt a _ g := (a, g)
  uniformReal a b g := (a + (b - a) * g, g)
  bernoulli p g := (decide ((g : ℝ) < p), g)
  exponential rate g := (-Real.log (1 - g) / rate, g)

theorem realArithmetic_exactLibrary : RealArithmetic exactLibrary where
  literal _ := rfl
  ofUInt32 _ := rfl
  toUInt32 x h0 h := by
    have hlt : ⌊x⌋₊ < 2 ^ 32 := by
      rw [Nat.floor_lt h0]
      exact_mod_cast h
    exact Nat.mod_eq_of_lt hlt
  sub _ _ := rfl
  div _ _ := rfl
  pow _ _ := rfl
  uniformReal a b g hab := by
    obtain ⟨u, h0, h1⟩ := g
    have hpos : 0 < b - a := sub_pos.mpr hab
    change a ≤ a + (b - a) * u ∧ a + (b - a) * u < b
    have hmul : 0 ≤ (b - a) * u := mul_nonneg hpos.le h0
    have hlt : (b - a) * u < (b - a) * 1 := by gcongr
    constructor <;> linarith

theorem sample_exactLibrary (g : Set.Ico (0 : ℝ) 1) : sample exactLibrary g = g := by
  simp [sample, exactLibrary]

noncomputable def defaults : GeneratorConfig ℝ where
  warmupRequests := 1000
  numRequests := 100000
  distribution := .pareto
  fixedSize := 1024
  uniformMin := 64
  uniformMax := 65536
  bimodalSmall := 256
  bimodalLarge := 1048576
  bimodalSmallFraction := 9 / 10
  paretoShape := 3 / 2
  paretoScale := 256
  paretoMax := 2097152
  targetRps := 10000
  closedLoopConcurrency := 16

/-- The draw of the default parameters that asks for 2²⁸ bytes. -/
noncomputable def large : Set.Ico (0 : ℝ) 1 := ⟨1 - 1 / 2 ^ 30, by constructor <;> norm_num⟩

theorem exact_iff_draw_small_large : Exact exactLibrary defaults large := by
  rw [exact_iff_draw_small realArithmetic_exactLibrary (by norm_num [defaults]), sample_exactLibrary]
  change (((256 : ℕ) : ℝ) / 2 ^ 32) ^ (3 / 2 : ℝ) < 1 - (1 - 1 / 2 ^ 30)
  have hbase : ((256 : ℕ) : ℝ) / 2 ^ 32 = 2 ^ (-24 : ℝ) := by
    rw [Real.rpow_neg two_pos.le]
    norm_num
  have hpow : ((2 : ℝ) ^ (-24 : ℝ)) ^ (3 / 2 : ℝ) = 2 ^ (-36 : ℝ) := by
    rw [← Real.rpow_mul two_pos.le]
    norm_num
  rw [hbase, hpow, Real.rpow_neg two_pos.le]
  norm_num

theorem value_cubed {u : ℝ} (hu : u < 1) : value defaults u ^ 3 * (1 - u) ^ 2 = 256 ^ 3 := by
  have hpos : 0 < 1 - u := sub_pos.mpr hu
  have hroot : ((1 - u) ^ (1 / (3 / 2) : ℝ)) ^ 3 = (1 - u) ^ 2 := by
    rw [← Real.rpow_natCast, ← Real.rpow_mul hpos.le, ← Real.rpow_natCast]
    norm_num
  change (((256 : ℕ) : ℝ) / (1 - u) ^ (1 / (3 / 2) : ℝ)) ^ 3 * (1 - u) ^ 2 = 256 ^ 3
  rw [div_pow, hroot, div_mul_cancel₀ _ (pow_pos hpos 2).ne']
  norm_num

theorem floor_value {u : ℝ} (hu : u < 1) (n : ℕ) (hlow : (n : ℝ) ^ 3 * (1 - u) ^ 2 ≤ 256 ^ 3)
    (hhigh : 256 ^ 3 < ((n : ℝ) + 1) ^ 3 * (1 - u) ^ 2) : ⌊value defaults u⌋₊ = n := by
  have hsq : 0 < (1 - u) ^ 2 := pow_pos (sub_pos.mpr hu) 2
  have hnonneg : 0 ≤ value defaults u := value_nonneg hu
  rw [← value_cubed hu] at hlow hhigh
  rw [Nat.floor_eq_iff hnonneg]
  constructor
  · apply le_of_pow_le_pow_left₀ three_ne_zero hnonneg
    exact le_of_mul_le_mul_right hlow hsq
  · apply lt_of_pow_lt_pow_left₀ 3 (by positivity)
    exact lt_of_mul_lt_mul_right hhigh hsq.le

/-- A double just behind the draws with an exact size. -/
noncomputable def rare : Set.Ico (0 : ℝ) 1 := ⟨1 - (1 / 2 ^ 36 - 1 / 2 ^ 53), by constructor <;> norm_num⟩

/-- The draw asks for 2³² + 21845 bytes, to be cut at 2²¹; the cast makes 21845 of
them. -/
theorem rare_draw_overflows : ¬ Exact exactLibrary defaults rare ∧
    ⌊value defaults (sample exactLibrary rare)⌋₊ = 2 ^ 32 + 21845 ∧
    (generatePareto exactLibrary defaults rare).1 = 21845 := by
  have hsub : (1 : ℝ) - rare = 1 / 2 ^ 36 - 1 / 2 ^ 53 := sub_sub_cancel _ _
  have hfloor : ⌊value defaults (sample exactLibrary rare)⌋₊ = 2 ^ 32 + 21845 := by
    rw [sample_exactLibrary]
    apply floor_value rare.2.2
    · rw [hsub]
      norm_num
    · rw [hsub]
      norm_num
  refine ⟨?_, hfloor, ?_⟩
  · intro h
    have hlt := (Nat.floor_lt (value_nonneg (sample_mem realArithmetic_exactLibrary rare).2)).mpr
      (show _ < ((2 ^ 32 : ℕ) : ℝ) by exact_mod_cast h.representable)
    rw [hfloor] at hlt
    omega
  · rw [generatePareto_eq realArithmetic_exactLibrary]
    change min (UInt32.ofNat ⌊value defaults (sample exactLibrary rare)⌋₊) 2097152 = 21845
    rw [hfloor]
    decide

end DcBench.ParetoSizes
