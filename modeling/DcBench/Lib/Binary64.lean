import Mathlib.Data.Int.Log
import Mathlib.Data.Rat.Floor
import Mathlib.Tactic.Linarith
import Mathlib.Tactic.Positivity

namespace DcBench.Lib.Binary64

/-- The nearest integer, the even one of two that are equally near. -/
def halfEven (x : ℚ) : Int :=
  if Int.fract x < 1 / 2 then ⌊x⌋
  else if 1 / 2 < Int.fract x then ⌊x⌋ + 1
  else if ⌊x⌋ % 2 = 0 then ⌊x⌋
  else ⌊x⌋ + 1

theorem halfEven_intCast (n : Int) : halfEven n = n := by
  rw [halfEven, Int.fract_intCast, if_pos (by norm_num), Int.floor_intCast]

theorem floor_le_halfEven (x : ℚ) : ⌊x⌋ ≤ halfEven x := by
  rw [halfEven]
  split_ifs <;> omega

theorem halfEven_le_floor_add_one (x : ℚ) : halfEven x ≤ ⌊x⌋ + 1 := by
  rw [halfEven]
  split_ifs <;> omega

theorem abs_halfEven_sub_le (x : ℚ) : |(halfEven x : ℚ) - x| ≤ 1 / 2 := by
  have hx : (⌊x⌋ : ℚ) + Int.fract x = x := Int.floor_add_fract x
  have h₀ := Int.fract_nonneg x
  have h₁ := Int.fract_lt_one x
  rw [halfEven, abs_le]
  split_ifs <;> push_cast <;> constructor <;> linarith

theorem abs_halfEven_sub_le_abs_sub (x : ℚ) (n : Int) : |(halfEven x : ℚ) - x| ≤ |(n : ℚ) - x| := by
  have hx : (⌊x⌋ : ℚ) + Int.fract x = x := Int.floor_add_fract x
  obtain hn | hn := le_or_gt n ⌊x⌋
  · have hn' : (n : ℚ) ≤ ⌊x⌋ := by exact_mod_cast hn
    have h₀ := Int.fract_nonneg x
    rw [abs_of_nonpos (by linarith : (n : ℚ) - x ≤ 0), halfEven, abs_le]
    split_ifs <;> push_cast <;> constructor <;> linarith
  · have hn' : (⌊x⌋ : ℚ) + 1 ≤ n := by exact_mod_cast hn
    have h₁ := Int.fract_lt_one x
    rw [abs_of_nonneg (by linarith : 0 ≤ (n : ℚ) - x), halfEven, abs_le]
    split_ifs <;> push_cast <;> constructor <;> linarith

theorem halfEven_mono {x y : ℚ} (h : x ≤ y) : halfEven x ≤ halfEven y := by
  obtain hlt | heq := (Int.floor_le_floor h).lt_or_eq
  · have hx := halfEven_le_floor_add_one x
    have hy := floor_le_halfEven y
    omega
  · have hfract : Int.fract x ≤ Int.fract y := by
      rw [Int.fract, Int.fract, heq]
      linarith
    rw [halfEven, halfEven, heq]
    split_ifs <;> first | omega | linarith

theorem halfEven_nonneg {x : ℚ} (h : 0 ≤ x) : 0 ≤ halfEven x := by
  have hmono := halfEven_mono h
  rwa [← Int.cast_zero, halfEven_intCast] at hmono

/-- The unit in the last place of a positive number, with 53 significant bits. -/
def ulp (x : ℚ) : ℚ := 2 ^ (Int.log 2 x - 52)

theorem ulp_pos (x : ℚ) : 0 < ulp x := zpow_pos (by norm_num) _

/-- The double nearest to a number that is not negative, ties to even. There is
no bound on the exponent. -/
def round (x : ℚ) : ℚ := if x = 0 then 0 else halfEven (x / ulp x) * ulp x

@[simp] theorem round_zero : round 0 = 0 := rfl

theorem round_eq {x : ℚ} (hx : x ≠ 0) : round x = halfEven (x / ulp x) * ulp x := if_neg hx

theorem abs_round_sub_le {x : ℚ} (hx : x ≠ 0) : |round x - x| ≤ ulp x / 2 := by
  have hu := ulp_pos x
  have hcancel : x / ulp x * ulp x = x := div_mul_cancel₀ x hu.ne'
  calc |round x - x| = |((halfEven (x / ulp x) : ℚ) - x / ulp x) * ulp x| := by
        rw [round_eq hx, sub_mul, hcancel]
    _ = |(halfEven (x / ulp x) : ℚ) - x / ulp x| * ulp x := by rw [abs_mul, abs_of_pos hu]
    _ ≤ 1 / 2 * ulp x := mul_le_mul_of_nonneg_right (abs_halfEven_sub_le _) hu.le
    _ = ulp x / 2 := by ring

/-- A multiple of its own last place is a double. -/
theorem round_of_multiple {x : ℚ} (n : Int) (h : x = n * ulp x) : round x = x := by
  by_cases hx : x = 0
  · rw [hx, round_zero]
  · have hdiv : x / ulp x = n := by
      nth_rewrite 1 [h]
      exact mul_div_cancel_right₀ _ (ulp_pos x).ne'
    rw [round_eq hx, hdiv, halfEven_intCast, ← h]

theorem round_natCast {n : Nat} (h : n ≤ 2 ^ 53) : round n = n := by
  obtain hlt | rfl := h.lt_or_eq
  · by_cases hn : n = 0
    · simp [hn]
    · have hlog : Nat.log 2 n < 53 := Nat.log_lt_of_lt_pow hn hlt
      apply round_of_multiple ((n : Int) * 2 ^ (52 - Nat.log 2 n))
      have hpow : ((2 : ℚ) ^ (52 - Nat.log 2 n)) * 2 ^ ((Nat.log 2 n : Int) - 52) = 1 := by
        rw [← zpow_natCast, ← zpow_add₀ (by norm_num), Nat.cast_sub (by omega)]
        norm_num
      rw [ulp, Int.log_natCast]
      push_cast
      rw [mul_assoc, hpow, mul_one]
  · have hlog : Nat.log 2 (2 ^ 53) = 53 := Nat.log_pow (by norm_num) 53
    apply round_of_multiple (2 ^ 52)
    rw [ulp, Int.log_natCast, hlog]
    norm_num

theorem zpow_log_le {x : ℚ} (hx : 0 < x) : (2 : ℚ) ^ Int.log 2 x ≤ x := Int.zpow_log_le_self one_lt_two hx

theorem lt_zpow_log (x : ℚ) : x < (2 : ℚ) ^ (Int.log 2 x + 1) := Int.lt_zpow_succ_log_self one_lt_two x

theorem zpow_log_eq (x : ℚ) : (2 : ℚ) ^ Int.log 2 x = (2 ^ 52 : Int) * ulp x := by
  rw [ulp, zpow_sub₀ (by norm_num)]
  push_cast
  ring

theorem zpow_log_succ_eq (x : ℚ) : (2 : ℚ) ^ (Int.log 2 x + 1) = (2 ^ 53 : Int) * ulp x := by
  rw [zpow_add₀ (by norm_num), zpow_log_eq]
  push_cast
  ring

theorem log_mul_zpow {x : ℚ} (hx : 0 < x) (k : Int) : Int.log 2 (x * 2 ^ k) = Int.log 2 x + k := by
  have hpow : (0 : ℚ) < 2 ^ k := zpow_pos (by norm_num) k
  have hlow : Int.log 2 x + k ≤ Int.log 2 (x * 2 ^ k) := by
    apply (Int.zpow_le_iff_le_log one_lt_two (mul_pos hx hpow)).mp
    push_cast
    rw [zpow_add₀ (by norm_num)]
    exact mul_le_mul_of_nonneg_right (zpow_log_le hx) hpow.le
  have hhigh : Int.log 2 (x * 2 ^ k) < Int.log 2 x + 1 + k := by
    apply (Int.lt_zpow_iff_log_lt one_lt_two (mul_pos hx hpow)).mp
    push_cast
    rw [zpow_add₀ (by norm_num)]
    exact mul_lt_mul_of_pos_right (lt_zpow_log x) hpow
  omega

theorem round_mul_zpow {x : ℚ} (hx : 0 < x) (k : Int) : round (x * 2 ^ k) = round x * 2 ^ k := by
  have hpow : (2 : ℚ) ^ k ≠ 0 := zpow_ne_zero k (by norm_num)
  have hulp : ulp (x * 2 ^ k) = ulp x * 2 ^ k := by
    rw [ulp, ulp, log_mul_zpow hx, ← zpow_add₀ (by norm_num)]
    congr 1
    ring
  rw [round_eq (mul_ne_zero hx.ne' hpow), round_eq hx.ne', hulp, mul_div_mul_right _ _ hpow, mul_assoc]

theorem abs_round_sub_le_of_lt {x : ℚ} (hx : 0 ≤ x) {e : Int} (h : x < (2 : ℚ) ^ (e + 1)) :
    |round x - x| ≤ (2 : ℚ) ^ (e - 53) := by
  obtain hpos | rfl := hx.lt_or_eq
  · have hlog : Int.log 2 x < e + 1 := (Int.lt_zpow_iff_log_lt one_lt_two hpos).mp h
    calc |round x - x| ≤ ulp x / 2 := abs_round_sub_le hpos.ne'
      _ = (2 : ℚ) ^ (Int.log 2 x - 52 - 1) := by rw [zpow_sub_one₀ (by norm_num), ulp, div_eq_mul_inv]
      _ ≤ (2 : ℚ) ^ (e - 53) := zpow_le_zpow_right₀ (by norm_num) (by omega)
  · rw [round_zero, sub_zero, abs_zero]
    exact (zpow_pos (by norm_num) _).le

theorem zpow_log_le_round {x : ℚ} (hx : 0 < x) : (2 : ℚ) ^ Int.log 2 x ≤ round x := by
  have hu := ulp_pos x
  have hle : ((2 ^ 52 : Int) : ℚ) ≤ x / ulp x := by
    rw [le_div_iff₀ hu, ← zpow_log_eq]
    exact zpow_log_le hx
  have hint := halfEven_mono hle
  rw [halfEven_intCast] at hint
  rw [round_eq hx.ne', zpow_log_eq]
  exact mul_le_mul_of_nonneg_right (by exact_mod_cast hint) hu.le

theorem round_le_zpow_log {x : ℚ} (hx : 0 < x) : round x ≤ (2 : ℚ) ^ (Int.log 2 x + 1) := by
  have hu := ulp_pos x
  have hle : x / ulp x ≤ ((2 ^ 53 : Int) : ℚ) := by
    rw [div_le_iff₀ hu, ← zpow_log_succ_eq]
    exact (lt_zpow_log x).le
  have hint := halfEven_mono hle
  rw [halfEven_intCast] at hint
  rw [round_eq hx.ne', zpow_log_succ_eq]
  exact mul_le_mul_of_nonneg_right (by exact_mod_cast hint) hu.le

theorem round_nonneg {x : ℚ} (hx : 0 ≤ x) : 0 ≤ round x := by
  obtain hpos | rfl := hx.lt_or_eq
  · exact (zpow_pos (by norm_num) _).le.trans (zpow_log_le_round hpos)
  · exact le_of_eq round_zero.symm

theorem round_mono {x y : ℚ} (hx : 0 ≤ x) (h : x ≤ y) : round x ≤ round y := by
  obtain hpos | rfl := hx.lt_or_eq
  · have hy := hpos.trans_le h
    obtain hlt | heq := (Int.log_mono_right (b := 2) hpos h).lt_or_eq
    · -- different binades: the end of the lower one lies between
      calc round x ≤ (2 : ℚ) ^ (Int.log 2 x + 1) := round_le_zpow_log hpos
        _ ≤ (2 : ℚ) ^ Int.log 2 y := zpow_le_zpow_right₀ (by norm_num) hlt
        _ ≤ round y := zpow_log_le_round hy
    · have hulp : ulp x = ulp y := by rw [ulp, ulp, heq]
      rw [round_eq hpos.ne', round_eq hy.ne', hulp]
      apply mul_le_mul_of_nonneg_right _ (ulp_pos y).le
      exact_mod_cast halfEven_mono (div_le_div_of_nonneg_right h (ulp_pos y).le)
  · rw [round_zero]
    exact round_nonneg h

theorem abs_round_sub_le_of_multiple {x : ℚ} (hx : 0 < x) (n : Int) : |round x - x| ≤ |n * ulp x - x| := by
  have hu := ulp_pos x
  have hcancel : x / ulp x * ulp x = x := div_mul_cancel₀ x hu.ne'
  calc |round x - x| = |(halfEven (x / ulp x) : ℚ) - x / ulp x| * ulp x := by
        rw [round_eq hx.ne', ← abs_of_pos hu, ← abs_mul, abs_of_pos hu, sub_mul, hcancel]
    _ ≤ |(n : ℚ) - x / ulp x| * ulp x := mul_le_mul_of_nonneg_right (abs_halfEven_sub_le_abs_sub _ n) hu.le
    _ = |n * ulp x - x| := by rw [← abs_of_pos hu, ← abs_mul, abs_of_pos hu, sub_mul, hcancel]

/-- No double is nearer than the one that rounding chooses. -/
theorem abs_round_sub_le_abs_round_sub {x y : ℚ} (hx : 0 ≤ x) (hy : 0 ≤ y) : |round x - x| ≤ |round y - x| := by
  obtain hpos | rfl := hx.lt_or_eq
  · have hlower : round y ≤ (2 : ℚ) ^ Int.log 2 x → |round x - x| ≤ |round y - x| := by
      intro hle
      have hx' := zpow_log_le hpos
      calc |round x - x| ≤ |((2 ^ 52 : Int) : ℚ) * ulp x - x| := abs_round_sub_le_of_multiple hpos _
        _ = x - (2 : ℚ) ^ Int.log 2 x := by
          rw [← zpow_log_eq, abs_of_nonpos (sub_nonpos.mpr hx'), neg_sub]
        _ ≤ x - round y := sub_le_sub_left hle x
        _ ≤ |round y - x| := by
          rw [abs_sub_comm]
          exact le_abs_self _
    obtain hypos | rfl := hy.lt_or_eq
    · obtain hlt | hge := lt_or_ge (Int.log 2 y) (Int.log 2 x)
      · apply hlower
        exact (round_le_zpow_log hypos).trans (zpow_le_zpow_right₀ (by norm_num) hlt)
      · -- the last place of `y` is a multiple of that of `x`
        obtain ⟨j, hj⟩ := Int.eq_ofNat_of_zero_le (sub_nonneg.mpr hge)
        have hulp : ulp y = ((2 ^ j : Int) : ℚ) * ulp x := by
          push_cast
          rw [ulp, ulp, ← zpow_natCast, ← zpow_add₀ (by norm_num), ← hj]
          congr 1
          ring
        rw [round_eq hypos.ne', hulp, ← mul_assoc, ← Int.cast_mul]
        exact abs_round_sub_le_of_multiple hpos _
    · apply hlower
      rw [round_zero]
      exact (zpow_pos (by norm_num) _).le
  · rw [round_zero, sub_zero, abs_zero]
    exact abs_nonneg _

/-- The nearest double of a number of either sign. -/
def nearest (x : ℚ) : ℚ := if x < 0 then -round (-x) else round x

theorem nearest_of_nonneg {x : ℚ} (h : 0 ≤ x) : nearest x = round x := if_neg h.not_gt

end DcBench.Lib.Binary64
