import DcBench.Lib.Numerals
import DcBench.Lib.OrderStatistic
import Mathlib.Data.Rat.Floor
import Mathlib.Data.Rat.Cast.Order
import Mathlib.Algebra.Order.Group.Abs
import Mathlib.Tactic.Linarith
import Mathlib.Tactic.Ring

namespace DcBench.Lib.Percentile

open DcBench.Lib

variable {α β K : Type} [Field K] [LinearOrder K]

/-- Where the percentile lies between the order statistics of `n` elements. -/
def position (n : Nat) (p : ℚ) : ℚ := (n - 1) * p / 100

/-- Linear interpolation between the two order statistics next to the position.
There is no percentile of the empty list. -/
def percentile (xs : List K) (p : ℚ) : Option K := do
  let s := OrderStatistic.sort xs
  let i := ⌊position s.length p⌋.toNat
  let a ← s[i]?
  let b ← s[min (i + 1) (s.length - 1)]?
  some (a + (Int.fract (position s.length p) : ℚ) * (b - a))

theorem percentile_congr {xs ys : List K} (h : xs.Perm ys) (p : ℚ) : percentile xs p = percentile ys p := by
  rw [percentile, percentile, OrderStatistic.sort_congr h]

theorem floor_position_lt {n : Nat} (hn : 0 < n) {p : ℚ} (hp : p ≤ 100) : ⌊position n p⌋.toNat < n := by
  have hn' : (1 : ℚ) ≤ n := by exact_mod_cast hn
  have hle : position n p ≤ ((n - 1 : Int) : ℚ) := by
    rw [position, div_le_iff₀ (by norm_num)]
    push_cast
    exact mul_le_mul_of_nonneg_left hp (by linarith)
  have hfloor : ⌊position n p⌋ ≤ (n : Int) - 1 := by
    rw [← Int.floor_intCast (R := ℚ) ((n : Int) - 1)]
    exact Int.floor_le_floor hle
  omega

theorem percentile_eq {xs : List K} (hne : xs ≠ []) {p : ℚ} (hp : p ≤ 100) :
    ∃ i j, ∃ (hi : i < (OrderStatistic.sort xs).length) (hj : j < (OrderStatistic.sort xs).length),
      i = ⌊position xs.length p⌋.toNat ∧ j = min (i + 1) (xs.length - 1) ∧
      percentile xs p = some ((OrderStatistic.sort xs)[i] +
        (Int.fract (position xs.length p) : ℚ) * ((OrderStatistic.sort xs)[j] - (OrderStatistic.sort xs)[i])) := by
  have hn : 0 < xs.length := List.length_pos_iff.mpr hne
  have hi : ⌊position xs.length p⌋.toNat < (OrderStatistic.sort xs).length := by
    rw [OrderStatistic.length_sort]
    exact floor_position_lt hn hp
  have hj : min (⌊position xs.length p⌋.toNat + 1) (xs.length - 1) < (OrderStatistic.sort xs).length := by
    rw [OrderStatistic.length_sort]
    omega
  refine ⟨_, _, hi, hj, rfl, rfl, ?_⟩
  simp only [percentile, OrderStatistic.length_sort, List.getElem?_eq_getElem hi, List.getElem?_eq_getElem hj]
  rfl

theorem isSome_percentile {xs : List K} (hne : xs ≠ []) {p : ℚ} (hp : p ≤ 100) : (percentile xs p).isSome := by
  obtain ⟨_, _, _, _, _, _, heq⟩ := percentile_eq hne hp
  rw [heq]
  rfl

theorem countP_le_of_forall₂ {R : α → β → Prop} {P : α → Bool} {Q : β → Bool}
    (hR : ∀ x y, R x y → Q y → P x) {xs : List α} {ys : List β} (h : List.Forall₂ R xs ys) :
    ys.countP Q ≤ xs.countP P := by
  induction h with
  | nil => rfl
  | cons hxy _ ih =>
    rw [List.countP_cons, List.countP_cons]
    split_ifs with hy hx
    · omega
    · exact absurd (hR _ _ hxy hy) hx
    · omega
    · omega

variable [IsStrictOrderedRing K]

/-- Lists that are close element by element have close order statistics, since
as many elements lie below the shifted bound. -/
theorem sort_getElem_le_add {xs ys : List K} {ε : K} (h : List.Forall₂ (fun x y => x ≤ y + ε) xs ys) {k : Nat}
    (hx : k < (OrderStatistic.sort xs).length) (hy : k < (OrderStatistic.sort ys).length) :
    (OrderStatistic.sort xs)[k] ≤ (OrderStatistic.sort ys)[k] + ε := by
  have hcount : ∀ v : K, ys.countP (fun y => y ≤ v) ≤ xs.countP (fun x => x ≤ v + ε) := by
    intro v
    apply countP_le_of_forall₂ _ h
    intro x y hxy hy
    rw [decide_eq_true_iff] at hy ⊢
    linarith
  rw [OrderStatistic.sort_getElem_le_iff]
  have hown := (OrderStatistic.sort_getElem_le_iff ys hy _).mp le_rfl
  exact hown.trans_le (hcount _)

theorem abs_sort_getElem_sub_le {xs ys : List K} {ε : K} (h : List.Forall₂ (fun x y => |x - y| ≤ ε) xs ys)
    {k : Nat} (hx : k < (OrderStatistic.sort xs).length) (hy : k < (OrderStatistic.sort ys).length) :
    |(OrderStatistic.sort xs)[k] - (OrderStatistic.sort ys)[k]| ≤ ε := by
  have hxy : List.Forall₂ (fun x y => x ≤ y + ε) xs ys := h.imp (fun x y hd => by linarith [(abs_le.mp hd).2])
  have hyx : List.Forall₂ (fun y x => y ≤ x + ε) ys xs :=
    h.flip.imp (fun y x hd => by linarith [(abs_le.mp hd).1])
  have hle := sort_getElem_le_add hxy hx hy
  have hge := sort_getElem_le_add hyx hy hx
  rw [abs_le]
  constructor <;> linarith

theorem abs_interpolation_sub_le {a b a' b' t ε : K} (h₀ : 0 ≤ t) (h₁ : t ≤ 1) (ha : |a - a'| ≤ ε)
    (hb : |b - b'| ≤ ε) : |(a + t * (b - a)) - (a' + t * (b' - a'))| ≤ ε := by
  have hsplit : (a + t * (b - a)) - (a' + t * (b' - a')) = (1 - t) * (a - a') + t * (b - b') := by ring
  calc |(a + t * (b - a)) - (a' + t * (b' - a'))| = |(1 - t) * (a - a') + t * (b - b')| := by rw [hsplit]
    _ ≤ |(1 - t) * (a - a')| + |t * (b - b')| := abs_add_le _ _
    _ = (1 - t) * |a - a'| + t * |b - b'| := by
      rw [abs_mul, abs_mul, abs_of_nonneg h₀, abs_of_nonneg (sub_nonneg.mpr h₁)]
    _ ≤ (1 - t) * ε + t * ε :=
      add_le_add (mul_le_mul_of_nonneg_left ha (sub_nonneg.mpr h₁)) (mul_le_mul_of_nonneg_left hb h₀)
    _ = ε := by ring

theorem interpolation_between {a b t : K} (hab : a ≤ b) (h₀ : 0 ≤ t) (h₁ : t ≤ 1) :
    a ≤ a + t * (b - a) ∧ a + t * (b - a) ≤ b := by
  have hd : 0 ≤ b - a := sub_nonneg.mpr hab
  constructor
  · exact le_add_of_nonneg_right (mul_nonneg h₀ hd)
  · linarith [mul_le_of_le_one_left hd h₁]

theorem percentile_between {xs : List K} (hne : xs ≠ []) {p : ℚ} (hp : p ≤ 100) :
    ∃ i j, ∃ (hi : i < (OrderStatistic.sort xs).length) (hj : j < (OrderStatistic.sort xs).length), ∃ v,
      i = ⌊position xs.length p⌋.toNat ∧ j = min (i + 1) (xs.length - 1) ∧ percentile xs p = some v ∧
      (OrderStatistic.sort xs)[i] ≤ v ∧ v ≤ (OrderStatistic.sort xs)[j] := by
  obtain ⟨i, j, hi, hj, hi', hj', heq⟩ := percentile_eq hne hp
  have hij : i ≤ j := by
    rw [OrderStatistic.length_sort] at hi
    omega
  have ht₀ : (0 : K) ≤ (Int.fract (position xs.length p) : ℚ) := by exact_mod_cast Int.fract_nonneg _
  have ht₁ : ((Int.fract (position xs.length p) : ℚ) : K) ≤ 1 := by exact_mod_cast (Int.fract_lt_one _).le
  exact ⟨i, j, hi, hj, _, hi', hj', heq,
    interpolation_between (OrderStatistic.sort_getElem_mono xs hij hj) ht₀ ht₁⟩

theorem percentile_pos {xs : List K} (hne : xs ≠ []) (hpos : ∀ x ∈ xs, 0 < x) {p : ℚ} (hp : p ≤ 100) :
    ∃ q, percentile xs p = some q ∧ 0 < q := by
  obtain ⟨i, _, hi, _, q, _, _, hq, hle, _⟩ := percentile_between hne hp
  refine ⟨q, hq, lt_of_lt_of_le (hpos _ ?_) hle⟩
  exact (OrderStatistic.sort_perm xs).mem_iff.mp (List.getElem_mem hi)

theorem abs_percentile_sub_le {xs ys : List K} {ε : K} (h : List.Forall₂ (fun x y => |x - y| ≤ ε) xs ys)
    (hne : xs ≠ []) {p : ℚ} (hp : p ≤ 100) :
    ∃ a b, percentile xs p = some a ∧ percentile ys p = some b ∧ |a - b| ≤ ε := by
  have hlen : xs.length = ys.length := h.length_eq
  have hne' : ys ≠ [] := by
    rintro rfl
    exact hne (List.length_eq_zero_iff.mp hlen)
  obtain ⟨i, j, hi, hj, rfl, rfl, hx⟩ := percentile_eq hne hp
  obtain ⟨i', j', hi', hj', hii, hjj, hy⟩ := percentile_eq hne' hp
  rw [← hlen] at hii hjj hy
  subst hii hjj
  have ht₀ : (0 : K) ≤ (Int.fract (position xs.length p) : ℚ) := by exact_mod_cast Int.fract_nonneg _
  have ht₁ : ((Int.fract (position xs.length p) : ℚ) : K) ≤ 1 := by exact_mod_cast (Int.fract_lt_one _).le
  exact ⟨_, _, hx, hy, abs_interpolation_sub_le ht₀ ht₁ (abs_sort_getElem_sub_le h hi hi')
    (abs_sort_getElem_sub_le h hj hj')⟩

end DcBench.Lib.Percentile
