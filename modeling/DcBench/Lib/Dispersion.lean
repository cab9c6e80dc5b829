import Mathlib.Algebra.BigOperators.Group.List.Basic
import Mathlib.Algebra.BigOperators.Ring.List
import Mathlib.Algebra.Order.BigOperators.Group.List
import Mathlib.Algebra.Order.Field.Basic
import Mathlib.Tactic.FieldSimp
import Mathlib.Tactic.Linarith
import Mathlib.Tactic.Positivity
import Mathlib.Tactic.Ring

namespace DcBench.Lib.Dispersion

variable {K : Type} [Field K] {xs ys : List K}

def mean (xs : List K) : K := xs.sum / xs.length

def squares (xs : List K) : K := (xs.map (fun x => x ^ 2)).sum

def variance (xs : List K) : K := mean (xs.map (fun x => (x - mean xs) ^ 2))

/-- Jain's index: one for equal shares, `1 / n` when one of `n` takes all. -/
def index (xs : List K) : K := xs.sum ^ 2 / (xs.length * squares xs)

theorem index_perm (h : xs.Perm ys) : index xs = index ys := by
  rw [index, index, squares, squares, h.sum_eq, h.length_eq, (h.map _).sum_eq]

theorem sum_map_mul (c : K) (xs : List K) : (xs.map (fun x => c * x)).sum = c * xs.sum := by
  simpa using List.sum_map_mul_left xs id c

theorem index_scale {c : K} (hc : c ≠ 0) (xs : List K) : index (xs.map (fun x => c * x)) = index xs := by
  have hsq : squares (xs.map (fun x => c * x)) = c ^ 2 * squares xs := by
    simp only [squares, List.map_map, Function.comp_def, mul_pow]
    exact List.sum_map_mul_left xs (fun x => x ^ 2) (c ^ 2)
  rw [index, index, sum_map_mul, hsq, List.length_map, mul_pow, mul_left_comm]
  exact mul_div_mul_left _ _ (pow_ne_zero 2 hc)

theorem sum_sub_sq (m : K) (xs : List K) :
    (xs.map (fun x => (x - m) ^ 2)).sum = squares xs - 2 * m * xs.sum + xs.length * m ^ 2 := by
  induction xs with
  | nil => simp [squares]
  | cons x xs ih =>
    rw [squares] at ih ⊢
    simp only [List.map_cons, List.sum_cons, ih, List.length_cons, Nat.cast_succ]
    ring

variable [LinearOrder K] [IsStrictOrderedRing K]

theorem length_pos (hne : xs ≠ []) : (0 : K) < xs.length :=
  Nat.cast_pos.mpr (List.length_pos_iff.mpr hne)

theorem sum_sq_nonneg (f : K → K) (xs : List K) : 0 ≤ (xs.map (fun x => f x ^ 2)).sum := by
  refine List.sum_nonneg ?_
  intro y hy
  obtain ⟨x, -, rfl⟩ := List.mem_map.mp hy
  exact sq_nonneg (f x)

theorem variance_nonneg (xs : List K) : 0 ≤ variance xs :=
  div_nonneg (sum_sq_nonneg _ xs) (Nat.cast_nonneg _)

theorem variance_eq_zero_iff (hne : xs ≠ []) : variance xs = 0 ↔ ∀ x ∈ xs, ∀ y ∈ xs, x = y := by
  have hlen := (length_pos (K := K) hne).ne'
  rw [variance, mean, List.length_map, div_eq_zero_iff, or_iff_left hlen]
  constructor
  · intro h x hx y hy
    have heq (z : K) (hz : z ∈ xs) : z = mean xs := by
      have hle : (z - mean xs) ^ 2 ≤ 0 := by
        rw [← h]
        refine List.single_le_sum ?_ _ (List.mem_map_of_mem hz)
        intro w hw
        obtain ⟨v, -, rfl⟩ := List.mem_map.mp hw
        exact sq_nonneg _
      exact sub_eq_zero.mp (pow_eq_zero_iff two_ne_zero |>.mp (le_antisymm hle (sq_nonneg _)))
    rw [heq x hx, heq y hy]
  · intro h
    obtain ⟨x, hx⟩ := List.exists_mem_of_ne_nil xs hne
    have hrep : xs = List.replicate xs.length x := List.eq_replicate_iff.mpr ⟨rfl, fun y hy => h y hy x hx⟩
    have hmean : mean xs = x := by
      have hsum := congrArg List.sum hrep
      rw [List.sum_replicate, nsmul_eq_mul] at hsum
      rw [mean, hsum, mul_div_cancel_left₀ _ hlen]
    refine List.sum_eq_zero ?_
    intro y hy
    obtain ⟨z, hz, rfl⟩ := List.mem_map.mp hy
    rw [hmean, h z hz x hx, sub_self, zero_pow two_ne_zero]

theorem length_mul_squares (hne : xs ≠ []) :
    xs.length * squares xs = xs.sum ^ 2 + (xs.length : K) ^ 2 * variance xs := by
  have hlen := (length_pos (K := K) hne).ne'
  rw [variance, mean, List.length_map, sum_sub_sq, mean]
  field_simp
  ring

section Positive

variable (hne : xs ≠ []) (hpos : ∀ x ∈ xs, 0 < x)

include hne hpos

theorem sum_pos : 0 < xs.sum := List.sum_pos xs hpos hne

theorem mean_pos : 0 < mean xs := div_pos (sum_pos hne hpos) (length_pos hne)

theorem length_mul_squares_pos : 0 < xs.length * squares xs := by
  have hsum := sum_pos hne hpos
  have hvar := variance_nonneg xs
  rw [length_mul_squares hne]
  positivity

theorem index_eq_variance : index xs = 1 / (1 + variance xs / mean xs ^ 2) := by
  have hsum := (sum_pos hne hpos).ne'
  have hlen := (length_pos (K := K) hne).ne'
  rw [index, length_mul_squares hne, mean]
  field_simp

theorem index_le_one : index xs ≤ 1 := by
  rw [index, div_le_one (length_mul_squares_pos hne hpos), length_mul_squares hne]
  have hvar := variance_nonneg xs
  have hlen : (0 : K) ≤ (xs.length : K) ^ 2 * variance xs := by positivity
  linarith

theorem index_eq_one_iff : index xs = 1 ↔ ∀ x ∈ xs, ∀ y ∈ xs, x = y := by
  have hlen := (length_pos (K := K) hne).ne'
  rw [← variance_eq_zero_iff hne, index, div_eq_one_iff_eq (length_mul_squares_pos hne hpos).ne',
    length_mul_squares hne, left_eq_add, mul_eq_zero, or_iff_right (pow_ne_zero 2 hlen)]

end Positive

theorem squares_le_sq_sum (h : ∀ x ∈ xs, 0 ≤ x) : squares xs ≤ xs.sum ^ 2 := by
  induction xs with
  | nil => simp [squares]
  | cons x xs ih =>
    rw [List.forall_mem_cons] at h
    have hsum : 0 ≤ xs.sum := List.sum_nonneg h.2
    have hcross : 0 ≤ x * xs.sum := mul_nonneg h.1 hsum
    have hrest := ih h.2
    rw [squares] at hrest ⊢
    rw [List.map_cons, List.sum_cons, List.sum_cons]
    linarith

theorem one_div_length_le_index (hne : xs ≠ []) (hpos : ∀ x ∈ xs, 0 < x) : 1 / (xs.length : K) ≤ index xs := by
  have hlen := length_pos (K := K) hne
  have hle := squares_le_sq_sum (fun x hx => (hpos x hx).le)
  rw [index, div_le_div_iff₀ hlen (length_mul_squares_pos hne hpos), one_mul, mul_comm]
  exact mul_le_mul_of_nonneg_right hle hlen.le

theorem squares_le_chord {a b : K} (h : ∀ x ∈ xs, a ≤ x ∧ x ≤ b) :
    squares xs ≤ (a + b) * xs.sum - xs.length * (a * b) := by
  induction xs with
  | nil => simp [squares]
  | cons x xs ih =>
    rw [List.forall_mem_cons] at h
    have hx : 0 ≤ (x - a) * (b - x) := mul_nonneg (sub_nonneg.mpr h.1.1) (sub_nonneg.mpr h.1.2)
    have hrest := ih h.2
    rw [squares] at hrest ⊢
    simp only [List.map_cons, List.sum_cons, List.length_cons, Nat.cast_succ]
    linarith

theorem ratio_le_index {a b : K} (hne : xs ≠ []) (ha : 0 < a) (hb : 0 < b) (h : ∀ x ∈ xs, a ≤ x ∧ x ≤ b) :
    4 * (a / b) / (1 + a / b) ^ 2 ≤ index xs := by
  have hpos : ∀ x ∈ xs, 0 < x := fun x hx => ha.trans_le (h x hx).1
  have hchord := squares_le_chord h
  have hlen := length_pos (K := K) hne
  have heq : 4 * (a / b) / (1 + a / b) ^ 2 = 4 * (a * b) / (a + b) ^ 2 := by
    field_simp
    ring
  rw [heq, index, div_le_div_iff₀ (by positivity) (length_mul_squares_pos hne hpos)]
  have hscaled : 4 * (a * b) * (xs.length * squares xs) ≤
      4 * (a * b) * (xs.length * ((a + b) * xs.sum - xs.length * (a * b))) := by gcongr
  have hsq := sq_nonneg ((a + b) * xs.sum - 2 * (xs.length * (a * b)))
  linarith

end DcBench.Lib.Dispersion
