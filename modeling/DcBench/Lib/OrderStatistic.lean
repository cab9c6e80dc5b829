import Mathlib.Data.List.Sort
import Mathlib.Order.Bounds.Basic
import Mathlib.Order.Monotone.Basic

namespace DcBench.Lib.OrderStatistic

variable {α : Type} [LinearOrder α]

def sort (l : List α) : List α := l.insertionSort (· ≤ ·)

theorem sort_perm (l : List α) : (sort l).Perm l := List.perm_insertionSort _ l

theorem pairwise_sort (l : List α) : (sort l).Pairwise (· ≤ ·) := List.pairwise_insertionSort _ l

@[simp] theorem length_sort (l : List α) : (sort l).length = l.length := (sort_perm l).length_eq

theorem sort_of_pairwise {l : List α} (h : l.Pairwise (· ≤ ·)) : sort l = l := h.insertionSort_eq

theorem sort_getElem_mono (l : List α) {i j : Nat} (hij : i ≤ j) (hj : j < (sort l).length) :
    (sort l)[i] ≤ (sort l)[j] := (pairwise_sort l).sortedLE.getElem_le_getElem_of_le hij

theorem sort_congr {l l' : List α} (h : l.Perm l') : sort l = sort l' := by
  have hperm : (sort l).Perm (sort l') := (sort_perm l).trans (h.trans (sort_perm l').symm)
  exact hperm.eq_of_pairwise (fun _ _ _ _ => le_antisymm) (pairwise_sort l) (pairwise_sort l')

theorem sort_map {β : Type} [LinearOrder β] {f : α → β} (hf : Monotone f) (l : List α) :
    sort (l.map f) = (sort l).map f := by
  rw [sort_congr ((sort_perm l).map f).symm]
  apply sort_of_pairwise
  exact (pairwise_sort l).map f (fun _ _ h => hf h)

/-- In an ascending list the elements up to a bound come first: the element at
`k` is one of them exactly when there are more than `k`. -/
theorem getElem_le_iff {l : List α} (h : l.Pairwise (· ≤ ·)) {k : Nat} (hk : k < l.length) (v : α) :
    l[k] ≤ v ↔ k < l.countP (fun x => x ≤ v) := by
  induction l generalizing k with
  | nil => cases hk
  | cons a l ih =>
    obtain ⟨ha, hl⟩ := List.pairwise_cons.mp h
    by_cases hav : a ≤ v
    · rw [List.countP_cons, if_pos (decide_eq_true hav)]
      cases k with
      | zero => simp [hav]
      | succ k =>
        rw [List.getElem_cons_succ, ih hl (Nat.lt_of_succ_lt_succ hk)]
        omega
    · -- every element is above the bound
      have hnone : (a :: l).countP (fun x => x ≤ v) = 0 := by
        rw [List.countP_eq_zero]
        intro x hx hxv
        obtain rfl | hx := List.mem_cons.mp hx
        · exact hav (of_decide_eq_true hxv)
        · exact hav ((ha x hx).trans (of_decide_eq_true hxv))
      rw [hnone]
      refine iff_of_false ?_ (Nat.not_lt_zero k)
      intro hkv
      obtain heq | hmem := List.mem_cons.mp (List.getElem_mem hk)
      · exact hav (heq ▸ hkv)
      · exact hav ((ha _ hmem).trans hkv)

theorem sort_getElem_le_iff (l : List α) {k : Nat} (hk : k < (sort l).length) (v : α) :
    (sort l)[k] ≤ v ↔ k < l.countP (fun x => x ≤ v) := by
  rw [getElem_le_iff (pairwise_sort l) hk, (sort_perm l).countP_eq]

/-- The element of rank `k + 1` is the least one with more than `k` elements up
to it. -/
theorem isLeast_sort_getElem (l : List α) {k : Nat} (hk : k < (sort l).length) :
    IsLeast {v | v ∈ l ∧ k < l.countP (fun x => x ≤ v)} (sort l)[k] := by
  constructor
  · refine ⟨(sort_perm l).mem_iff.mp (List.getElem_mem hk), ?_⟩
    rw [← sort_getElem_le_iff l hk]
  · rintro v ⟨_, hv⟩
    exact (sort_getElem_le_iff l hk v).mpr hv

end DcBench.Lib.OrderStatistic
