import Mathlib.Algebra.BigOperators.Fin
import Mathlib.Algebra.Order.Group.Multiset
import Mathlib.Data.List.Nodup

namespace DcBench.Lib.Partition

variable {α β : Type}

theorem sum_filter_eq {n : Nat} (key : α → Nat) (l : List α) (h : ∀ x ∈ l, key x < n) :
    ∑ j : Fin n, ((l.filter (fun x => key x = j) : List α) : Multiset α) = l := by
  induction l with
  | nil => simp
  | cons x l ih =>
    have hx : key x < n := h x (by simp)
    have hcons (j : Fin n) : (((x :: l).filter (fun y => key y = j) : List α) : Multiset α) =
        (if j = ⟨key x, hx⟩ then {x} else 0) + ((l.filter (fun y => key y = j) : List α) : Multiset α) := by
      by_cases hj : key x = j
      · have hj' : j = ⟨key x, hx⟩ := Fin.ext hj.symm
        rw [List.filter_cons_of_pos (by simpa using hj), if_pos hj', ← Multiset.cons_coe,
          Multiset.singleton_add]
      · have hj' : j ≠ ⟨key x, hx⟩ := fun he => hj (by rw [he])
        rw [List.filter_cons_of_neg (by simpa using hj), if_neg hj', zero_add]
    rw [Finset.sum_congr rfl (fun j _ => hcons j), Finset.sum_add_distrib, ih (fun y hy => h y (by simp [hy])),
      Finset.sum_ite_eq', if_pos (Finset.mem_univ _), ← Multiset.cons_coe, Multiset.singleton_add]

theorem sum_map_filter {n : Nat} (key : α → Nat) (f : α → β) (l : List α) (h : ∀ x ∈ l, key x < n) :
    ∑ j : Fin n, (((l.filter (fun x => key x = j)).map f : List β) : Multiset β) = (l.map f : List β) := by
  simp only [← Multiset.map_coe]
  rw [← sum_filter_eq key l h, ← Multiset.coe_mapAddMonoidHom, map_sum]

theorem sum_sum_filter {n : Nat} (key : α → Nat) (f : α → Nat) (l : List α) (h : ∀ x ∈ l, key x < n) :
    ∑ j : Fin n, ((l.filter (fun x => key x = j)).map f).sum = (l.map f).sum := by
  simp only [← Multiset.sum_coe]
  rw [← sum_map_filter key f l h, ← Multiset.coe_sumAddMonoidHom, map_sum]

theorem sum_update {n : Nat} (f : β → Nat) (w : Fin n → β) (j : Fin n) (b : β) (d : Nat)
    (h : f b = f (w j) + d) : ∑ i, f (Function.update w j b i) = ∑ i, f (w i) + d := by
  have hne (i : Fin n) (hi : i ∈ Finset.univ.erase j) : f (Function.update w j b i) = f (w i) := by
    rw [Function.update_of_ne (Finset.ne_of_mem_erase hi)]
  rw [← Finset.add_sum_erase _ _ (Finset.mem_univ j), ← Finset.add_sum_erase _ (fun i => f (w i)) (Finset.mem_univ j),
    Finset.sum_congr rfl hne, Function.update_self, h]
  omega

theorem sum_update_add {ι M : Type} [DecidableEq ι] [AddCommMonoid M] (f : ι → β → M) (w : ι → β) {j : ι} (b : β)
    {S : Finset ι} (hj : j ∈ S) : ∑ i ∈ S, f i (Function.update w j b i) + f j (w j) = ∑ i ∈ S, f i (w i) + f j b := by
  have hne (i : ι) (hi : i ∈ S.erase j) : f i (Function.update w j b i) = f i (w i) := by
    rw [Function.update_of_ne (Finset.ne_of_mem_erase hi)]
  rw [← Finset.add_sum_erase _ _ hj, ← Finset.add_sum_erase _ (fun i => f i (w i)) hj, Finset.sum_congr rfl hne,
    Function.update_self, add_comm (f j b), add_comm (f j (w j)), add_right_comm]

theorem sum_map_set (f : α → Nat) {l : List α} {j : Nat} {x : α} (y : α) (h : l[j]? = some x) :
    ((l.set j y).map f).sum + f x = (l.map f).sum + f y := by
  induction l generalizing j with
  | nil => simp at h
  | cons z l ih =>
    cases j with
    | zero =>
      rw [List.getElem?_cons_zero, Option.some.injEq] at h
      rw [List.set_cons_zero, List.map_cons, List.map_cons, List.sum_cons, List.sum_cons, h]
      omega
    | succ j =>
      have htail := ih h
      rw [List.set_cons_succ, List.map_cons, List.map_cons, List.sum_cons, List.sum_cons]
      omega

theorem sum_shares (a : Nat) {n : Nat} (hn : 0 < n) : ∑ j : Fin n, (a / n + if (j : Nat) < a % n then 1 else 0) = a := by
  have hrest : ∀ m, ∑ j ∈ Finset.range m, (if j < a % n then 1 else 0) = min m (a % n) := by
    intro m
    induction m with
    | zero => simp
    | succ m ih =>
      rw [Finset.sum_range_succ, ih]
      split <;> omega
  have hlt := Nat.mod_lt a hn
  rw [Fin.sum_univ_eq_sum_range (fun j => a / n + if j < a % n then 1 else 0), Finset.sum_add_distrib, hrest,
    Finset.sum_const, Finset.card_range, smul_eq_mul, min_eq_right hlt.le, Nat.div_add_mod]

theorem find_eq_some_iff_of_nodup [DecidableEq β] {key : α → β} {l : List α} (hkeys : (l.map key).Nodup) (k : β)
    (x : α) : l.find? (fun x => key x = k) = some x ↔ x ∈ l ∧ key x = k := by
  constructor
  · intro h
    have hx := List.find?_some h
    rw [decide_eq_true_iff] at hx
    exact ⟨List.mem_of_find?_eq_some h, hx⟩
  · rintro ⟨hx, hkey⟩
    have hsome : (l.find? (fun x => key x = k)).isSome := List.find?_isSome.mpr ⟨x, hx, decide_eq_true hkey⟩
    obtain ⟨y, hy⟩ := Option.isSome_iff_exists.mp hsome
    have hykey := List.find?_some hy
    rw [decide_eq_true_iff] at hykey
    rw [hy, List.inj_on_of_nodup_map hkeys (List.mem_of_find?_eq_some hy) hx (hykey.trans hkey.symm)]

/-- A list whose elements have different keys below `n` is found again by
looking for each key in turn. -/
theorem filterMap_find_perm {n : Nat} {key : α → Option Nat} {l : List α} (hkeys : (l.map key).Nodup)
    (hlt : ∀ x ∈ l, ∃ k < n, key x = some k) :
    ((List.range n).filterMap (fun k => l.find? (fun x => key x = some k))).Perm l := by
  refine (List.perm_ext_iff_of_nodup ?_ hkeys.of_map).mpr ?_
  · apply List.Nodup.filterMap _ List.nodup_range
    intro k k' x hk hk'
    have hkey := ((find_eq_some_iff_of_nodup hkeys (some k) x).mp hk).2
    have hkey' := ((find_eq_some_iff_of_nodup hkeys (some k') x).mp hk').2
    exact Option.some.inj (hkey.symm.trans hkey')
  · intro x
    rw [List.mem_filterMap]
    constructor
    · rintro ⟨k, -, hk⟩
      exact ((find_eq_some_iff_of_nodup hkeys (some k) x).mp hk).1
    · intro hx
      obtain ⟨k, hk, hkey⟩ := hlt x hx
      exact ⟨k, List.mem_range.mpr hk, (find_eq_some_iff_of_nodup hkeys (some k) x).mpr ⟨hx, hkey⟩⟩

end DcBench.Lib.Partition
