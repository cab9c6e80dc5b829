import Mathlib.Data.List.Forall2

namespace DcBench.Lib.Pointwise

variable {α β : Type} {R : α → β → Prop} {xs : List α} {ys : List β}

theorem exists_right (h : List.Forall₂ R xs ys) {k : Nat} {x : α} (hx : xs[k]? = some x) :
    ∃ y, ys[k]? = some y ∧ R x y := by
  induction h generalizing k with
  | nil => cases hx
  | cons hr _ ih =>
    cases k with
    | zero =>
      cases hx
      exact ⟨_, rfl, hr⟩
    | succ k => exact ih hx

theorem exists_left (h : List.Forall₂ R xs ys) {y : β} (hy : y ∈ ys) : ∃ x ∈ xs, R x y := by
  obtain ⟨k, hk⟩ := List.mem_iff_getElem?.mp hy
  obtain ⟨x, hx, hr⟩ := exists_right h.flip hk
  exact ⟨x, List.mem_of_getElem? hx, hr⟩

end DcBench.Lib.Pointwise
