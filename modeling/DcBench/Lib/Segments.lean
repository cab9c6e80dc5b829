import Mathlib.Data.List.Basic

namespace DcBench.Lib.Segments

variable {α : Type}

/-- The lists of `segs` are contiguous pieces of `xs`, in this order and
without overlap; any gap before a piece is skipped. -/
inductive Occurs : List (List α) → List α → Prop
  | nil (xs : List α) : Occurs [] xs
  | cons (gap seg : List α) {segs : List (List α)} {xs : List α} (h : Occurs segs xs) :
      Occurs (seg :: segs) (gap ++ (seg ++ xs))

theorem Occurs.append {segs : List (List α)} {xs : List α} (h : Occurs segs xs) (ys : List α) :
    Occurs segs (xs ++ ys) := by
  induction h with
  | nil xs => exact .nil _
  | cons gap seg _ ih =>
    rw [List.append_assoc, List.append_assoc]
    exact .cons gap seg ih

theorem Occurs.concat {segs : List (List α)} {xs : List α} (h : Occurs segs xs) (seg : List α) :
    Occurs (segs ++ [seg]) (xs ++ seg) := by
  induction h with
  | nil xs =>
    have hs := Occurs.cons xs seg (.nil [])
    rwa [List.append_nil] at hs
  | cons gap seg' _ ih =>
    rw [List.append_assoc, List.append_assoc]
    exact .cons gap seg' ih

theorem Occurs.length_le {segs : List (List α)} {xs : List α} (h : Occurs segs xs) :
    segs.flatten.length ≤ xs.length := by
  induction h with
  | nil xs => simp
  | cons gap seg _ ih =>
    simp only [List.flatten_cons, List.length_append]
    omega

end DcBench.Lib.Segments
