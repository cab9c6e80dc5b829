import Mathlib.Data.List.Basic

namespace DcBench.Lib.Buffer

variable {α : Type}

/-- Overwrite the cells from `off` on with `bs`. -/
def write (buf : List α) (off : Nat) (bs : List α) : List α :=
  buf.take off ++ bs ++ buf.drop (off + bs.length)

theorem length_write (buf : List α) (off : Nat) (bs : List α) (h : off + bs.length ≤ buf.length) :
    (write buf off bs).length = buf.length := by
  simp only [write, List.length_append, List.length_take, List.length_drop]
  omega

theorem take_write (buf : List α) (off : Nat) (bs : List α) (h : off ≤ buf.length) :
    (write buf off bs).take (off + bs.length) = buf.take off ++ bs := by
  have hl : (buf.take off ++ bs).length = off + bs.length := by simp; omega
  rw [write, ← hl, List.take_left']
  rfl

/-- Lengthen a buffer to at least `n` cells; it never shrinks. -/
def growTo (buf : List α) (n : Nat) (fill : α) : List α :=
  if buf.length < n then buf ++ List.replicate (n - buf.length) fill else buf

theorem length_growTo (buf : List α) (n : Nat) (fill : α) :
    (growTo buf n fill).length = max buf.length n := by
  unfold growTo
  split
  · simp; omega
  · omega

theorem le_length_growTo (buf : List α) (n : Nat) (fill : α) : n ≤ (growTo buf n fill).length := by
  rw [length_growTo]
  omega

end DcBench.Lib.Buffer
