import Mathlib.Data.Rat.Defs
import Mathlib.Tactic.FieldSimp
import Mathlib.Tactic.Ring
import Mathlib.Algebra.Order.Ring.Rat
import Mathlib.Data.Nat.Cast.Field

namespace DcBench.Lib.Decimal

/-- A natural number in decimal digits. -/
def natText (n : Nat) : List Char := Nat.toDigits 10 n

/-- `n` hundredths, with two digits after the point. -/
def hundredthsText (n : Nat) : List Char :=
  natText (n / 100) ++ ['.', Nat.digitChar (n / 10 % 10), Nat.digitChar (n % 10)]

/-- Digits, with single underscores allowed between them. -/
def digits? : List Char → Option (List Char)
  | [] => none
  | [c] => if c.isDigit then some [c] else none
  | c :: '_' :: cs => if c.isDigit then (digits? cs).map (c :: ·) else none
  | c :: cs => if c.isDigit then (digits? cs).map (c :: ·) else none

def natOf? (cs : List Char) : Option Nat := (digits? cs).map (fun ds => Nat.ofDigitChars 10 ds 0)

/-- Digits on one side of the point may be missing. -/
def pointed? (whole frac : List Char) : Option ℚ :=
  if whole = [] ∧ frac = [] then none
  else do
    let ds ← if whole = [] then some [] else digits? whole
    let fs ← if frac = [] then some [] else digits? frac
    some (Nat.ofDigitChars 10 ds 0 + Nat.ofDigitChars 10 fs 0 / 10 ^ fs.length)

def decimalOf? (cs : List Char) : Option ℚ :=
  match cs.span (fun c => c ≠ '.') with
  | (whole, []) => (natOf? whole).map (fun n : Nat => (n : ℚ))
  | (whole, _ :: frac) => pointed? whole frac

theorem digits_of_isDigit {cs : List Char} (hne : cs ≠ []) (h : ∀ c ∈ cs, c.isDigit) : digits? cs = some cs := by
  fun_induction digits? cs with
  | case1 => exact absurd rfl hne
  | case2 c hc => rfl
  | case3 c hc => exact absurd (h c (List.mem_singleton_self c)) hc
  | case4 c cs hc ih =>
    have hunder : '_'.isDigit := h '_' (by simp)
    cases hunder
  | case5 c cs hc => exact absurd (h c (List.mem_cons_self ..)) hc
  | case6 c cs hnil _ hc ih =>
    rw [ih hnil (fun d hd => h d (List.mem_cons_of_mem c hd))]
    rfl
  | case7 c cs _ _ hc => exact absurd (h c (List.mem_cons_self ..)) hc

theorem isDigit_range {c : Char} (h : c.isDigit) : 48 ≤ c.toNat ∧ c.toNat ≤ 57 := by
  simpa [Char.isDigit, UInt32.le_iff_toNat_le] using h

theorem isDigit_natText {n : Nat} {c : Char} (h : c ∈ natText n) : c.isDigit :=
  Nat.isDigit_of_mem_toDigits (by decide) (by decide) h

theorem natText_ne_nil (n : Nat) : natText n ≠ [] := Nat.toDigits_ne_nil

theorem digits_natText (n : Nat) : digits? (natText n) = some (natText n) :=
  digits_of_isDigit (natText_ne_nil n) (fun _ hc => isDigit_natText hc)

theorem natOf_natText (n : Nat) : natOf? (natText n) = some n := by
  rw [natOf?, digits_natText, Option.map_some, natText, Nat.ofDigitChars_ten_toDigits]

theorem isDigit_digitChar {n : Nat} (h : n < 10) : n.digitChar.isDigit := by
  apply Nat.isDigit_of_mem_toDigits (b := 10) (n := n) (by decide) (by decide)
  rw [Nat.toDigits_of_lt_base h]
  exact List.mem_singleton_self _

theorem span_natText (n : Nat) (cs : List Char) :
    (natText n ++ '.' :: cs).span (fun c => c ≠ '.') = (natText n, '.' :: cs) := by
  have hplain : ∀ c ∈ natText n, decide (c ≠ '.') = true := by
    intro c hc
    have hd := isDigit_natText hc
    rw [decide_eq_true_iff]
    rintro rfl
    cases hd
  rw [List.span_eq_takeWhile_dropWhile, List.takeWhile_append_of_pos hplain, List.dropWhile_append_of_pos hplain]
  simp

theorem decimalOf_hundredthsText (n : Nat) : decimalOf? (hundredthsText n) = some (n / 100 : ℚ) := by
  have htens : n / 10 % 10 < 10 := Nat.mod_lt _ (by decide)
  have hones : n % 10 < 10 := Nat.mod_lt _ (by decide)
  have hn : n = 100 * (n / 100) + (10 * (n / 10 % 10) + n % 10) := by omega
  have hfrac : digits? [(n / 10 % 10).digitChar, (n % 10).digitChar] =
      some [(n / 10 % 10).digitChar, (n % 10).digitChar] := by
    apply digits_of_isDigit (List.cons_ne_nil _ _)
    simp [isDigit_digitChar htens, isDigit_digitChar hones]
  rw [decimalOf?, hundredthsText, span_natText]
  simp only [pointed?, natText_ne_nil, false_and, if_false, List.cons_ne_nil, digits_natText, hfrac,
    Option.bind_eq_bind, Option.bind_some, Option.some.injEq, Nat.ofDigitChars_cons_digitChar_of_lt_ten htens,
    Nat.ofDigitChars_cons_digitChar_of_lt_ten hones, Nat.ofDigitChars_nil, List.length_cons, List.length_nil]
  rw [natText, Nat.ofDigitChars_ten_toDigits]
  nth_rewrite 4 [hn]
  push_cast
  ring

end DcBench.Lib.Decimal
