import DcBench.Lib.Decimal
import Mathlib.Data.List.DropRight
import Mathlib.Algebra.Order.Field.Power

namespace DcBench.Lib.PythonText

open DcBench.Lib

/-- A text file is read with every line end turned into a newline. -/
def universalNewlines : List Char → List Char
  | [] => []
  | '\r' :: '\n' :: cs => '\n' :: universalNewlines cs
  | '\r' :: cs => '\n' :: universalNewlines cs
  | c :: cs => c :: universalNewlines cs

/-- The lines of a text, each with its newline. -/
def lines : List Char → List (List Char)
  | [] => []
  | c :: cs =>
    if c = '\n' then [c] :: lines cs
    else
      match lines cs with
      | [] => [[c]]
      | l :: ls => (c :: l) :: ls

/-- What iterating over an open text file gives. -/
def fileLines (text : List Char) : List (List Char) := lines (universalNewlines text)

def isSpace (c : Char) : Bool :=
  let n := c.toNat
  9 ≤ n && n ≤ 13 || 28 ≤ n && n ≤ 32 || n = 0x85 || n = 0xa0 || n = 0x1680 ||
    0x2000 ≤ n && n ≤ 0x200a || n = 0x2028 || n = 0x2029 || n = 0x202f || n = 0x205f || n = 0x3000

def strip (cs : List Char) : List Char := (cs.dropWhile isSpace).rdropWhile isSpace

def signed? {α : Type} [Neg α] (read : List Char → Option α) : List Char → Option α
  | '-' :: cs => (read cs).map (fun x => -x)
  | '+' :: cs => read cs
  | cs => read cs

/-- `int` of a text of ASCII digits. -/
def int? (cs : List Char) : Option Int :=
  signed? (fun ds => (Decimal.natOf? ds).map (fun n : Nat => (n : Int))) (strip cs)

def scientific? (cs : List Char) : Option ℚ :=
  match cs.span (fun c => c ≠ 'e' && c ≠ 'E') with
  | (mantissa, []) => Decimal.decimalOf? mantissa
  | (mantissa, _ :: exponent) => do
    let x ← Decimal.decimalOf? mantissa
    let k ← signed? (fun ds => (Decimal.natOf? ds).map (fun n : Nat => (n : Int))) exponent
    some (x * 10 ^ k)

/-- The number that `float` is asked for, before it is rounded. The infinities
and `nan` are not numbers here. -/
def float? (cs : List Char) : Option ℚ := signed? scientific? (strip cs)

theorem universalNewlines_of_not_mem {cs : List Char} (h : '\r' ∉ cs) : universalNewlines cs = cs := by
  fun_induction universalNewlines cs with
  | case1 => rfl
  | case2 cs ih => exact absurd (List.mem_cons_self ..) h
  | case3 cs _ ih => exact absurd (List.mem_cons_self ..) h
  | case4 c cs _ _ ih => rw [ih (fun hm => h (List.mem_cons_of_mem c hm))]

theorem lines_cons_line {l : List Char} (h : '\n' ∉ l) (rest : List Char) :
    lines (l ++ '\n' :: rest) = (l ++ ['\n']) :: lines rest := by
  induction l with
  | nil => rfl
  | cons c l ih =>
    have hc : c ≠ '\n' := fun he => h (he ▸ List.mem_cons_self ..)
    rw [List.cons_append, lines, if_neg hc, ih (fun hm => h (List.mem_cons_of_mem c hm))]
    rfl

theorem lines_flatMap {α : Type} {line : α → List Char} {items : List α} (h : ∀ x ∈ items, '\n' ∉ line x) :
    lines (items.flatMap (fun x => line x ++ ['\n'])) = items.map (fun x => line x ++ ['\n']) := by
  induction items with
  | nil => rfl
  | cons x items ih =>
    rw [List.flatMap_cons, List.append_assoc, List.singleton_append, lines_cons_line (h x (List.mem_cons_self ..)),
      ih (fun y hy => h y (List.mem_cons_of_mem x hy)), List.map_cons]

theorem strip_of_not_isSpace {cs : List Char} (h : ∀ c ∈ cs, isSpace c = false) : strip cs = cs := by
  rw [strip, List.dropWhile_eq_self_iff.mpr, List.rdropWhile_eq_self_iff.mpr]
  · intro hne
    rw [h _ (List.getLast_mem hne)]
    decide
  · intro hne
    rw [h _ (List.getElem_mem hne)]
    decide

theorem strip_line {cs : List Char} (h : ∀ c ∈ cs, isSpace c = false) : strip (cs ++ ['\n']) = cs := by
  cases cs with
  | nil => decide
  | cons c cs =>
    have hc := h c (List.mem_cons_self ..)
    have hdrop : ((c :: cs) ++ ['\n']).dropWhile isSpace = (c :: cs) ++ ['\n'] := by
      rw [List.cons_append, List.dropWhile_cons, if_neg (by rw [hc]; decide)]
    rw [strip, hdrop, List.rdropWhile_concat_pos _ _ _ (by decide), List.rdropWhile_eq_self_iff]
    intro hne
    rw [h _ (List.getLast_mem hne)]
    decide

def isNumeral (c : Char) : Bool := c.isDigit || c = '.'

theorem isNumeral_of_isDigit {c : Char} (h : c.isDigit) : isNumeral c := by
  rw [isNumeral, h, Bool.true_or]

theorem isSpace_of_isNumeral {c : Char} (h : isNumeral c) : isSpace c = false := by
  rw [isNumeral, Bool.or_eq_true, decide_eq_true_iff] at h
  obtain hd | rfl := h
  · have hrange := Decimal.isDigit_range hd
    simp only [isSpace, Bool.or_eq_false_iff, Bool.and_eq_false_iff, decide_eq_false_iff_not]
    omega
  · decide

theorem ne_of_isNumeral {c d : Char} (h : isNumeral c) (hd : isNumeral d = false) : c ≠ d := by
  rintro rfl
  rw [hd] at h
  cases h

theorem isNumeral_natText (n : Nat) : ∀ c ∈ Decimal.natText n, isNumeral c :=
  fun _ hc => isNumeral_of_isDigit (Decimal.isDigit_natText hc)

theorem isNumeral_hundredthsText (n : Nat) : ∀ c ∈ Decimal.hundredthsText n, isNumeral c := by
  intro c hc
  rw [Decimal.hundredthsText, List.mem_append] at hc
  obtain hc | hc := hc
  · exact isNumeral_natText _ c hc
  · simp only [List.mem_cons, List.not_mem_nil, or_false] at hc
    obtain rfl | rfl | rfl := hc
    · decide
    · exact isNumeral_of_isDigit (Decimal.isDigit_digitChar (Nat.mod_lt _ (by decide)))
    · exact isNumeral_of_isDigit (Decimal.isDigit_digitChar (Nat.mod_lt _ (by decide)))

theorem strip_of_isNumeral {cs : List Char} (h : ∀ c ∈ cs, isNumeral c) : strip cs = cs :=
  strip_of_not_isSpace (fun c hc => isSpace_of_isNumeral (h c hc))

theorem signed_of_isNumeral {α : Type} [Neg α] (read : List Char → Option α) {cs : List Char}
    (h : ∀ c ∈ cs, isNumeral c) : signed? read cs = read cs := by
  rw [signed?]
  · rintro ds rfl
    exact ne_of_isNumeral (h '-' (List.mem_cons_self ..)) (d := '-') (by decide) rfl
  · rintro ds rfl
    exact ne_of_isNumeral (h '+' (List.mem_cons_self ..)) (d := '+') (by decide) rfl

theorem int_natText (n : Nat) : int? (Decimal.natText n) = some (n : Int) := by
  have h := isNumeral_natText n
  rw [int?, strip_of_isNumeral h, signed_of_isNumeral _ h, Decimal.natOf_natText]
  rfl

theorem scientific_of_isNumeral {cs : List Char} (h : ∀ c ∈ cs, isNumeral c) :
    scientific? cs = Decimal.decimalOf? cs := by
  have hspan : cs.span (fun c => c ≠ 'e' && c ≠ 'E') = (cs, []) := by
    rw [List.span_eq_takeWhile_dropWhile, List.takeWhile_eq_self_iff.mpr, List.dropWhile_eq_nil_iff.mpr]
    all_goals
      intro c hc
      simp [ne_of_isNumeral (h c hc) (d := 'e') (by decide), ne_of_isNumeral (h c hc) (d := 'E') (by decide)]
  rw [scientific?, hspan]

theorem float_hundredthsText (n : Nat) : float? (Decimal.hundredthsText n) = some (n / 100 : ℚ) := by
  have h := isNumeral_hundredthsText n
  rw [float?, strip_of_isNumeral h, signed_of_isNumeral _ h, scientific_of_isNumeral h,
    Decimal.decimalOf_hundredthsText]

end DcBench.Lib.PythonText
