import DcBench.Lib.Decimal
import Mathlib.Data.List.TakeWhile

namespace DcBench.Lib.CommandLine

open DcBench.Lib

/-- The words of a command line, as a shell splits one without quotes. -/
def words (line : List Char) : List (List Char) := (line.splitOn ' ').filter (fun w => w ≠ [])

/-- What `std::stoi` and its kind throw. -/
inductive StdException
  | invalidArgument
  | outOfRange
  deriving DecidableEq, Repr

def isSpace (c : Char) : Bool := c = ' ' || (9 ≤ c.toNat && c.toNat ≤ 13)

/-- The sign in front of a number. -/
def sign : List Char → Int × List Char
  | '-' :: cs => (-1, cs)
  | '+' :: cs => (1, cs)
  | cs => (1, cs)

/-- `std::stoi`: the number at the start of the text, after any spaces. What
follows the digits is ignored. -/
def stoi (cs : List Char) : Except StdException Int :=
  let (s, cs) := sign (cs.dropWhile isSpace)
  let ds := cs.takeWhile Char.isDigit
  let x := s * Nat.ofDigitChars 10 ds 0
  if ds = [] then .error .invalidArgument
  else if -2 ^ 31 ≤ x ∧ x < 2 ^ 31 then .ok x
  else .error .outOfRange

theorem words_intercalate {ws : List (List Char)} (h : ∀ w ∈ ws, w ≠ [] ∧ ' ' ∉ w) :
    words ([' '].intercalate ws) = ws := by
  cases ws with
  | nil => rfl
  | cons w ws =>
    rw [words, List.splitOn_intercalate ' ' (fun v hv => (h v hv).2) (List.cons_ne_nil _ _), List.filter_eq_self]
    intro v hv
    rw [decide_eq_true_iff]
    exact (h v hv).1

theorem ne_of_isDigit {c d : Char} (h : c.isDigit) (hd : d.isDigit = false) : c ≠ d := by
  rintro rfl
  rw [hd] at h
  cases h

theorem isSpace_of_isDigit {c : Char} (h : c.isDigit) : isSpace c = false := by
  have hrange := Decimal.isDigit_range h
  have hblank : c ≠ ' ' := ne_of_isDigit h rfl
  simp only [isSpace, hblank, decide_false, Bool.false_or, Bool.and_eq_false_iff, decide_eq_false_iff_not]
  omega

theorem dropWhile_natText (n : Nat) : (Decimal.natText n).dropWhile isSpace = Decimal.natText n := by
  rw [List.dropWhile_eq_self_iff]
  intro hne
  rw [isSpace_of_isDigit (Decimal.isDigit_natText (List.getElem_mem hne))]
  decide

theorem sign_natText (n : Nat) : sign (Decimal.natText n) = (1, Decimal.natText n) := by
  rw [sign]
  · intro cs h
    have hc : '-' ∈ Decimal.natText n := h ▸ List.mem_cons_self ..
    exact ne_of_isDigit (Decimal.isDigit_natText hc) (d := '-') rfl rfl
  · intro cs h
    have hc : '+' ∈ Decimal.natText n := h ▸ List.mem_cons_self ..
    exact ne_of_isDigit (Decimal.isDigit_natText hc) (d := '+') rfl rfl

theorem stoi_natText (n : Nat) :
    stoi (Decimal.natText n) = if n < 2 ^ 31 then .ok (n : Int) else .error .outOfRange := by
  have hdigits : (Decimal.natText n).takeWhile Char.isDigit = Decimal.natText n := by
    rw [List.takeWhile_eq_self_iff]
    exact fun c hc => Decimal.isDigit_natText hc
  have hvalue : Nat.ofDigitChars 10 (Decimal.natText n) 0 = n := Nat.ofDigitChars_ten_toDigits
  rw [stoi, dropWhile_natText, sign_natText]
  simp only [hdigits, hvalue, Decimal.natText_ne_nil, if_false, one_mul]
  split_ifs
  all_goals first | rfl | omega

end DcBench.Lib.CommandLine
