import DcBench.Lib.Binary64
import DcBench.Lib.Decimal
import Mathlib.Algebra.Order.Group.Unbundled.Abs

namespace DcBench.Lib.PythonFormat

abbrev Text := List Char

def intText (n : Int) : Text := (if n < 0 then ['-'] else []) ++ Decimal.natText n.natAbs

/-- The width specifications `<w`, `>w` and `^w`. -/
def left (w : Nat) (cs : Text) : Text := cs ++ List.replicate (w - cs.length) ' '

def right (w : Nat) (cs : Text) : Text := List.replicate (w - cs.length) ' ' ++ cs

def center (w : Nat) (cs : Text) : Text :=
  let pad := w - cs.length
  List.replicate (pad / 2) ' ' ++ cs ++ List.replicate (pad - pad / 2) ' '

/-- The format `.nf`: the number rounded to `places` digits after the point. -/
def fixed (places : Nat) (q : ℚ) : Text :=
  let n := (Binary64.halfEven (|q| * 10 ^ places)).toNat
  let digits := Decimal.natText (n % 10 ^ places)
  (if q < 0 then ['-'] else []) ++ Decimal.natText (n / 10 ^ places) ++
    if places = 0 then [] else '.' :: (List.replicate (places - digits.length) '0' ++ digits)

/-- The format `+.nf`. -/
def signedFixed (places : Nat) (q : ℚ) : Text := (if q < 0 then [] else ['+']) ++ fixed places q

/-- A missing number is `nan`. -/
def fixedNan (places : Nat) (q : Option ℚ) : Text := (q.map (fixed places)).getD "nan".toList

def join (sep : Text) (parts : List Text) : Text := sep.intercalate parts

theorem join_cons (sep t : Text) (parts : List Text) :
    join sep (t :: parts) = t ++ parts.flatMap (fun part => sep ++ part) := by
  induction parts generalizing t with
  | nil => simp [join]
  | cons u parts ih =>
    have hjoin := ih u
    rw [join] at hjoin ⊢
    rw [List.intercalate_cons_cons, hjoin, List.flatMap_cons, List.append_assoc, List.append_assoc]

end DcBench.Lib.PythonFormat
