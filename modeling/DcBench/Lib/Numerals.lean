import Mathlib.Algebra.GroupWithZero.Nat
import Mathlib.Data.Nat.Cast.Defs

namespace DcBench.Lib.Numerals

-- The side conditions of the numerals that definitions of several modules share.
-- Without a name each module would have its own copies of these proofs.
instance (priority := 2000) neZero_one : NeZero (1 : Nat) := ⟨by decide⟩

instance (priority := 2000) neZero_two : NeZero (2 : Nat) := ⟨by decide⟩

instance (priority := 2000) atLeastTwo_ten : Nat.AtLeastTwo 10 := ⟨by decide⟩

instance (priority := 2000) atLeastTwo_thousand : Nat.AtLeastTwo 1000 := ⟨by decide⟩

end DcBench.Lib.Numerals
