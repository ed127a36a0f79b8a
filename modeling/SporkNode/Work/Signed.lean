import SporkNode.Work.Params

/-!
Signed numbers of 64 bits, in which times are kept. A difference or a product of times may not fit
in them. What becomes of it depends on how the program is built: the computation ends in a fault, or
the number wraps around. The rules are given for both.
-/

namespace SporkNode.Work

/-- Numbers from zero to below this fit in 64 bits that include a sign. -/
def signedSize : Int := 0x8000000000000000

/-- A signed number of 64 bits can hold `n`. -/
def FitsSigned (n : Int) : Prop := -signedSize ≤ n ∧ n < signedSize

instance decidableFitsSigned (n : Int) : Decidable (FitsSigned n) :=
  inferInstanceAs (Decidable (-signedSize ≤ n ∧ n < signedSize))

/-- What becomes of a signed number that does not fit. -/
inductive Overflow
  | faults
  | wraps
  deriving DecidableEq, Repr

/-- A difference or a product, as a signed number of 64 bits. -/
def Overflow.signed (o : Overflow) (n : Int) : Except WorkError Int :=
  if FitsSigned n then .ok n
  else
    match o with
    | .faults => .error (.undefined .overflow)
    | .wraps => .ok (n.bmod UInt64.size)

end SporkNode.Work
