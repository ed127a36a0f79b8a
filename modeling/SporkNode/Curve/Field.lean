/-!
The coordinate field and the scalars of the curve y² = x³ + 7. Both moduli are prime, so a power
inverts and, the field's prime being 3 modulo 4, another power takes square roots.
-/

namespace SporkNode.Curve

def fieldPrime : Nat := 0xfffffffffffffffffffffffffffffffffffffffffffffffffffffffefffffc2f

def order : Nat := 0xfffffffffffffffffffffffffffffffebaaedce6af48a03bbfd25e8cd0364141

instance : @NeZero Nat Zero.ofOfNat0 fieldPrime := ⟨Nat.ne_of_beq_eq_false rfl⟩

instance : @NeZero Nat Zero.ofOfNat0 order := ⟨Nat.ne_of_beq_eq_false rfl⟩

abbrev Field := Fin fieldPrime

abbrev Scalar := Fin order

/-- `n` copies of `x` combined, by halving `n`. -/
def repeated (combine : α → α → α) (unit x : α) (n : Nat) : α :=
  if n = 0 then unit
  else
    let half := repeated combine unit (combine x x) (n / 2)
    if n % 2 = 1 then combine x half else half
termination_by n

def Field.power (x : Field) (n : Nat) : Field := repeated (· * ·) 1 x n

/-- The inverse, and zero for zero. -/
def Field.inverse (x : Field) : Field := Field.power x (fieldPrime - 2)

def Field.sqrt? (x : Field) : Option Field :=
  let y := Field.power x ((fieldPrime + 1) / 4)
  if y * y = x then some y else none

def Scalar.inverse (x : Scalar) : Scalar := repeated (· * ·) 1 x (order - 2)

end SporkNode.Curve
