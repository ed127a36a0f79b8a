import SporkNode.Curve.Field

/-!
Points of the curve. Sums are computed on weighted coordinates, which put off the divisions:
`⟨x, y, z⟩` stands for the point (x / z², y / z³), and z = 0 marks the neutral element.
-/

namespace SporkNode.Curve

structure Point where
  x : Field
  y : Field
  deriving DecidableEq, Repr

def Point.onCurve (p : Point) : Bool := p.y * p.y = p.x * p.x * p.x + 7

def Point.oddY (p : Point) : Bool := p.y.val % 2 = 1

/-- The point over `x` whose y has the given parity. -/
def Point.lift? (x : Field) (odd : Bool) : Option Point :=
  (Field.sqrt? (x * x * x + 7)).map fun y => ⟨x, if (y.val % 2 = 1) = odd then y else -y⟩

def generator : Point :=
  ⟨0x79be667ef9dcbbac55a06295ce870b07029bfcdb2dce28d959f2815b16f81798,
   0x483ada7726a3c4655da4fbfc0e1108a8fd17b448a68554199c47d08ffb10d4b8⟩

structure Weighted where
  x : Field
  y : Field
  z : Field
  deriving DecidableEq, Repr

namespace Weighted

def neutral : Weighted := ⟨1, 1, 0⟩

def ofPoint (p : Point) : Weighted := ⟨p.x, p.y, 1⟩

/-- The point; the neutral element, which has no coordinates, gives zeros. -/
def toPoint (p : Weighted) : Point :=
  let w := Field.inverse p.z
  ⟨p.x * (w * w), p.y * (w * w * w)⟩

def isNeutral (p : Weighted) : Bool := p.z = 0

def double (p : Weighted) : Weighted :=
  let yy := p.y * p.y
  let s := 4 * p.x * yy
  let m := 3 * p.x * p.x
  let x := m * m - 2 * s
  ⟨x, m * (s - x) - 8 * yy * yy, 2 * p.y * p.z⟩

def add (p q : Weighted) : Weighted :=
  if p.isNeutral then q
  else if q.isNeutral then p
  else
    let pzz := p.z * p.z
    let qzz := q.z * q.z
    let u₁ := p.x * qzz
    let u₂ := q.x * pzz
    let s₁ := p.y * qzz * q.z
    let s₂ := q.y * pzz * p.z
    if u₁ = u₂ then if s₁ = s₂ then p.double else neutral
    else
      let h := u₂ - u₁
      let r := s₂ - s₁
      let hh := h * h
      let hhh := hh * h
      let v := u₁ * hh
      let x := r * r - hhh - 2 * v
      ⟨x, r * (v - x) - s₁ * hhh, h * p.z * q.z⟩

end Weighted

def Point.multiple (p : Point) (n : Nat) : Weighted :=
  repeated Weighted.add .neutral (.ofPoint p) n

end SporkNode.Curve
