import SporkNode.Signature.Nonce

/-!
The scheme over the curve. Recovery answers only with a key under which the signature also
verifies, and verification takes just the lower of the two values that s may have.
-/

namespace SporkNode.Signature

open Curve

namespace Ecdsa

/-- Digests are read most significant byte first. -/
def scalarOf (digest : Hash) : Scalar := Fin.ofNat order (Bytes.toNatBig digest.bytes)

def isHigh (s : Nat) : Bool := order / 2 < s

def publicPoint (k : Secret) : Point := (generator.multiple k.scalar).toPoint

def sign (k : Secret) (digest : Hash) : Option RawSignature := do
  let n ← nonce? k digest
  let point := (generator.multiple n).toPoint
  let r := Fin.ofNat order point.x.val
  let s := Scalar.inverse (Fin.ofNat order n) * (scalarOf digest + r * Fin.ofNat order k.scalar)
  if r = 0 ∨ s = 0 then none
  else some ⟨r.val, s.val, point.oddY, order ≤ point.x.val⟩

def verify (key : Point) (digest : Hash) (sig : RawSignature) : Bool :=
  let r : Scalar := Fin.ofNat order sig.r
  let w := Scalar.inverse (Fin.ofNat order sig.s)
  let sum := (generator.multiple (w * scalarOf digest).val).add (key.multiple (w * r).val)
  !isHigh sig.s && !sum.isNeutral && sum.toPoint.x.val % order = sig.r

/-- The x coordinate that a signature's r came from. -/
def nonceX? (sig : RawSignature) : Option Field :=
  let x := if sig.reducedX then sig.r + order else sig.r
  if x < fieldPrime then some (Fin.ofNat fieldPrime x) else none

def recover (digest : Hash) (sig : RawSignature) : Option Point := do
  let point ← Point.lift? (← nonceX? sig) sig.oddY
  let w := Scalar.inverse (Fin.ofNat order sig.r)
  let sum := (generator.multiple (-(w * scalarOf digest)).val).add
    (point.multiple (w * Fin.ofNat order sig.s).val)
  if sum.isNeutral then none
  else
    let key := sum.toPoint
    if verify key digest sig then some key else none

end Ecdsa

instance : Scheme := ⟨Ecdsa.publicPoint, Ecdsa.sign, Ecdsa.recover⟩

end SporkNode.Signature
