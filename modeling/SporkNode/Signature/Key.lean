import SporkNode.Signature.Ecdsa

/-!
Keys with the form in which they are written out. A public key takes 33 bytes, a parity tag and
x, or 65 bytes, a tag and both coordinates; its length fixes its form.
-/

namespace SporkNode.Signature

open Curve

structure PublicKey where
  point : Point
  compressed : Bool
  deriving DecidableEq, Repr

namespace PublicKey

def fieldOf? (b : Bytes) : Option Field :=
  let n := Bytes.toNatBig b
  if n < fieldPrime then some (Fin.ofNat fieldPrime n) else none

def toBytes (k : PublicKey) : Bytes :=
  let x := Bytes.ofNatBig 32 k.point.x.val
  if k.compressed then (if k.point.oddY then 0x03 else 0x02) :: x
  else 0x04 :: x ++ Bytes.ofNatBig 32 k.point.y.val

/-- Tag 5 is a key given by x alone; its y is the even one. -/
def ofCompressed? (tag : UInt8) (x : Bytes) : Option Point := do
  let x ← fieldOf? x
  if tag = 0x02 ∨ tag = 0x05 then Point.lift? x false
  else if tag = 0x03 then Point.lift? x true
  else none

def ofUncompressed? (tag : UInt8) (coordinates : Bytes) : Option Point := do
  let p : Point := ⟨← fieldOf? (coordinates.take 32), ← fieldOf? (coordinates.drop 32)⟩
  if tag = 0x04 ∧ p.onCurve then some p else none

def ofBytes? : Bytes → Option PublicKey
  | [] => none
  | tag :: rest =>
    if rest.length = 32 then (ofCompressed? tag rest).map (⟨·, true⟩)
    else if rest.length = 64 then (ofUncompressed? tag rest).map (⟨·, false⟩)
    else none

end PublicKey

structure KeyPair where
  secret : Secret
  compressed : Bool
  deriving DecidableEq

def KeyPair.publicKey [Scheme] (k : KeyPair) : PublicKey :=
  ⟨Scheme.publicPoint k.secret, k.compressed⟩

end SporkNode.Signature
