import SporkNode.Curve.Point
import SporkNode.Hash

/-!
The operations that signatures rest on. A raw signature carries, beside its two scalars, which of
the candidate nonce points it came from, so that the signer's key can be recovered from it.
-/

namespace SporkNode.Signature

open Curve

structure RawSignature where
  r : Nat
  s : Nat
  oddY : Bool
  reducedX : Bool
  deriving DecidableEq, Repr

structure Secret where
  scalar : Nat
  pos : 0 < scalar
  lt_order : scalar < order
  deriving DecidableEq

namespace Secret

def ofNat? (n : Nat) : Option Secret :=
  if h : 0 < n ∧ n < order then some ⟨n, h.1, h.2⟩ else none

def ofBytes? (b : Bytes) : Option Secret := ofNat? (Bytes.toNatBig b)

def toBytes (k : Secret) : Bytes := Bytes.ofNatBig 32 k.scalar

end Secret

class Scheme where
  publicPoint : Secret → Point
  sign : Secret → Hash → Option RawSignature
  recover : Hash → RawSignature → Option Point

end SporkNode.Signature
