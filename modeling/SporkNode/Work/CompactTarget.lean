import SporkNode.Text.Quoted
import SporkNode.Work.Target

/-!
Targets in 32 bits: eight bits of exponent, a sign, and 23 bits of mantissa, standing for
mantissa · 256^(exponent - 3). Writing drops the digits that the mantissa cannot hold, so a target
that was written and read back can only have become smaller.
-/

namespace SporkNode.Work

structure CompactTarget where
  word : UInt32
  deriving DecidableEq, Repr

/-- A compact target read back. The target is that of the magnitude, cut to 256 bits. -/
structure DecodedTarget where
  target : Target
  negative : Bool
  overflow : Bool
  deriving DecidableEq, Repr

def DecodedTarget.isValid (d : DecodedTarget) : Bool :=
  !d.negative && !d.overflow && d.target ≠ 0

namespace CompactTarget

def exponent (c : CompactTarget) : Nat := c.word.toNat / 0x1000000

def mantissa (c : CompactTarget) : Nat := c.word.toNat % 0x800000

def signBit (c : CompactTarget) : Bool := c.word.toNat / 0x800000 % 2 = 1

/-- The part of the mantissa that stands left of the point. -/
def digits (c : CompactTarget) : Nat :=
  if c.exponent ≤ 3 then c.mantissa >>> (8 * (3 - c.exponent)) else c.mantissa

def decode (c : CompactTarget) : DecodedTarget :=
  let size := c.exponent
  let digits := c.digits
  { target :=
      if size ≤ 3 then .ofNat digits else Target.shiftLeft (.ofNat digits) (8 * (size - 3))
    negative := digits ≠ 0 && c.signBit
    overflow := digits ≠ 0 &&
      (34 < size || (0xff < digits && 33 < size) || (0xffff < digits && 32 < size)) }

/-- The target without its flags. -/
def toTarget (c : CompactTarget) : Target := c.decode.target

def ofParts (size digits : Nat) (negative : Bool) : CompactTarget :=
  let sign := if negative && digits ≠ 0 then 0x800000 else 0
  ⟨UInt32.ofNat (size * 0x1000000 + sign + digits)⟩

/-- The three leading bytes are the mantissa; one whose top bit is set, where the sign belongs,
gives up a byte to the exponent. -/
def encode (t : Target) (negative : Bool) : CompactTarget :=
  let size := (t.bitLength + 7) / 8
  let digits :=
    if size ≤ 3 then t.toNat <<< (8 * (3 - size)) else (t.shiftRight (8 * (size - 3))).toNat
  if 0x800000 ≤ digits then ofParts (size + 1) (digits / 256) negative
  else ofParts size digits negative

def ofTarget (t : Target) : CompactTarget := encode t false

def display (c : CompactTarget) : String := Text.hexPadded 8 c.word.toNat

end CompactTarget

end SporkNode.Work
