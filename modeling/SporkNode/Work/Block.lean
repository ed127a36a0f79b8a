import SporkNode.Hash
import SporkNode.Work.Signed

/-!
Blocks as the rules see them. The rules look backwards only, so a chain is given to them as a tip
and the blocks before it, newest first.
-/

namespace SporkNode.Work

structure Block where
  hash : Hash
  parent? : Option Hash
  height : Nat
  version : Int32
  time : Int
  bits : CompactTarget
  deriving DecidableEq

/-- The block at `height` among `b` and those before it, or the first below it. -/
def Block.ancestor? (b : Block) (history : List Block) (height : Nat) : Option Block :=
  if b.height < height then none else (b :: history).find? (·.height ≤ height)

/-- What the rules need to know of a block that is yet to be found. -/
structure Candidate where
  version : Int32
  time : Int
  deriving DecidableEq, Repr

/-- A height as a signed number of 64 bits, the form in which it is compared with settings. -/
def signedHeight (height : Nat) : Int := Int.bmod height UInt64.size

/-- An integer in the 64 bits of an unsigned number. -/
def unsignedWord (n : Int) : Nat := (n % UInt64.size).toNat

/-- `n` brought into the closed range from `low` to `high`. -/
def clamp (n low high : Int) : Except WorkError Int :=
  if high < low then .error (.undefined .emptyRange) else .ok (max low (min n high))

/-- A hash proves the work of `bits` if these are a legal target that it does not exceed. -/
def checkProof (hash : Hash) (bits : CompactTarget) (params : ChainParams) : Bool :=
  let d := bits.decode
  d.isValid && d.target ≤ params.powLimit && hash.toNat ≤ d.target.toNat

end SporkNode.Work
