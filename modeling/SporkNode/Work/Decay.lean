import SporkNode.Log
import SporkNode.Work.Wave

/-!
Emergency decay: when no block comes for a while, each further double spacing halves the work,
down to the limit, so that a chain that lost its miners moves on. A target of zero has no double.
-/

namespace SporkNode.Work

namespace Decay

/-- Halvings owed to a candidate; none if not positive. The divisor is even, so the quotient is at
most half of what fits, and the rest cannot overflow. -/
def halvings (params : ChainParams) (fixActive : Bool) (tip : Block) (candidate : Candidate)
    (o : Overflow := .faults) : Except WorkError Int := do
  let gap ← o.signed (candidate.time - tip.time)
  let double ← o.signed (2 * params.spacing)
  if double = 0 then throw (.undefined .divisionByZero)
  return gap.tdiv double - interleave fixActive + 1

/-- Shift amounts are 32-bit words; a count that is none gives the greatest. -/
def shiftAmount (n : Int) : Nat :=
  if 0 ≤ n ∧ n < UInt32.size then n.toNat else UInt32.size - 1

/-- The target doubled `n` times, unless that passes the limit. -/
def relaxed (params : ChainParams) (target : Target) (n : Nat) : Target :=
  if params.allowMinDifficulty ∨ params.powLimit.shiftRight n < target then params.powLimit
  else target.shiftLeft n

def apply (params : ChainParams) (fixActive : Bool) (tip : Block) (candidate : Candidate)
    (bits : CompactTarget) (o : Overflow := .faults) : Except WorkError CompactTarget := do
  let n ← halvings params fixActive tip candidate o
  if n ≤ 0 then return bits
  else return .ofTarget (relaxed params bits.toTarget (shiftAmount n))

def log (params : ChainParams) (fixActive : Bool) (tip : Block) (candidate : Candidate)
    (bits : CompactTarget) (o : Overflow := .faults) : List Log.Entry :=
  match halvings params fixActive tip candidate o with
  | .ok n =>
    if n ≤ 0 then []
    else
      [⟨.debug, "Emergency difficulty decay",
        [("height", .number (tip.height + 1)), ("halvings", .number n),
         ("from", .text bits.display)]⟩]
  | .error _ => []

end Decay

end SporkNode.Work
