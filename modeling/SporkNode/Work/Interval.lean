import SporkNode.Log
import SporkNode.Work.Block

/-!
Interval retargeting: the target moves once in an interval of blocks, by the ratio of the time
the interval took to the time it should have taken. Between, it stays, except that a network may
let late blocks be found at the limit; the blocks after them go back to the target before.
-/

namespace SporkNode.Work

namespace Interval

/-- The time taken, bounded on both sides by the adjustment ratios. -/
def actualTime (params : ChainParams) (tip : Block) (firstTime : Int) (o : Overflow := .faults) :
    Except WorkError Int := do
  let elapsed ← o.signed (tip.time - firstTime)
  if params.maxAdjustDown = 0 then throw (.undefined .divisionByZero)
  let most ← o.signed (params.timespan * params.maxAdjustUp)
  clamp elapsed (params.timespan.tdiv params.maxAdjustDown) most

/-- A target about as wide as the limit is halved first, so that the product keeps its top bit. -/
def scaled (params : ChainParams) (target : Target) (actual : Int) : Target :=
  let wide := params.powLimit.bitLength - 1 < target.bitLength
  let scale (t : Target) :=
    (t.scale (unsignedWord actual)).divide (unsignedWord params.timespan)
  let moved := if wide then (scale (target.shiftRight 1)).shiftLeft 1 else scale target
  if params.powLimit < moved then params.powLimit else moved

/-- The target after an interval that began at `firstTime` and ended with `tip`. -/
def adjusted (params : ChainParams) (tip : Block) (firstTime : Int) (o : Overflow := .faults) :
    Except WorkError CompactTarget :=
  if params.noRetargeting then .ok tip.bits
  else do
    let actual ← actualTime params tip firstTime o
    if params.timespan = 0 then throw (.undefined .divisionByZero)
    return .ofTarget (scaled params tip.bits.toTarget actual)

def adjustedLog (params : ChainParams) (tip : Block) (firstTime : Int) (o : Overflow := .faults) :
    List Log.Entry :=
  if params.noRetargeting || params.timespan = 0 then []
  else
    match actualTime params tip firstTime o with
    | .error _ => []
    | .ok actual =>
      [⟨.debug, "Interval retarget",
        [("height", .number (tip.height + 1)), ("actual_timespan", .number actual),
         ("before", .text tip.bits.display)]⟩]

/-- Whether a block comes more than two spacings after the tip. -/
def late (params : ChainParams) (tip : Block) (candidate : Candidate) (o : Overflow := .faults) :
    Except WorkError Bool := do
  let double ← o.signed (2 * params.spacing)
  let due ← o.signed (tip.time + double)
  return due < candidate.time

/-- The newest block that does not owe its bits to the rule for late blocks, or the oldest one
there is. -/
def lastReal (interval : Nat) (limit : CompactTarget) : Block → List Block → Block
  | b, [] => b
  | b, older :: rest =>
    if b.height % interval ≠ 0 ∧ b.bits = limit then lastReal interval limit older rest else b

inductive Step
  | keep (bits : CompactTarget)
  /-- An interval that began at this time is complete. -/
  | adjust (firstTime : Int)
  deriving DecidableEq, Repr

def step (params : ChainParams) (tip : Block) (history : List Block) (candidate : Candidate)
    (o : Overflow := .faults) : Except WorkError Step := do
  let interval ← params.adjustmentInterval
  if interval ≤ 0 then throw (.invalidParams .interval)
  let interval := interval.toNat
  let next := tip.height + 1
  if next % interval ≠ 0 then
    if !params.allowMinDifficulty then return .keep tip.bits
    else if ← late params tip candidate o then return .keep params.limitBits
    else return .keep (lastReal interval params.limitBits tip history).bits
  else if next < interval then throw (.ancestorMissing tip.height)
  else
    match tip.ancestor? history (next - interval) with
    | some first => return .adjust first.time
    | none => throw (.ancestorMissing (next - interval))

def nextTarget (params : ChainParams) (tip : Block) (history : List Block)
    (candidate : Candidate) (o : Overflow := .faults) : Except WorkError CompactTarget := do
  match ← step params tip history candidate o with
  | .keep bits => return bits
  | .adjust firstTime => adjusted params tip firstTime o

def log (params : ChainParams) (tip : Block) (history : List Block) (candidate : Candidate)
    (o : Overflow := .faults) : List Log.Entry :=
  match step params tip history candidate o with
  | .ok (.adjust firstTime) => adjustedLog params tip firstTime o
  | _ => []

end Interval

end SporkNode.Work
