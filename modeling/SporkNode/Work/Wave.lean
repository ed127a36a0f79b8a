import SporkNode.Log
import SporkNode.Work.Handbrake

/-!
Dark Gravity Wave: every block gets a new target. One walk back from the tip keeps two running
averages, over all blocks and over those of the candidate's algorithm. The second is scaled by how
fast that algorithm has been finding blocks and then by how fast the chain as a whole has. Each
average also has a snapshot over its newest few blocks, which takes its place when these came
suspiciously close together.
-/

namespace SporkNode.Work

def fixActive (height : Nat) (params : ChainParams) (network : NetworkParameters) : Bool :=
  network.spacingFixHeight.getD params.fixHeight ≤ signedHeight height

/-- How many blocks the chain is expected to grow by for one of a given algorithm. -/
def interleave (fixActive : Bool) : Nat := if fixActive then 2 else 5

/-- The average of `n` targets of which all but the newest average `average`. -/
def runningAverage (average : Target) (n : Nat) (next : Target) : Target :=
  (average.scale (n - 1) + next).divide n

/-- `target` times `actual / expected`, with `actual` brought between one and twice `expected`. -/
def scaleByTime (target : Target) (actual expected : Int) (o : Overflow := .faults) :
    Except WorkError Target := do
  let most ← o.signed (2 * expected)
  let actual ← clamp actual 1 most
  return (target.scale (unsignedWord actual)).divide (unsignedWord expected)

structure Series where
  count : Nat
  average : Target
  /-- The oldest block averaged, or the tip. -/
  earliest : Block
  deriving DecidableEq

namespace Series

def start (tip : Block) : Series := ⟨0, 0, tip⟩

def push (s : Series) (block : Block) (target : Target) : Series :=
  ⟨s.count + 1, runningAverage s.average (s.count + 1) target, block⟩

end Series

/-- How far a walk has come. -/
structure Survey where
  cursor : Block
  chain : Series
  chainFast : Series
  own : Series
  ownFast : Series
  deriving DecidableEq

/-- Where a walk stops. -/
structure Window where
  blocks : Nat
  own : Nat
  deriving DecidableEq, Repr

namespace Wave

def fastOwn : Nat := 5

def fastBlocks : Nat := 10

inductive Plan
  | keep
  | bootstrap
  | average (window : Window)
  deriving DecidableEq, Repr

/-- The window in full is a day of blocks, or before the spacing fix a hundred rounds; a chain
shorter than that is averaged whole, and a very short one not at all. -/
def plan (params : ChainParams) (network : NetworkParameters) (tip : Block) : Plan :=
  if params.noRetargeting then .keep
  else
    let fixed := fixActive tip.height params network
    let own := fastOwn * interleave fixed
    let blocks := if fixed then 576 else fastBlocks * interleave fixed * 100
    if tip.height < blocks then
      if tip.height < own then .bootstrap else .average ⟨tip.height, own⟩
    else .average ⟨blocks, own⟩

end Wave

namespace Survey

def start (tip : Block) : Survey :=
  let s := Series.start tip
  ⟨tip, s, s, s, s⟩

def goesOn (s : Survey) (w : Window) : Bool := s.chain.count < w.blocks && s.own.count < w.own

/-- Count the block at the cursor. -/
def visit (s : Survey) (tag : Int32) : Survey :=
  let block := s.cursor
  let target := block.bits.toTarget.divide (efficiencyOf block.version block.height)
  let matching := algorithmTag block.version = tag
  let own := if matching then s.own.push block target else s.own
  let chain := s.chain.push block target
  { cursor := block
    chain := chain
    chainFast := if chain.count ≤ Wave.fastBlocks then chain else s.chainFast
    own := own
    ownFast := if matching ∧ own.count ≤ Wave.fastOwn then own else s.ownFast }

/-- The cursor ends on the last block counted if that filled the window, else on the one before
it. -/
def walk (w : Window) (tag : Int32) : List Block → Survey → Except WorkError Survey
  | [], s =>
    if s.goesOn w then
      let s := s.visit tag
      if s.chain.count = w.blocks then .ok s else .error (.ancestorMissing s.cursor.height)
    else .ok s
  | older :: rest, s =>
    if s.goesOn w then
      let s := s.visit tag
      if s.chain.count = w.blocks then .ok s else walk w tag rest { s with cursor := older }
    else .ok s

/-- A burst of blocks on the chain, in less than half a spacing, leaves only the burst to be looked
at. -/
def defended (s : Survey) (gap spacing : Int) : Survey :=
  if gap < spacing.tdiv 2 then { s with chain := s.chainFast, cursor := s.chainFast.earliest }
  else s

/-- The same for a burst of the candidate's algorithm, which is to take its `round`. -/
def ownDefended (s : Survey) (gap round : Int) : Series :=
  if gap < round.tdiv 2 then s.ownFast else s.own

end Survey

namespace Wave

/-- The walk from `tip` over the blocks before it. -/
def survey (params : ChainParams) (w : Window) (tip : Block) (history : List Block)
    (candidate : Candidate) (o : Overflow := .faults) : Except WorkError Survey := do
  let s ← Survey.walk w (algorithmTag candidate.version) history (.start tip)
  let gap ← o.signed (tip.time - s.chainFast.earliest.time)
  return s.defended gap params.spacing

def ownTarget (params : ChainParams) (factor : Int) (tip : Block) (s : Survey)
    (o : Overflow := .faults) : Except WorkError Target :=
  if 1 < s.own.count then do
    let gap ← o.signed (tip.time - s.ownFast.earliest.time)
    let round ← o.signed (params.spacing * factor)
    let own := s.ownDefended gap round
    let expected ← o.signed (own.count * params.spacing)
    let expected ← o.signed (expected * factor)
    let actual ← o.signed (tip.time - own.earliest.time)
    scaleByTime own.average actual expected o
  else .ok params.powLimit

def limited (powLimit target : Target) (efficiency : Nat) : Target :=
  if target < powLimit.divide efficiency then target.scale efficiency else powLimit

def targetOf (params : ChainParams) (network : NetworkParameters) (tip : Block)
    (candidate : Candidate) (s : Survey) (o : Overflow := .faults) : Except WorkError Target := do
  let factor := interleave (fixActive tip.height params network)
  let own ← ownTarget params factor tip s o
  let expected ← o.signed (s.chain.count * params.spacing)
  let actual ← o.signed (tip.time - s.cursor.time)
  let scaled ← scaleByTime own actual expected o
  let next := tip.height + 1
  let target := limited params.powLimit scaled (efficiencyOf candidate.version next)
  return applyHandbrake target (handbrakeForce candidate.version next params network)
    params.powLimit

def nextTarget (params : ChainParams) (network : NetworkParameters) (tip : Block)
    (history : List Block) (candidate : Candidate) (o : Overflow := .faults) :
    Except WorkError CompactTarget :=
  match plan params network tip with
  | .keep => .ok tip.bits
  | .bootstrap => .ok params.limitBits
  | .average w => do
    let s ← survey params w tip history candidate o
    return .ofTarget (← targetOf params network tip candidate s o)

def log (params : ChainParams) (network : NetworkParameters) (tip : Block)
    (history : List Block) (candidate : Candidate) (o : Overflow := .faults) : List Log.Entry :=
  match plan params network tip with
  | .keep => []
  | .bootstrap =>
    [⟨.trace, "Bootstrap window, using pow limit", [("height", .number tip.height)]⟩]
  | .average w =>
    match survey params w tip history candidate o with
    | .error _ => []
    | .ok s =>
      [⟨.trace, "DGW window",
        [("height", .number (tip.height + 1)), ("blocks", .number s.chain.count),
         ("algo_blocks", .number s.own.count), ("average", .text s.chain.average.decimal)]⟩]

end Wave

end SporkNode.Work
