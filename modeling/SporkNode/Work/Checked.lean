import SporkNode.Work.Required

/-!
The wave with its divisions checked. `Target.divide` gives zero for a quotient by zero, where a
program ends in a fault. Here each quotient of the wave is computed with that fault; all else is as
in the rules.
-/

namespace SporkNode.Work.Checked

def quotient (t : Target) (n : Nat) : Except WorkError Target :=
  if Target.ofNat n = 0 then .error (.undefined .divisionByZero) else .ok (t.divide n)

def push (s : Series) (block : Block) (target : Target) : Except WorkError Series := do
  let count := s.count + 1
  let average ← quotient (s.average.scale (count - 1) + target) count
  return ⟨count, average, block⟩

def visit (s : Survey) (tag : Int32) : Except WorkError Survey := do
  let block := s.cursor
  let target ← quotient block.bits.toTarget (efficiencyOf block.version block.height)
  let matching := algorithmTag block.version = tag
  let own ← if matching then push s.own block target else pure s.own
  let chain ← push s.chain block target
  return {
    cursor := block
    chain := chain
    chainFast := if chain.count ≤ Wave.fastBlocks then chain else s.chainFast
    own := own
    ownFast := if matching ∧ own.count ≤ Wave.fastOwn then own else s.ownFast }

def walk (w : Window) (tag : Int32) : List Block → Survey → Except WorkError Survey
  | [], s =>
    if s.goesOn w then do
      let s ← visit s tag
      if s.chain.count = w.blocks then return s
      else throw (.ancestorMissing s.cursor.height)
    else return s
  | older :: rest, s =>
    if s.goesOn w then do
      let s ← visit s tag
      if s.chain.count = w.blocks then return s else walk w tag rest { s with cursor := older }
    else return s

def survey (params : ChainParams) (w : Window) (tip : Block) (history : List Block)
    (candidate : Candidate) (o : Overflow) : Except WorkError Survey := do
  let s ← walk w (algorithmTag candidate.version) history (.start tip)
  let gap ← o.signed (tip.time - s.chainFast.earliest.time)
  return s.defended gap params.spacing

def scaleByTime (target : Target) (actual expected : Int) (o : Overflow) :
    Except WorkError Target := do
  let most ← o.signed (2 * expected)
  let actual ← clamp actual 1 most
  quotient (target.scale (unsignedWord actual)) (unsignedWord expected)

def ownTarget (params : ChainParams) (factor : Int) (tip : Block) (s : Survey) (o : Overflow) :
    Except WorkError Target :=
  if 1 < s.own.count then do
    let gap ← o.signed (tip.time - s.ownFast.earliest.time)
    let round ← o.signed (params.spacing * factor)
    let own := s.ownDefended gap round
    let expected ← o.signed (own.count * params.spacing)
    let expected ← o.signed (expected * factor)
    let actual ← o.signed (tip.time - own.earliest.time)
    scaleByTime own.average actual expected o
  else return params.powLimit

def limited (powLimit target : Target) (efficiency : Nat) : Except WorkError Target := do
  let bound ← quotient powLimit efficiency
  return if target < bound then target.scale efficiency else powLimit

def applyHandbrake (target : Target) (force : UInt32) (powLimit : Target) :
    Except WorkError Target :=
  if powLimit.scale force.toNat < target ∨ force = 0 then return powLimit
  else quotient target force.toNat

def targetOf (params : ChainParams) (network : NetworkParameters) (tip : Block)
    (candidate : Candidate) (s : Survey) (o : Overflow) : Except WorkError Target := do
  let factor := interleave (fixActive tip.height params network)
  let own ← ownTarget params factor tip s o
  let expected ← o.signed (s.chain.count * params.spacing)
  let actual ← o.signed (tip.time - s.cursor.time)
  let scaled ← scaleByTime own actual expected o
  let next := tip.height + 1
  let target ← limited params.powLimit scaled (efficiencyOf candidate.version next)
  applyHandbrake target (handbrakeForce candidate.version next params network) params.powLimit

def nextTarget (params : ChainParams) (network : NetworkParameters) (tip : Block)
    (history : List Block) (candidate : Candidate) (o : Overflow) :
    Except WorkError CompactTarget :=
  match Wave.plan params network tip with
  | .keep => return tip.bits
  | .bootstrap => return params.limitBits
  | .average w => do
    let s ← survey params w tip history candidate o
    return .ofTarget (← targetOf params network tip candidate s o)

/-- The decay divides once, with its own check. -/
def nextWork (params : ChainParams) (network : NetworkParameters) (tip : Block)
    (history : List Block) (candidate : Candidate) (o : Overflow) :
    Except WorkError CompactTarget := do
  let bits ← nextTarget params network tip history candidate o
  Decay.apply params (fixActive tip.height params network) tip candidate bits o

end SporkNode.Work.Checked
