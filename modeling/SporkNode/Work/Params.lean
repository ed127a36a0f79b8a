import SporkNode.Work.Algorithm
import SporkNode.Work.CompactTarget

/-!
The rules of a network: those fixed when a node starts, with the check that they are usable, and
those that the network may change while it runs.
-/

namespace SporkNode.Work

inductive Network
  | main | test | regtest
  deriving DecidableEq, Repr

inductive ParamsFault
  | unknownNetwork (name : String)
  | zeroLimit
  | spacing
  | timespan
  | adjustmentRatio
  | lowerBound
  | retirementForce
  | interval
  deriving DecidableEq, Repr

def ParamsFault.message : ParamsFault → String
  | .unknownNetwork name => "unknown network '" ++ name ++ "'"
  | .zeroLimit => "pow_limit must be non-zero"
  | .spacing => "pow_target_spacing must be positive"
  | .timespan => "pow_target_timespan must be at least one spacing"
  | .adjustmentRatio => "retarget adjustment ratios must be positive"
  | .lowerBound => "retarget lower bound rounds to zero"
  | .retirementForce => "retirement force must be non-zero"
  | .interval => "difficulty adjustment interval must be positive"

/-- Arithmetic that has no answer. As long as numbers fit, sound parameters never ask for any. -/
inductive ArithmeticFault
  | divisionByZero
  | emptyRange
  | overflow
  deriving DecidableEq, Repr

inductive WorkError
  | ancestorMissing (height : Nat)
  | invalidParams (fault : ParamsFault)
  | undefined (fault : ArithmeticFault)
  deriving DecidableEq, Repr

def WorkError.message : WorkError → String
  | .ancestorMissing height => s!"Ancestor missing: no block before height {height}"
  | .invalidParams fault => "Invalid chain parameters: " ++ fault.message
  | .undefined .divisionByZero => "division by zero"
  | .undefined .emptyRange => "empty range"
  | .undefined .overflow => "overflow"

namespace Network

def name : Network → String
  | main => "main"
  | test => "test"
  | regtest => "regtest"

/-- Letter case is ignored, in ASCII. -/
def ofName (s : String) : Except WorkError Network :=
  match String.ofList (s.toList.map Char.toLower) with
  | "main" | "mainnet" => .ok main
  | "test" | "testnet" => .ok test
  | "regtest" => .ok regtest
  | other => .error (.invalidParams (.unknownNetwork other))

end Network

/-- Above `afterHeight` blocks of the algorithm are braked by `force`, whatever else is set. -/
structure Retirement where
  algorithm : Algorithm
  afterHeight : Nat
  force : UInt32
  deriving DecidableEq, Repr

structure ChainParams where
  network : Network
  powLimit : Target
  spacing : Int
  timespan : Int
  fixHeight : Int
  allowMinDifficulty : Bool
  noRetargeting : Bool
  maxAdjustDown : Int := 4
  maxAdjustUp : Int := 4
  retired : List Retirement := []
  deriving DecidableEq, Repr

namespace ChainParams

def main : ChainParams where
  network := .main
  powLimit := (BitVec.allOnes 256).ushiftRight 20
  spacing := 120
  timespan := 120
  fixHeight := 105000
  allowMinDifficulty := false
  noRetargeting := false
  retired := [⟨.timeTravel, 97610, 4070908800⟩]

def test : ChainParams := { main with network := .test }

def regtest : ChainParams where
  network := .regtest
  powLimit := (BitVec.allOnes 256).ushiftRight 1
  spacing := 150
  timespan := 150
  fixHeight := 1000
  allowMinDifficulty := true
  noRetargeting := true

def ofNetwork : Network → ChainParams
  | .main => main
  | .test => test
  | .regtest => regtest

/-- Blocks from one interval retarget to the next. -/
def adjustmentInterval (p : ChainParams) : Except WorkError Int :=
  if p.spacing = 0 then .error (.undefined .divisionByZero) else .ok (p.timespan.tdiv p.spacing)

def limitBits (p : ChainParams) : CompactTarget := .ofTarget p.powLimit

def retirement? (p : ChainParams) (a : Algorithm) : Option Retirement :=
  p.retired.find? (·.algorithm = a)

def validate (p : ChainParams) : Except WorkError Unit := do
  let refuse (fault : ParamsFault) : Except WorkError Unit := .error (.invalidParams fault)
  if p.powLimit = 0 then refuse .zeroLimit
  else if p.spacing ≤ 0 then refuse .spacing
  else if p.timespan < p.spacing then refuse .timespan
  else if p.maxAdjustDown ≤ 0 ∨ p.maxAdjustUp ≤ 0 then refuse .adjustmentRatio
  else if p.timespan.tdiv p.maxAdjustDown ≤ 0 then refuse .lowerBound
  else if p.retired.any (·.force = 0) then refuse .retirementForce
  else return ()

end ChainParams

structure NetworkParameters where
  handbrakeHeight : Int
  handbrakeForce : Algorithm → Int
  spacingFixHeight : Option Int

/-- A height that no chain reaches. -/
def disabledHeight : Int := 4070908800

/-- Nothing is braked and nothing overridden. -/
def NetworkParameters.neutral : NetworkParameters := ⟨disabledHeight, fun _ => 1, none⟩

end SporkNode.Work
