/-!
Mining algorithms. A header names its algorithm in eight bits of its version; blocks of all
algorithms share one chain and one scale of targets.
-/

namespace SporkNode.Work

inductive Algorithm
  | timeTravel | x16r
  deriving DecidableEq, Repr

/-- The bits of a version that name the algorithm. -/
def algorithmTag (version : Int32) : Int32 := version &&& 0xff00

namespace Algorithm

def all : List Algorithm := [timeTravel, x16r]

def tag : Algorithm → Int32
  | timeTravel => 0x0000
  | x16r => 0x0100

def name : Algorithm → String
  | timeTravel => "timetravel"
  | x16r => "x16r"

def ofVersion? (version : Int32) : Option Algorithm :=
  all.find? (·.tag = algorithmTag version)

/-- What a target of the algorithm is divided by to lie on the common scale. -/
def efficiency (a : Algorithm) (_height : Nat) : Nat :=
  match a with
  | timeTravel => 1
  | x16r => 1

end Algorithm

/-- An unknown algorithm weighs one. -/
def efficiencyOf (version : Int32) (height : Nat) : Nat :=
  ((Algorithm.ofVersion? version).map (·.efficiency height)).getD 1

end SporkNode.Work
