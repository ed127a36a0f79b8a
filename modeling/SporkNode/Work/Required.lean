import SporkNode.Work.Decay
import SporkNode.Work.Interval

/-!
The work that the next block must prove: the wave's target, relaxed if the chain has stalled, or
the interval's. An inconsistent chain or configuration is reported beside the error.
-/

namespace SporkNode.Work

def failureLog (tip : Block) : Except WorkError CompactTarget → List Log.Entry
  | .ok _ => []
  | .error (.undefined _) => []
  | .error e =>
    [⟨.error, "Retarget invariant violated",
      [("height", .number tip.height), ("error", .text e.message)]⟩]

def nextWork (params : ChainParams) (network : NetworkParameters) (tip : Block)
    (history : List Block) (candidate : Candidate) (o : Overflow := .faults) :
    Except WorkError CompactTarget := do
  let bits ← Wave.nextTarget params network tip history candidate o
  Decay.apply params (fixActive tip.height params network) tip candidate bits o

def nextWorkLog (params : ChainParams) (network : NetworkParameters) (tip : Block)
    (history : List Block) (candidate : Candidate) (o : Overflow := .faults) : List Log.Entry :=
  let result := Wave.nextTarget params network tip history candidate o
  Wave.log params network tip history candidate o ++ failureLog tip result ++
    match result with
    | .ok bits => Decay.log params (fixActive tip.height params network) tip candidate bits o
    | .error _ => []

def nextWorkInterval (params : ChainParams) (tip : Block) (history : List Block)
    (candidate : Candidate) (o : Overflow := .faults) : Except WorkError CompactTarget :=
  Interval.nextTarget params tip history candidate o

def nextWorkIntervalLog (params : ChainParams) (tip : Block) (history : List Block)
    (candidate : Candidate) (o : Overflow := .faults) : List Log.Entry :=
  Interval.log params tip history candidate o ++
    failureLog tip (Interval.nextTarget params tip history candidate o)

end SporkNode.Work
