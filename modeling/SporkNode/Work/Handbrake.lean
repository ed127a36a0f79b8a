import SporkNode.Work.Block

/-!
The handbrake divides a target by a force. A retired algorithm is braked for good by its own
force; any other by what the network has set, once the handbrake height is reached.
-/

namespace SporkNode.Work

/-- Settings wider than 32 bits lose their upper part. -/
def forceOfSetting (n : Int) : UInt32 := UInt32.ofNat (n % UInt32.size).toNat

def handbrakeForce (version : Int32) (height : Nat) (params : ChainParams)
    (network : NetworkParameters) : UInt32 :=
  match Algorithm.ofVersion? version with
  | none => 1
  | some a =>
    match (params.retirement? a).filter (·.afterHeight < height) with
    | some r => r.force
    | none =>
      if network.handbrakeHeight ≤ signedHeight height then
        forceOfSetting (network.handbrakeForce a)
      else 1

/-- No force, or a limit that times the force wraps to less than the target, gives the limit. -/
def applyHandbrake (target : Target) (force : UInt32) (powLimit : Target) : Target :=
  if powLimit.scale force.toNat < target ∨ force = 0 then powLimit
  else target.divide force.toNat

end SporkNode.Work
