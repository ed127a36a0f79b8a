import SporkNode.Spork.Effect

/-!
What leaves a node for its peers and for the layer that keeps its chain. Each goes onto a channel
in the order in which it was asked for; messages go as bytes. The store and the log have no part
in it.
-/

namespace SporkNode.Node

open Spork

inductive Outbound
  /-- To every peer. -/
  | inventory (item : InventoryItem)
  | spork (peer : PeerId) (payload : Bytes)
  | penalize (peer : PeerId) (score : Nat)
  | reconsiderBlocks (blocks : Nat)
  deriving DecidableEq

def Outbound.ofEffect? : Effect → Option Outbound
  | .relay item => some (.inventory item)
  | .send peer m => some (.spork peer m.encode)
  | .penalize peer score => some (.penalize peer score)
  | .reprocess blocks => some (.reconsiderBlocks blocks)
  | .stored _ _ | .log _ => none

/-- What a channel carries of an operation's effects. -/
def outbound (effects : List Effect) : List Outbound := effects.filterMap Outbound.ofEffect?

end SporkNode.Node
