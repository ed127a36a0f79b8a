import SporkNode.Hash

/-!
What peers announce to one another, and the names that reports give to peers.
-/

namespace SporkNode

structure PeerId where
  number : Nat
  deriving DecidableEq, Repr

def PeerId.display (p : PeerId) : String := s!"peer={p.number}"

inductive InventoryKind
  | transaction | block | spork
  deriving DecidableEq, Repr

namespace InventoryKind

/-- The type code on the wire. -/
def code : InventoryKind → Nat
  | transaction => 1
  | block => 2
  | spork => 6

def name : InventoryKind → String
  | transaction => "Transaction"
  | block => "Block"
  | spork => "Spork"

end InventoryKind

structure InventoryItem where
  kind : InventoryKind
  hash : Hash
  deriving DecidableEq

def InventoryItem.display (i : InventoryItem) : String := i.kind.name ++ " " ++ i.hash.display

end SporkNode
