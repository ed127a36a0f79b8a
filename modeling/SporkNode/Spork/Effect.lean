import SporkNode.Inventory
import SporkNode.Log
import SporkNode.Spork.Message

/-!
What an operation asks of the world, in order, beside what it answers.
-/

namespace SporkNode.Spork

inductive Effect
  | relay (item : InventoryItem)
  | send (peer : PeerId) (m : Message)
  | penalize (peer : PeerId) (score : Nat)
  | reprocess (blocks : Nat)
  | stored (key value : Bytes)
  | log (entry : Log.Entry)
  deriving DecidableEq

/-- The time here, and by how much the network's differs from it. -/
structure Clock where
  now : Int
  offset : Int
  deriving DecidableEq, Repr

def Clock.adjusted (c : Clock) : Int := c.now + c.offset

/-- What an operation reads from the world. -/
structure World where
  clock : Clock
  /-- Why reprocessing so many blocks fails, if it does. -/
  reprocess : Nat → Option String

/-- The state after an operation, its answer and its effects. -/
structure Step (σ α : Type) where
  state : σ
  reply : α
  effects : List Effect

def Effect.note (level : Log.Level) (message : String) (fields : List (String × Log.Field)) :
    Effect :=
  .log ⟨level, message, fields⟩

end SporkNode.Spork
