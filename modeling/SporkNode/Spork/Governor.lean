/-!
The limits on reconsidering blocks: how many at once, and how soon after the last time. Only a
request that is carried out counts as the last.
-/

namespace SporkNode.Spork

structure Limits where
  minInterval : Int
  maxBlocks : Int
  deriving DecidableEq, Repr

def Limits.default : Limits := ⟨600, 576⟩

inductive Decision
  | execute (blocks : Nat)
  | ignored
  | tooSoon (elapsed : Int)
  | tooDeep (requested : Int)
  deriving DecidableEq, Repr

structure Governor where
  limits : Limits
  last? : Option Int
  deriving DecidableEq, Repr

namespace Governor

def new (limits : Limits) : Governor := ⟨limits, none⟩

/-- The time since the last execution, if that is too short. -/
def hurry? (g : Governor) (now : Int) : Option Int :=
  (g.last?.map (now - ·)).filter (· < g.limits.minInterval)

def decide (g : Governor) (blocks now : Int) : Decision :=
  if blocks ≤ 0 then .ignored
  else
    match g.hurry? now with
    | some elapsed => .tooSoon elapsed
    | none =>
      if g.limits.maxBlocks < blocks ∨ UInt32.size ≤ blocks then .tooDeep blocks
      else .execute blocks.toNat

def request (g : Governor) (blocks now : Int) : Governor × Decision :=
  let d := g.decide blocks now
  match d with
  | .execute _ => ({ g with last? := some now }, d)
  | _ => (g, d)

end Governor

end SporkNode.Spork
