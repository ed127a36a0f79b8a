import Std.Data.HashMap
import SporkNode.Work.Block

/-!
Known blocks by hash, side branches included, with the tip of the best chain: of the highest
blocks, the one that came first.
-/

namespace SporkNode.Chain

open Work

structure BlockIndex where
  blocks : Std.HashMap Hash Block
  tipHash? : Option Hash

namespace BlockIndex

def empty : BlockIndex := ⟨∅, none⟩

def size (i : BlockIndex) : Nat := i.blocks.size

def isEmpty (i : BlockIndex) : Bool := i.blocks.isEmpty

def get? (i : BlockIndex) (h : Hash) : Option Block := i.blocks[h]?

def tip? (i : BlockIndex) : Option Block := i.tipHash?.bind i.get?

def insert (i : BlockIndex) (b : Block) : BlockIndex :=
  let higher := match i.tip? with
    | none => true
    | some tip => tip.height < b.height
  ⟨i.blocks.insert b.hash b, if higher then some b.hash else i.tipHash?⟩

def previous? (i : BlockIndex) (b : Block) : Option Block := b.parent?.bind i.get?

def ancestors (i : BlockIndex) : Nat → Block → List Block
  | 0, _ => []
  | n + 1, b =>
    match i.previous? b with
    | none => []
    | some p => p :: ancestors i n p

/-- The blocks before `b` on its branch, newest first. No branch is longer than the index, unless a
block is its own ancestor: then it comes again as often as the height of `b` lets the rules ask. -/
def history (i : BlockIndex) (b : Block) : List Block := i.ancestors (max i.size b.height) b

/-- The last `n` blocks of the branch that ends in `b`, oldest first, in front of `newer`. A block
that is its own ancestor comes again on each turn. -/
def branch (i : BlockIndex) : Nat → Block → List Block → List Block
  | 0, _, newer => newer
  | n + 1, b, newer =>
    match i.previous? b with
    | none => b :: newer
    | some p => i.branch n p (b :: newer)

theorem branch_succ (i : BlockIndex) (n : Nat) (b : Block) (newer : List Block) :
    i.branch (n + 1) b newer = (b :: i.ancestors n b).reverse ++ newer := by
  induction n generalizing b newer with
  | zero => cases h : i.previous? b <;> simp [branch, ancestors, h]
  | succ n ih =>
    cases h : i.previous? b with
    | none => simp [branch, ancestors, h]
    | some p =>
      rw [branch, h]
      simp only [ih, ancestors, h, List.reverse_cons, List.append_assoc]
      rfl

/-- An identity made from the fields of a block and the start of its parent's. -/
def syntheticHash (parent? : Option Block) (height : Nat) (version : Int32) (time : Int)
    (bits : CompactTarget) : Hash :=
  ⟨Bytes.ofNat 8 height ++ Bytes.ofNat 8 (unsignedWord time) ++
      Bytes.ofNat 4 version.toUInt32.toNat ++ Bytes.ofNat 4 bits.word.toNat ++
      (match parent? with
        | some p => p.hash.bytes.take 8
        | none => Bytes.ofNat 8 0),
    by cases parent? <;> simp [Hash.length_eq]⟩

/-- The block that extends the tip with the given fields. -/
def successor (i : BlockIndex) (version : Int32) (time : Int) (bits : CompactTarget) : Block :=
  let parent? := i.tip?
  let height := match parent? with
    | some p => p.height + 1
    | none => 0
  ⟨syntheticHash parent? height version time bits, parent?.map (·.hash), height, version, time,
    bits⟩

def append (i : BlockIndex) (version : Int32) (time : Int) (bits : CompactTarget) : BlockIndex :=
  i.insert (i.successor version time bits)

def ofBlocks (blocks : List Block) : BlockIndex := blocks.foldl insert empty

/-- The newest `count` blocks of the best chain, without what lies before them. -/
def top (i : BlockIndex) (count : Nat) : BlockIndex :=
  match i.tip? with
  | none => empty
  | some tip => ofBlocks (i.branch count tip [])

def ancestor? (i : BlockIndex) (b : Block) (height : Nat) : Option Block :=
  b.ancestor? (i.history b) height

end BlockIndex

end SporkNode.Chain
