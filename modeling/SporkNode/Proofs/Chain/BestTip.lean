import Mathlib.Data.Finset.Card
import Mathlib.Data.List.MinMax
import SporkNode.Proofs.Chain.Trail

/-!
What an index holds after any insertions: the blocks that came in, under their hashes, and as its
tip the first of the highest. The tip is kept as a name and read through the index each time, so
this needs that a hash stands for one block; then neither the order nor repetitions matter to what
is held.
-/

namespace SporkNode.Chain

open Work

/-- No two blocks share a hash. -/
def Unambiguous (blocks : List Block) : Prop :=
  ∀ b ∈ blocks, ∀ c ∈ blocks, b.hash = c.hash → b = c

instance (blocks : List Block) : Decidable (Unambiguous blocks) :=
  inferInstanceAs (Decidable (∀ b ∈ blocks, ∀ c ∈ blocks, b.hash = c.hash → b = c))

theorem Unambiguous.of_subset {blocks some : List Block} (h : Unambiguous blocks)
    (hsome : some ⊆ blocks) : Unambiguous some :=
  fun b hb c hc => h b (hsome hb) c (hsome hc)

namespace BlockIndex

variable {i : BlockIndex} {blocks : List Block} {b tip : Block} {h : Hash}

theorem ofBlocks_concat (blocks : List Block) (b : Block) :
    ofBlocks (blocks ++ [b]) = (ofBlocks blocks).insert b := by
  simp [ofBlocks]

/-! ## What is held -/

theorem get?_ofBlocks_iff (hblocks : Unambiguous blocks) :
    (ofBlocks blocks).get? h = some b ↔ b ∈ blocks ∧ b.hash = h := by
  rw [get?_ofBlocks]
  constructor
  · intro hfind
    have hmem := List.mem_reverse.1 (List.mem_of_find?_eq_some hfind)
    exact ⟨hmem, by simpa using List.find?_some hfind⟩
  · rintro ⟨hb, rfl⟩
    cases hfind : blocks.reverse.find? (·.hash = b.hash) with
    | none =>
      have habsent := List.find?_eq_none.1 hfind b (List.mem_reverse.2 hb)
      exact absurd (decide_eq_true rfl) habsent
    | some c =>
      have hc := List.mem_reverse.1 (List.mem_of_find?_eq_some hfind)
      have hsame : c.hash = b.hash := by simpa using List.find?_some hfind
      rw [hblocks c hc b hb hsame]

theorem mem_blocks_insert (i : BlockIndex) (b : Block) (h : Hash) :
    h ∈ (i.insert b).blocks ↔ b.hash = h ∨ h ∈ i.blocks := by
  unfold insert
  rw [Std.HashMap.mem_insert, beq_iff_eq]

theorem mem_blocks_ofBlocks (blocks : List Block) (h : Hash) :
    h ∈ (ofBlocks blocks).blocks ↔ h ∈ blocks.map (·.hash) := by
  induction blocks using List.reverseRecOn with
  | nil => simp [ofBlocks, empty]
  | append_singleton blocks b ih =>
    rw [ofBlocks_concat, mem_blocks_insert, ih]
    simp [or_comm, eq_comm]

theorem size_ofBlocks (blocks : List Block) :
    (ofBlocks blocks).size = (blocks.map (·.hash)).toFinset.card := by
  induction blocks using List.reverseRecOn with
  | nil => simp [ofBlocks, empty, size]
  | append_singleton blocks b ih =>
    have hhashes : ((blocks ++ [b]).map (·.hash)).toFinset =
        Insert.insert b.hash (blocks.map (·.hash)).toFinset := by
      ext h
      simp
    have hmem : b.hash ∈ (ofBlocks blocks).blocks ↔ b.hash ∈ (blocks.map (·.hash)).toFinset := by
      rw [mem_blocks_ofBlocks, List.mem_toFinset]
    rw [ofBlocks_concat, hhashes, Finset.card_insert_eq_ite, ← ih]
    show Std.HashMap.size (Std.HashMap.insert _ _ _) = _
    rw [Std.HashMap.size_insert]
    by_cases hb : b.hash ∈ (ofBlocks blocks).blocks
    · rw [if_pos hb, if_pos (hmem.1 hb)]
      rfl
    · rw [if_neg hb, if_neg (mt hmem.2 hb)]
      rfl

theorem isEmpty_ofBlocks (blocks : List Block) :
    (ofBlocks blocks).isEmpty = true ↔ blocks = [] := by
  have hsize : (ofBlocks blocks).blocks.size = _ := size_ofBlocks blocks
  rw [isEmpty, Std.HashMap.isEmpty_eq_size_eq_zero, hsize, beq_iff_eq, Finset.card_eq_zero,
    List.toFinset_eq_empty_iff, List.map_eq_nil_iff]

/-! ## The tip -/

/-- A block that is no higher leaves the tip in place, unless it takes its name. -/
theorem WellKeyed.tip?_insert_of_le (hi : i.WellKeyed) (htip : i.tip? = some tip)
    (hle : b.height ≤ tip.height) (hname : b.hash = tip.hash → b = tip) :
    (i.insert b).tip? = some tip := by
  obtain ⟨h, hh, hget⟩ := Option.bind_eq_some_iff.1 htip
  obtain rfl : tip.hash = h := hi h tip hget
  have hlower : (i.insert b).tipHash? = some tip.hash := by
    unfold BlockIndex.insert
    rw [htip]
    dsimp only
    rw [if_neg (by simpa using hle), hh]
  rw [tip?, hlower, Option.bind_some, get?_insert]
  split
  · rename_i hsame
    rw [hname hsame]
  · exact hget

theorem tip?_ofBlocks (hblocks : Unambiguous blocks) :
    (ofBlocks blocks).tip? = blocks.argmax (·.height) := by
  induction blocks using List.reverseRecOn with
  | nil => rfl
  | append_singleton blocks b ih =>
    have hbefore := ih (hblocks.of_subset (List.subset_append_left blocks [b]))
    rw [ofBlocks_concat, List.argmax_concat, ← hbefore]
    cases htip : (ofBlocks blocks).tip? with
    | none => exact tip?_insert (by simp [htip])
    | some tip =>
      have hmem : tip ∈ blocks := List.argmax_mem (hbefore ▸ htip)
      dsimp only
      split
      · rename_i hlt
        exact tip?_insert (by simpa [htip] using hlt)
      · rename_i hge
        refine (wellKeyed_ofBlocks blocks).tip?_insert_of_le htip (Nat.le_of_not_lt hge) ?_
        exact hblocks b (by simp) tip (by simp [hmem])

/-- Whatever blocks come in, in whatever order and as often as they like, as long as a hash stands
for one block: the tip is the one that came first of the highest, each hash finds its block, there
are as many blocks as hashes, and a tip is missing only before the first block. -/
theorem first_highest_is_tip (hblocks : Unambiguous blocks) :
    let i := ofBlocks blocks
    (∀ tip, i.tip? = some tip ↔
      tip ∈ blocks ∧ (∀ b ∈ blocks, b.height ≤ tip.height) ∧
        ∀ b ∈ blocks, tip.height ≤ b.height → blocks.idxOf tip ≤ blocks.idxOf b) ∧
    (∀ h b, i.get? h = some b ↔ b ∈ blocks ∧ b.hash = h) ∧
    i.size = (blocks.map (·.hash)).toFinset.card ∧
    (i.isEmpty = true ↔ i.tip? = none) := by
  intro i
  have htip : i.tip? = blocks.argmax (·.height) := tip?_ofBlocks hblocks
  refine ⟨?_, fun h b => get?_ofBlocks_iff hblocks, size_ofBlocks blocks, ?_⟩
  · intro tip
    rw [htip, List.argmax_eq_some_iff]
  · rw [htip, List.argmax_eq_none, isEmpty_ofBlocks]

/-- Two branches of one height after a common block; the second arrives before its parent, and the
first block comes again at the end. -/
theorem first_highest_is_tip_fork :
    let block (name : Nat) (parent? : Option Hash) (height : Nat) : Block :=
      ⟨.ofNat name, parent?, height, 0, 0, ⟨0x1e0fffff⟩⟩
    let first := block 1 none 0
    let left := block 2 (some first.hash) 1
    let right := block 3 (some first.hash) 1
    let leftTop := block 4 (some left.hash) 2
    let rightTop := block 5 (some right.hash) 2
    let blocks := [first, rightTop, left, right, leftTop, rightTop, first]
    Unambiguous blocks ∧ (ofBlocks blocks).tip? = some rightTop ∧
      (ofBlocks blocks).get? right.hash = some right ∧ (ofBlocks blocks).size = 5 := by
  intro block first left right leftTop rightTop blocks
  have hblocks : Unambiguous blocks := by decide
  obtain ⟨htip, hget, hsize, -⟩ := first_highest_is_tip hblocks
  refine ⟨hblocks, ?_, ?_, ?_⟩
  · rw [htip]
    decide
  · rw [hget]
    decide
  · rw [hsize]
    decide

end BlockIndex

end SporkNode.Chain
