import SporkNode.Proofs.Chain.BestTip
import SporkNode.Proofs.Numerals

/-!
Chains that are made by appending. The hash of an appended block begins with its height, so up to
2⁶⁴ blocks have as many hashes; and an index of such a line of blocks, the whole line or its end,
answers as the list of the blocks does. The newest blocks of an index are a line's end again.
-/

namespace SporkNode.Chain

open Work

/-- Blocks from height zero on, each naming the one before as its parent, no two with one hash. -/
structure Line (blocks : List Block) : Prop where
  nodup : (blocks.map (·.hash)).Nodup
  height : ∀ (k : Nat) (b : Block), blocks[k]? = some b → b.height = k
  first : ∀ b : Block, blocks[0]? = some b → b.parent? = none
  next : ∀ (k : Nat) (p b : Block), blocks[k]? = some p → blocks[k + 1]? = some b →
    b.parent? = some p.hash

namespace BlockIndex

/-- The index holds the blocks of the list from height `start` on, and answers as the list does. -/
structure ShowsFrom (i : BlockIndex) (blocks : List Block) (start : Nat) : Prop where
  get? : ∀ (h : Hash) (b : Block), i.get? h = some b ↔ b ∈ blocks.drop start ∧ b.hash = h
  size : i.size = blocks.length - start
  tip? : i.tip? = blocks.getLast?
  previous? : ∀ b ∈ blocks.drop start,
    i.previous? b = if b.height = start then none else blocks[b.height - 1]?
  visits : ∀ (tip : Block) (n : Nat), i.tip? = some tip →
    tip :: trail i.previous? n tip = (blocks.drop start).reverse.take (n + 1)
  ancestor? : ∀ b ∈ blocks.drop start, ∀ height : Nat,
    i.ancestor? b height = if start ≤ height ∧ height ≤ b.height then blocks[height]? else none

end BlockIndex

/-! ## Lines -/

namespace Line

variable {blocks : List Block} {b : Block} {start : Nat}

theorem nil : Line [] := ⟨List.nodup_nil, nofun, nofun, nofun⟩

theorem concat (h : Line blocks) (hheight : b.height = blocks.length)
    (hparent : b.parent? = blocks.getLast?.map (·.hash)) (hnew : ∀ c ∈ blocks, c.hash ≠ b.hash) :
    Line (blocks ++ [b]) := by
  -- a place in the longer list is one in the shorter, or it is the last
  have hplace : ∀ {k : Nat} {c : Block}, (blocks ++ [b])[k]? = some c →
      blocks[k]? = some c ∨ k = blocks.length ∧ c = b := by
    intro k c hc
    rcases Nat.lt_trichotomy k blocks.length with hk | rfl | hk
    · rw [List.getElem?_append_left hk] at hc
      exact .inl hc
    · rw [List.getElem?_concat_length] at hc
      exact .inr ⟨rfl, (Option.some.inj hc).symm⟩
    · rw [List.getElem?_eq_none (by simp; omega)] at hc
      cases hc
  constructor
  · rw [List.map_append, List.nodup_append]
    refine ⟨h.nodup, by simp, ?_⟩
    simpa using hnew
  · intro k c hc
    rcases hplace hc with hc | ⟨rfl, rfl⟩
    · exact h.height k c hc
    · exact hheight
  · intro c hc
    rcases hplace hc with hc | ⟨hlength, rfl⟩
    · exact h.first c hc
    · rw [hparent, List.length_eq_zero_iff.1 hlength.symm]
      rfl
  · intro k p c hp hc
    rcases hplace hc with hc | ⟨hlength, rfl⟩
    · have hk := (List.getElem?_eq_some_iff.1 hc).1
      rw [List.getElem?_append_left (by omega)] at hp
      exact h.next k p c hp hc
    · rw [List.getElem?_append_left (by omega)] at hp
      rw [hparent, List.getLast?_eq_getElem?, ← hlength, Nat.add_sub_cancel, hp]
      rfl

variable (h : Line blocks)
include h

theorem mem_drop_iff : b ∈ blocks.drop start ↔ start ≤ b.height ∧ blocks[b.height]? = some b := by
  constructor
  · intro hb
    obtain ⟨k, hk⟩ := List.mem_iff_getElem?.1 hb
    rw [List.getElem?_drop] at hk
    have hheight := h.height _ b hk
    exact ⟨by omega, by rw [hheight, hk]⟩
  · rintro ⟨hstart, hplace⟩
    refine List.mem_iff_getElem?.2 ⟨b.height - start, ?_⟩
    rw [List.getElem?_drop, Nat.add_sub_cancel' hstart, hplace]

theorem unambiguous (start : Nat) : Unambiguous (blocks.drop start) :=
  fun _ hb _ hc => List.inj_on_of_nodup_map h.nodup (List.mem_of_mem_drop hb)
    (List.mem_of_mem_drop hc)

theorem previous? (hb : b ∈ blocks.drop start) :
    (BlockIndex.ofBlocks (blocks.drop start)).previous? b =
      if b.height = start then none else blocks[b.height - 1]? := by
  obtain ⟨hstart, hplace⟩ := h.mem_drop_iff.1 hb
  unfold BlockIndex.previous?
  cases hheight : b.height with
  | zero =>
    rw [hheight] at hplace hstart
    rw [h.first b hplace, if_pos (by omega)]
    rfl
  | succ k =>
    rw [hheight] at hplace hstart
    obtain ⟨hk, -⟩ := List.getElem?_eq_some_iff.1 hplace
    obtain ⟨p, hp⟩ : ∃ p, blocks[k]? = some p := ⟨_, List.getElem?_eq_getElem (by omega)⟩
    have hpk : p.height = k := h.height k p hp
    rw [h.next k p b hp hplace, Option.bind_some, Nat.add_sub_cancel, hp]
    by_cases hfirst : k + 1 = start
    · rw [if_pos hfirst, Option.eq_none_iff_forall_ne_some]
      intro c hc
      rw [BlockIndex.get?_ofBlocks_iff (h.unambiguous start)] at hc
      obtain ⟨hcdrop, hhash⟩ := hc
      obtain rfl : c = p := List.inj_on_of_nodup_map h.nodup (List.mem_of_mem_drop hcdrop)
        (List.mem_of_getElem? hp) hhash
      have hle := (h.mem_drop_iff.1 hcdrop).1
      omega
    · rw [if_neg hfirst, BlockIndex.get?_ofBlocks_iff (h.unambiguous start), h.mem_drop_iff, hpk]
      exact ⟨⟨by omega, hp⟩, rfl⟩

/-- From a block on, newest first. -/
theorem reverse_take (hb : b ∈ blocks.drop start) :
    ((blocks.take (b.height + 1)).drop start).reverse =
      b :: ((blocks.take b.height).drop start).reverse := by
  obtain ⟨hstart, hplace⟩ := h.mem_drop_iff.1 hb
  have hlt := (List.getElem?_eq_some_iff.1 hplace).1
  rw [List.take_add_one, hplace, Option.toList_some,
    List.drop_append_of_le_length (by rw [List.length_take]; omega), List.reverse_append]
  rfl

theorem trail_eq (hb : b ∈ blocks.drop start) (n : Nat) :
    trail (BlockIndex.ofBlocks (blocks.drop start)).previous? n b =
      ((blocks.take b.height).drop start).reverse.take n := by
  induction n generalizing b with
  | zero => rfl
  | succ n ih =>
    have hprevious := h.previous? hb
    obtain ⟨hstart, hplace⟩ := h.mem_drop_iff.1 hb
    by_cases hfirst : b.height = start
    · rw [if_pos hfirst] at hprevious
      rw [trail_of_none hprevious, List.drop_eq_nil_of_le (by rw [List.length_take]; omega)]
      rfl
    · rw [if_neg hfirst] at hprevious
      have hlt := (List.getElem?_eq_some_iff.1 hplace).1
      obtain ⟨p, hp⟩ : ∃ p, blocks[b.height - 1]? = some p :=
        ⟨_, List.getElem?_eq_getElem (by omega)⟩
      have hheight : p.height = b.height - 1 := h.height _ p hp
      have hpmem : p ∈ blocks.drop start :=
        h.mem_drop_iff.2 ⟨by omega, by rw [hheight, hp]⟩
      have hbelow : p.height + 1 = b.height := by omega
      rw [trail_of_some (hprevious.trans hp), ih hpmem, ← hbelow, h.reverse_take hpmem,
        List.take_succ_cons]

theorem history_eq (hb : b ∈ blocks.drop start) :
    (BlockIndex.ofBlocks (blocks.drop start)).history b =
      ((blocks.take b.height).drop start).reverse := by
  rw [BlockIndex.history_eq_trail, h.trail_eq hb, List.take_of_length_le]
  simp only [List.length_reverse, List.length_drop, List.length_take]
  omega

/-- Down from height `k`, the first block that is no higher than `height` is the one there. -/
theorem find?_reverse {height k : Nat} (hheight : height < k) (hk : k ≤ blocks.length) :
    ((blocks.take k).drop start).reverse.find? (·.height ≤ height) =
      if start ≤ height then blocks[height]? else none := by
  induction k with
  | zero => cases hheight
  | succ k ih =>
    obtain ⟨b, hb⟩ : ∃ b, blocks[k]? = some b := ⟨_, List.getElem?_eq_getElem (by omega)⟩
    have hbk : b.height = k := h.height k b hb
    by_cases hstart : start ≤ k
    · have hbmem : b ∈ blocks.drop start := h.mem_drop_iff.2 ⟨by omega, by rw [hbk, hb]⟩
      have hlist := h.reverse_take hbmem
      rw [hbk] at hlist
      rw [hlist]
      by_cases hhere : height = k
      · rw [List.find?_cons_of_pos (by simp; omega), hhere, if_pos hstart, hb]
      · rw [List.find?_cons_of_neg (by simp; omega), ih (by omega) (by omega)]
    · rw [List.drop_eq_nil_of_le (by rw [List.length_take]; omega), if_neg (by omega)]
      rfl

theorem ancestor? (hb : b ∈ blocks.drop start) (height : Nat) :
    (BlockIndex.ofBlocks (blocks.drop start)).ancestor? b height =
      if start ≤ height ∧ height ≤ b.height then blocks[height]? else none := by
  obtain ⟨-, hplace⟩ := h.mem_drop_iff.1 hb
  have hlt := (List.getElem?_eq_some_iff.1 hplace).1
  rw [BlockIndex.ancestor?, Block.ancestor?, h.history_eq hb, ← h.reverse_take hb]
  by_cases hheight : b.height < height
  · rw [if_pos hheight, if_neg (by omega)]
  · rw [if_neg hheight, h.find?_reverse (by omega) (by omega)]
    split <;> split <;> first | rfl | omega

theorem tip? (hstart : start ≤ blocks.length - 1) :
    (BlockIndex.ofBlocks (blocks.drop start)).tip? = blocks.getLast? := by
  rw [BlockIndex.tip?_ofBlocks (h.unambiguous start)]
  cases hlast : blocks.getLast? with
  | none => simp [List.getLast?_eq_none_iff.1 hlast]
  | some tip =>
    rw [List.getLast?_eq_getElem?] at hlast
    have htip : tip.height = blocks.length - 1 := h.height _ tip hlast
    have hlt := (List.getElem?_eq_some_iff.1 hlast).1
    rw [List.argmax_eq_some_iff]
    refine ⟨h.mem_drop_iff.2 ⟨by omega, by rw [htip, hlast]⟩, ?_, ?_⟩
    · intro b hb
      have hbelow := (List.getElem?_eq_some_iff.1 (h.mem_drop_iff.1 hb).2).1
      omega
    · intro b hb hle
      obtain ⟨-, hplace⟩ := h.mem_drop_iff.1 hb
      have hbelow := (List.getElem?_eq_some_iff.1 hplace).1
      have hsame : b.height = blocks.length - 1 := by omega
      rw [hsame, hlast] at hplace
      rw [Option.some.inj hplace]

theorem showsFrom (hstart : start ≤ blocks.length - 1) :
    (BlockIndex.ofBlocks (blocks.drop start)).ShowsFrom blocks start where
  get? _ _ := BlockIndex.get?_ofBlocks_iff (h.unambiguous start)
  size := by
    have hnodup : ((blocks.drop start).map (·.hash)).Nodup :=
      h.nodup.sublist ((List.drop_sublist start blocks).map _)
    rw [BlockIndex.size_ofBlocks, List.toFinset_card_of_nodup hnodup, List.length_map,
      List.length_drop]
  tip? := h.tip? hstart
  previous? _ hb := h.previous? hb
  visits tip n htip := by
    rw [h.tip? hstart, List.getLast?_eq_getElem?] at htip
    have hheight : tip.height = blocks.length - 1 := h.height _ tip htip
    have hlt := (List.getElem?_eq_some_iff.1 htip).1
    have hmem : tip ∈ blocks.drop start := h.mem_drop_iff.2 ⟨by omega, by rw [hheight, htip]⟩
    have hall : blocks.take (tip.height + 1) = blocks := List.take_of_length_le (by omega)
    rw [h.trail_eq hmem, ← List.take_succ_cons, ← h.reverse_take hmem, hall]
  ancestor? _ hb := h.ancestor? hb

/-- The newest blocks of a line are its end. -/
theorem top_eq (k : Nat) : (BlockIndex.ofBlocks blocks).top (k + 1) =
    BlockIndex.ofBlocks (blocks.drop (blocks.length - (k + 1))) := by
  have hall : (BlockIndex.ofBlocks blocks).ShowsFrom blocks 0 := h.showsFrom (Nat.zero_le _)
  cases htip : (BlockIndex.ofBlocks blocks).tip? with
  | none =>
    have hnil : blocks = [] := List.getLast?_eq_none_iff.1 (hall.tip?.symm.trans htip)
    unfold BlockIndex.top
    rw [htip, hnil, List.drop_nil]
    rfl
  | some tip =>
    rw [BlockIndex.top_succ htip, BlockIndex.ancestors_eq_trail, hall.visits tip k htip,
      List.reverse_take, List.drop_zero, List.reverse_reverse, List.length_reverse]

end Line

/-! ## Appending -/

/-- What a block brings of its own. -/
structure Header where
  version : Int32
  time : Int
  bits : CompactTarget
  deriving DecidableEq

def header (b : Block) : Header := ⟨b.version, b.time, b.bits⟩

namespace BlockIndex

def appendAll (i : BlockIndex) (headers : List Header) : BlockIndex :=
  headers.foldl (fun i x => i.append x.version x.time x.bits) i

/-- The blocks that appending makes, oldest first. -/
def appended (i : BlockIndex) : List Header → List Block
  | [] => []
  | x :: rest =>
    i.successor x.version x.time x.bits :: (i.append x.version x.time x.bits).appended rest

theorem appended_concat (i : BlockIndex) (headers : List Header) (x : Header) :
    i.appended (headers ++ [x]) =
      i.appended headers ++ [(i.appendAll headers).successor x.version x.time x.bits] := by
  induction headers generalizing i with
  | nil => rfl
  | cons y rest ih => simp [appended, ih, appendAll]

theorem appendAll_eq (i : BlockIndex) (headers : List Header) :
    i.appendAll headers = (i.appended headers).foldl insert i := by
  induction headers generalizing i with
  | nil => rfl
  | cons x rest ih => exact ih _

theorem map_header_appended (i : BlockIndex) (headers : List Header) :
    (i.appended headers).map header = headers := by
  induction headers generalizing i with
  | nil => rfl
  | cons x rest ih =>
    rw [appended, List.map_cons, ih]
    rfl

theorem toNat_take_syntheticHash (parent? : Option Block) (height : Nat) (version : Int32)
    (time : Int) (bits : CompactTarget) :
    Bytes.toNat ((syntheticHash parent? height version time bits).bytes.take 8) =
      height % 2 ^ 64 := by
  unfold syntheticHash
  simp only [List.append_assoc]
  rw [List.take_left' (Bytes.length_ofNat 8 height), Bytes.toNat_ofNat]
  rfl

theorem toNat_take_hash {i : BlockIndex} {headers : List Header} {b : Block}
    (hb : b ∈ i.appended headers) : Bytes.toNat (b.hash.bytes.take 8) = b.height % 2 ^ 64 := by
  induction headers generalizing i with
  | nil => cases hb
  | cons x rest ih =>
    rcases List.mem_cons.1 hb with rfl | hb
    · exact toNat_take_syntheticHash _ _ _ _ _
    · exact ih hb

theorem line_appended {headers : List Header} (h : headers.length ≤ 2 ^ 64) :
    Line (empty.appended headers) := by
  induction headers using List.reverseRecOn with
  | nil => exact .nil
  | append_singleton headers x ih =>
    rw [List.length_append, List.length_singleton] at h
    have hline := ih (by omega)
    have hlength : (empty.appended headers).length = headers.length := by
      rw [← List.length_map header, map_header_appended]
    have htip : (empty.appendAll headers).tip? = (empty.appended headers).getLast? := by
      rw [appendAll_eq]
      exact (hline.showsFrom (Nat.zero_le _)).tip?
    have hheight : ((empty.appendAll headers).successor x.version x.time x.bits).height =
        (empty.appended headers).length := by
      unfold successor
      rw [htip]
      cases hlast : (empty.appended headers).getLast? with
      | none => rw [List.getLast?_eq_none_iff.1 hlast, List.length_nil]
      | some p =>
        rw [List.getLast?_eq_getElem?] at hlast
        have hp := hline.height _ p hlast
        have hlt := (List.getElem?_eq_some_iff.1 hlast).1
        dsimp only
        omega
    have hlongest := appended_concat empty headers x
    have hparent : ((empty.appendAll headers).successor x.version x.time x.bits).parent? =
        (empty.appended headers).getLast?.map (·.hash) := congrArg (Option.map _) htip
    rw [hlongest]
    refine hline.concat hheight hparent ?_
    intro c hc hhash
    have hstamp : ∀ b ∈ empty.appended (headers ++ [x]),
        Bytes.toNat (b.hash.bytes.take 8) = b.height % 2 ^ 64 := fun _ => toNat_take_hash
    rw [hlongest, List.forall_mem_append, List.forall_mem_singleton] at hstamp
    have hsame := (hstamp.1 c hc).symm.trans (hhash ▸ hstamp.2)
    obtain ⟨k, hk⟩ := List.mem_iff_getElem?.1 hc
    have hck := hline.height k c hk
    have hlt := (List.getElem?_eq_some_iff.1 hk).1
    omega

/-- Up to 2⁶⁴ blocks appended one after the other to an empty index: they have what was asked for
and stand at heights from zero on, no two have one hash, and the index and the newest `k` blocks of
it answer as the list of the blocks and its last `k` do. -/
theorem appended_faithful {headers : List Header} (h : headers.length ≤ 2 ^ 64) :
    let blocks := empty.appended headers
    let i := empty.appendAll headers
    blocks.map header = headers ∧ (blocks.map (·.hash)).Nodup ∧
    (∀ (k : Nat) (b : Block), blocks[k]? = some b → b.height = k) ∧
    i.ShowsFrom blocks 0 ∧
    ∀ k, 1 ≤ k → (i.top k).ShowsFrom blocks (headers.length - k) := by
  intro blocks i
  have hline : Line blocks := line_appended h
  have hheaders : blocks.map header = headers := map_header_appended empty headers
  have hlength : blocks.length = headers.length := by rw [← List.length_map header, hheaders]
  have hi : i = ofBlocks blocks := appendAll_eq empty headers
  refine ⟨hheaders, hline.nodup, hline.height, ?_, ?_⟩
  · rw [hi]
    exact hline.showsFrom (Nat.zero_le _)
  · intro k hk
    obtain ⟨k, rfl⟩ := Nat.exists_eq_add_of_le' hk
    rw [hi, hline.top_eq, hlength]
    exact hline.showsFrom (by omega)

/-- Three blocks alike, but that each is one higher, and the newest two of them. -/
theorem appended_faithful_alike :
    let headers : List Header := List.replicate 3 ⟨0, -5, ⟨0x1e0fffff⟩⟩
    let i := empty.appendAll headers
    headers.length ≤ 2 ^ 64 ∧ i.size = 3 ∧ (i.top 2).size = 2 ∧ (i.top 2).tip? = i.tip? ∧
    ∃ tip, i.tip? = some tip ∧ tip.height = 2 ∧ (i.ancestor? tip 0).isSome = true ∧
      (i.top 2).ancestor? tip 0 = none := by
  intro headers i
  have hfew : headers.length ≤ 2 ^ 64 := by decide
  obtain ⟨hheaders, -, hheight, hall, htop⟩ := appended_faithful hfew
  have hnewest := htop 2 (by decide)
  have hlength : (empty.appended headers).length = 3 := by
    rw [← List.length_map header, hheaders]
    rfl
  obtain ⟨tip, htip⟩ : ∃ tip, (empty.appended headers)[2]? = some tip :=
    ⟨_, List.getElem?_eq_getElem (by omega)⟩
  obtain ⟨first, hfirst⟩ : ∃ first, (empty.appended headers)[0]? = some first :=
    ⟨_, List.getElem?_eq_getElem (by omega)⟩
  have htwo : tip.height = 2 := hheight 2 tip htip
  have hmem : ∀ start ≤ 2, tip ∈ (empty.appended headers).drop start := fun start hstart =>
    (line_appended hfew).mem_drop_iff.2 ⟨by omega, by rw [htwo, htip]⟩
  refine ⟨hfew, ?_, ?_, hnewest.tip?.trans hall.tip?.symm, tip, ?_, htwo, ?_, ?_⟩
  · rw [hall.size, hlength]
  · rw [hnewest.size, hlength]
    rfl
  · rw [hall.tip?, List.getLast?_eq_getElem?, hlength, htip]
  · rw [hall.ancestor? tip (hmem 0 (by decide)), if_pos (by omega), hfirst]
    rfl
  · rw [hnewest.ancestor? tip (hmem _ (by decide)), if_neg fun hin => absurd hin.1 (by decide)]

end BlockIndex

end SporkNode.Chain
