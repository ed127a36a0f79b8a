import Std.Data.HashMap.Lemmas
import SporkNode.Chain.BlockIndex

/-!
What an index shows of a chain. A chain is read by asking for one parent after the other; where some
parents are missing the trail that is found is the same, only shorter. The newest blocks of an index
are such a poorer index, and of a trail of falling heights they show as many blocks as they hold.
-/

namespace SporkNode.Chain

open Work

/-! ## Trails -/

/-- The blocks before `b`, newest first and `n` at most, as a look-up of parents finds them. -/
def trail (parent? : Block → Option Block) : Nat → Block → List Block
  | 0, _ => []
  | n + 1, b =>
    match parent? b with
    | none => []
    | some p => p :: trail parent? n p

/-- Parents are found as in `full` or not at all. -/
def Poorer (poorer full : Block → Option Block) : Prop :=
  ∀ b, poorer b = full b ∨ poorer b = none

section Trail

variable {parent? poorer full : Block → Option Block} {m n : Nat} {b c p : Block}

theorem Poorer.refl (parent? : Block → Option Block) : Poorer parent? parent? := fun _ => .inl rfl

theorem Poorer.some (h : Poorer poorer full) (hp : poorer b = some p) : full b = some p := by
  rcases h b with hsame | hnone
  · rw [← hsame, hp]
  · rw [hnone] at hp
    cases hp

theorem trail_of_none (h : parent? b = none) (n : Nat) : trail parent? n b = [] := by
  cases n with
  | zero => rfl
  | succ n => rw [trail, h]

theorem trail_of_some (h : parent? b = some p) (n : Nat) :
    trail parent? (n + 1) b = p :: trail parent? n p := by
  rw [trail, h]

theorem trail_prefix (h : Poorer poorer full) (hmn : m ≤ n) (b : Block) :
    trail poorer m b <+: trail full n b := by
  induction m generalizing n b with
  | zero => exact List.nil_prefix
  | succ m ih =>
    obtain ⟨n, rfl⟩ := Nat.exists_eq_add_of_lt hmn
    cases hp : poorer b with
    | none =>
      rw [trail_of_none hp]
      exact List.nil_prefix
    | some p =>
      rw [trail_of_some hp, trail_of_some (h.some hp), List.cons_prefix_cons]
      exact ⟨rfl, ih (by omega) p⟩

/-- A trail that is cut short ends in a block without a parent, however far it is followed. -/
theorem trail_of_length_lt (h : (trail parent? m b).length < m) :
    parent? ((trail parent? m b).getLastD b) = none ∧
      ∀ n ≥ m, trail parent? n b = trail parent? m b := by
  induction m generalizing b with
  | zero => exact absurd h (Nat.not_lt_zero _)
  | succ m ih =>
    cases hp : parent? b with
    | none =>
      rw [trail_of_none hp]
      exact ⟨hp, fun n _ => trail_of_none hp n⟩
    | some p =>
      rw [trail_of_some hp] at h ⊢
      obtain ⟨hlast, hsame⟩ := ih (Nat.lt_of_succ_lt_succ h)
      refine ⟨by rwa [List.getLastD_cons], fun n hn => ?_⟩
      obtain ⟨n, rfl⟩ := Nat.exists_eq_add_of_lt hn
      rw [trail_of_some hp, hsame _ (by omega)]

theorem exists_parent_of_mem_trail (h : c ∈ trail parent? n b) : ∃ d, parent? d = some c := by
  induction n generalizing b with
  | zero => cases h
  | succ n ih =>
    cases hp : parent? b with
    | none =>
      rw [trail_of_none hp] at h
      cases h
    | some p =>
      rw [trail_of_some hp] at h
      rcases List.mem_cons.1 h with rfl | h
      · exact ⟨b, hp⟩
      · exact ih h

/-- Where parents are found among the blocks of a trail only, the trail is all that is found. -/
theorem trail_filter {known : Block → Bool} (hin : ∀ c ∈ trail parent? n b, known c = true)
    (hout : ∀ c, parent? ((trail parent? n b).getLastD b) = some c → known c = false)
    (hnm : n ≤ m) :
    trail (fun c => (parent? c).filter known) m b = trail parent? n b := by
  induction n generalizing m b with
  | zero =>
    apply trail_of_none
    cases hp : parent? b with
    | none => rfl
    | some c => simpa using hout c hp
  | succ n ih =>
    cases hp : parent? b with
    | none =>
      rw [trail_of_none hp, trail_of_none (by rw [hp]; rfl)]
    | some p =>
      rw [trail_of_some hp] at hin hout ⊢
      obtain ⟨m, rfl⟩ := Nat.exists_eq_add_of_lt hnm
      rw [List.forall_mem_cons] at hin
      rw [List.getLastD_cons] at hout
      rw [trail_of_some (by rw [hp]; exact Option.filter_some_pos hin.1), ih hin.2 hout (by omega)]

/-- The blocks before `b` down to a first block, at height zero, each one below the next. -/
inductive Rooted (parent? : Block → Option Block) : Block → List Block → Prop
  | first {b : Block} (parent : parent? b = none) (height : b.height = 0) : Rooted parent? b []
  | next {b p : Block} {rest : List Block} (parent : parent? b = some p)
      (height : b.height = p.height + 1) (below : Rooted parent? p rest) :
      Rooted parent? b (p :: rest)

namespace Rooted

variable {history : List Block}

theorem trail_eq (h : Rooted parent? b history) (n : Nat) :
    trail parent? n b = history.take n := by
  induction h generalizing n with
  | first hparent _ => rw [trail_of_none hparent, List.take_nil]
  | next hparent _ _ ih =>
    cases n with
    | zero => rfl
    | succ n => rw [trail_of_some hparent, ih, List.take_succ_cons]

theorem length_eq (h : Rooted parent? b history) : history.length = b.height := by
  induction h with
  | first _ hheight => exact hheight.symm
  | next _ hheight _ ih => rw [List.length_cons, ih, hheight]

theorem getLastD_height (h : Rooted parent? b history) : (history.getLastD b).height = 0 := by
  induction h with
  | first _ hheight => exact hheight
  | next _ _ _ ih => rwa [List.getLastD_cons]

theorem getElem?_height (h : Rooted parent? b history) {k : Nat} (hk : k ≤ b.height) :
    ∃ c, (b :: history)[k]? = some c ∧ c.height + k = b.height := by
  induction h generalizing k with
  | first _ hheight =>
    obtain rfl : k = 0 := by omega
    exact ⟨_, rfl, rfl⟩
  | next _ hheight _ ih =>
    cases k with
    | zero => exact ⟨_, rfl, rfl⟩
    | succ k =>
      obtain ⟨c, hc, hsum⟩ := ih (by omega : k ≤ _)
      exact ⟨c, hc, by omega⟩

/-- What comes after the newest blocks lies below them all. -/
theorem height_lt (h : Rooted parent? b history) (n : Nat)
    (hc : parent? ((history.take n).getLastD b) = some c) :
    ∀ d ∈ b :: history.take n, c.height < d.height := by
  induction h generalizing n with
  | first hparent _ =>
    rw [List.take_nil] at hc
    exact absurd (hparent.symm.trans hc) nofun
  | @next b p rest hparent hheight _ ih =>
    cases n with
    | zero =>
      obtain rfl : p = c := Option.some.inj (hparent.symm.trans hc)
      intro d hd
      obtain rfl := List.mem_singleton.1 hd
      omega
    | succ n =>
      rw [List.take_succ_cons, List.getLastD_cons] at hc
      have hrest := ih n hc
      have hp := hrest p List.mem_cons_self
      intro d hd
      rw [List.take_succ_cons] at hd
      rcases List.mem_cons.1 hd with rfl | hd
      · omega
      · exact hrest d hd

end Rooted

end Trail

/-! ## Indices -/

namespace BlockIndex

variable {i : BlockIndex} {h : Hash} {b c tip : Block} {blocks : List Block} {k n : Nat}

theorem ancestors_eq_trail (i : BlockIndex) (n : Nat) (b : Block) :
    i.ancestors n b = trail i.previous? n b := by
  induction n generalizing b with
  | zero => rfl
  | succ n ih =>
    unfold ancestors trail
    cases i.previous? b with
    | none => rfl
    | some p => exact congrArg (p :: ·) (ih p)

/-- The history of a block is followed as far as its height reaches at least. -/
theorem history_eq_trail (i : BlockIndex) (b : Block) :
    i.history b = trail i.previous? (max i.size b.height) b :=
  i.ancestors_eq_trail _ b

/-- Every block is kept under its own hash. -/
def WellKeyed (i : BlockIndex) : Prop := ∀ h b, i.get? h = some b → b.hash = h

/-- The block that the index keeps under the hash of `b` is `b`. -/
def Knows (i : BlockIndex) (b : Block) : Prop := i.get? b.hash = some b

theorem get?_empty (h : Hash) : empty.get? h = none := Std.HashMap.getElem?_empty

theorem get?_insert (i : BlockIndex) (b : Block) (h : Hash) :
    (i.insert b).get? h = if b.hash = h then some b else i.get? h := by
  unfold get? insert
  rw [Std.HashMap.getElem?_insert]
  simp only [beq_iff_eq]

theorem wellKeyed_empty : empty.WellKeyed := by
  intro h b hb
  rw [get?_empty] at hb
  cases hb

theorem WellKeyed.insert (hi : i.WellKeyed) (b : Block) : (i.insert b).WellKeyed := by
  intro h c hc
  rw [get?_insert] at hc
  split at hc
  · cases hc
    assumption
  · exact hi h c hc

theorem WellKeyed.foldl_insert (hi : i.WellKeyed) (blocks : List Block) :
    (blocks.foldl BlockIndex.insert i).WellKeyed := by
  induction blocks generalizing i with
  | nil => exact hi
  | cons b rest ih => exact ih (hi.insert b)

theorem wellKeyed_ofBlocks (blocks : List Block) : (ofBlocks blocks).WellKeyed :=
  wellKeyed_empty.foldl_insert blocks

/-- Of several blocks with one hash the last to come in is kept. -/
theorem get?_foldl_insert (i : BlockIndex) (blocks : List Block) (h : Hash) :
    (blocks.foldl insert i).get? h = (blocks.reverse.find? (·.hash = h)).or (i.get? h) := by
  induction blocks generalizing i with
  | nil => rfl
  | cons b rest ih =>
    rw [List.foldl_cons, ih, get?_insert, List.reverse_cons, List.find?_append, Option.or_assoc]
    by_cases hb : b.hash = h
    · rw [if_pos hb, List.find?_cons_of_pos (by simpa using hb), Option.some_or]
    · rw [if_neg hb, List.find?_cons_of_neg (by simpa using hb), List.find?_nil, Option.none_or]

theorem get?_ofBlocks (blocks : List Block) (h : Hash) :
    (ofBlocks blocks).get? h = blocks.reverse.find? (·.hash = h) := by
  rw [ofBlocks, get?_foldl_insert, get?_empty, Option.or_none]

theorem WellKeyed.knows (hi : i.WellKeyed) (hb : i.get? h = some b) : i.Knows b := by
  rw [Knows, hi h b hb, hb]

theorem WellKeyed.knows_tip (hi : i.WellKeyed) (htip : i.tip? = some tip) : i.Knows tip := by
  obtain ⟨h, -, hget⟩ := Option.bind_eq_some_iff.1 htip
  exact hi.knows hget

theorem WellKeyed.knows_previous (hi : i.WellKeyed) (hb : i.previous? c = some b) :
    i.Knows b := by
  obtain ⟨h, -, hget⟩ := Option.bind_eq_some_iff.1 hb
  exact hi.knows hget

/-- An index of some of the blocks of another finds these as the other does, and no others. -/
theorem WellKeyed.get?_ofBlocks (hi : i.WellKeyed) (hblocks : ∀ b ∈ blocks, i.Knows b)
    (h : Hash) : (ofBlocks blocks).get? h = (i.get? h).filter (· ∈ blocks) := by
  rw [BlockIndex.get?_ofBlocks]
  cases hfind : blocks.reverse.find? (·.hash = h) with
  | none =>
    cases hget : i.get? h with
    | none => rfl
    | some c =>
      have habsent : c ∉ blocks := by
        intro hc
        have hother := List.find?_eq_none.1 hfind c (List.mem_reverse.2 hc)
        exact hother (decide_eq_true (hi h c hget))
      rw [Option.filter_some_neg (by simpa using habsent)]
  | some b =>
    have hmem := List.mem_reverse.1 (List.mem_of_find?_eq_some hfind)
    have hhash : b.hash = h := by simpa using List.find?_some hfind
    have hget : i.get? h = some b := hhash ▸ hblocks b hmem
    rw [hget, Option.filter_some_pos (by simpa using hmem)]

theorem tip?_insert (h : ∀ tip, i.tip? = some tip → tip.height < b.height) :
    (i.insert b).tip? = some b := by
  have hself : (i.insert b).get? b.hash = some b := by rw [get?_insert, if_pos rfl]
  have hhigher : (i.insert b).tipHash? = some b.hash := by
    unfold insert
    cases htip : i.tip? with
    | none => rfl
    | some tip => exact if_pos (decide_eq_true (h tip htip))
  rw [tip?, hhigher, Option.bind_some, hself]

/-! ### The newest blocks -/

theorem top_succ (htip : i.tip? = some tip) (n : Nat) :
    i.top (n + 1) = ofBlocks (tip :: i.ancestors n tip).reverse := by
  unfold top
  rw [htip]
  dsimp only
  rw [branch_succ, List.append_nil]

theorem WellKeyed.previous?_top (hi : i.WellKeyed) (htip : i.tip? = some tip) (n : Nat)
    (b : Block) :
    (i.top (n + 1)).previous? b =
      (i.previous? b).filter (· ∈ tip :: i.ancestors n tip) := by
  have hknown : ∀ b ∈ (tip :: i.ancestors n tip).reverse, i.Knows b := by
    intro b hb
    rw [List.mem_reverse, List.mem_cons, ancestors_eq_trail] at hb
    rcases hb with rfl | hb
    · exact hi.knows_tip htip
    · obtain ⟨c, hc⟩ := exists_parent_of_mem_trail hb
      exact hi.knows_previous hc
  rw [top_succ htip]
  unfold previous?
  cases b.parent? with
  | none => rfl
  | some h =>
    rw [Option.bind_some, Option.bind_some, hi.get?_ofBlocks hknown]
    simp only [List.mem_reverse]

/-- The newest blocks of an index find the parents that it does, or none. -/
theorem WellKeyed.top_poorer (hi : i.WellKeyed) (k : Nat) :
    Poorer (i.top k).previous? i.previous? := by
  have hempty : ∀ b, empty.previous? b = none := by
    intro b
    unfold previous?
    cases b.parent? with
    | none => rfl
    | some h => exact get?_empty h
  intro b
  cases htip : i.tip? with
  | none =>
    right
    rw [top, htip]
    exact hempty b
  | some tip =>
    cases k with
    | zero =>
      right
      rw [top, htip]
      exact hempty b
    | succ n =>
      rw [hi.previous?_top htip]
      cases i.previous? b with
      | none => exact .inr rfl
      | some p =>
        rw [Option.filter_some]
        split
        · exact .inl rfl
        · exact .inr rfl

theorem history_of_rooted {history : List Block} (h : Rooted i.previous? b history) :
    i.history b = history := by
  rw [history_eq_trail, h.trail_eq, List.take_of_length_le]
  rw [h.length_eq]
  exact Nat.le_max_right _ _

/-- The newest blocks of an index show the newest blocks of the chain. -/
theorem WellKeyed.history_top {history : List Block} (hi : i.WellKeyed)
    (htip : i.tip? = some tip) (h : Rooted i.previous? tip history) (n : Nat) :
    (i.top (n + 1)).history tip = history.take n := by
  have hshown : trail i.previous? (min n tip.height) tip = history.take n := by
    rw [h.trail_eq, ← h.length_eq, ← List.take_eq_take_min]
  have hnewest : i.ancestors n tip = trail i.previous? (min n tip.height) tip := by
    rw [hshown, ancestors_eq_trail, h.trail_eq]
  have hfound : (i.top (n + 1)).previous? = fun b =>
      (i.previous? b).filter (· ∈ tip :: trail i.previous? (min n tip.height) tip) := by
    rw [← hnewest]
    exact funext (hi.previous?_top htip n)
  rw [history_eq_trail, hfound, trail_filter, hshown]
  · intro c hc
    exact decide_eq_true (List.mem_cons_of_mem tip hc)
  · rw [hshown]
    intro c hc
    apply decide_eq_false
    intro hmem
    exact Nat.lt_irrefl _ (h.height_lt n hc c hmem)
  · omega

end BlockIndex

end SporkNode.Chain
