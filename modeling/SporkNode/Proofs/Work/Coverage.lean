import Mathlib.Data.List.Basic
import SporkNode.Proofs.Work.Dependence

/-!
What the wave computes, said without its walk. The walk counts the blocks from the tip down to the
one that fills its window or completes the algorithm's share of it; each of its series is the
running average over a stretch of these, and the target follows from the series and from the times
of four blocks.
-/

namespace SporkNode.Work

/-- The running average of targets, in the order in which they come. -/
def averageOf (targets : List Target) : Target :=
  targets.zipIdx.foldl (fun average (next, before) => runningAverage average (before + 1) next) 0

theorem averageOf_append_singleton (targets : List Target) (t : Target) :
    averageOf (targets ++ [t]) = runningAverage (averageOf targets) (targets.length + 1) t := by
  simp [averageOf, List.zipIdx_append]

/-- The blocks of an algorithm. -/
def ofAlgorithm (tag : Int32) (blocks : List Block) : List Block :=
  blocks.filter (algorithmTag ·.version = tag)

/-! ## Where a walk stops -/

/-- Where the `k`-th block of an algorithm stands, counted from one. -/
def position? (tag : Int32) (k : Nat) (blocks : List Block) : Option Nat :=
  (blocks.findIdxs (algorithmTag ·.version = tag) 1)[k - 1]?

/-- How many of the blocks a walk counts. -/
def reach (w : Window) (tag : Int32) (blocks : List Block) : Nat :=
  min w.blocks ((position? tag w.own blocks).getD w.blocks)

/-- Where the cursor of a walk ends, counted from one. -/
def cursorPosition (w : Window) (tag : Int32) (blocks : List Block) : Nat :=
  if reach w tag blocks = w.blocks then reach w tag blocks else reach w tag blocks + 1

/-- A window with room for a further block after `n` of them. -/
def Window.Open (w : Window) (tag : Int32) (blocks : List Block) (n : Nat) : Prop :=
  n < w.blocks ∧ (ofAlgorithm tag (blocks.take n)).length < w.own

/-- The first `n` of the blocks close the window, and no fewer do. -/
structure Window.ClosedBy (w : Window) (tag : Int32) (blocks : List Block) (n : Nat) : Prop where
  before : ∀ m < n, w.Open tag blocks m
  closed : ¬ w.Open tag blocks n

theorem Window.ClosedBy.unique {w : Window} {tag : Int32} {blocks : List Block} {n n' : Nat}
    (h : w.ClosedBy tag blocks n) (h' : w.ClosedBy tag blocks n') : n = n' := by
  rcases Nat.lt_trichotomy n n' with hlt | heq | hgt
  · exact absurd (h'.before n hlt) h.closed
  · exact heq
  · exact absurd (h.before n' hgt) h'.closed

theorem Window.ClosedBy.lt_of_open {w : Window} {tag : Int32} {blocks : List Block} {m n : Nat}
    (h : w.ClosedBy tag blocks n) (hbefore : ∀ k < m, w.Open tag blocks k)
    (hopen : w.Open tag blocks m) : m < n := by
  rcases Nat.lt_trichotomy m n with hlt | rfl | hgt
  · exact hlt
  · exact absurd hopen h.closed
  · exact absurd (hbefore n hgt) h.closed

section

variable {tag : Int32} {blocks : List Block}

theorem ofAlgorithm_length_le (tag : Int32) (blocks : List Block) :
    (ofAlgorithm tag blocks).length ≤ blocks.length :=
  List.length_filter_le ..

theorem ofAlgorithm_take_mono (tag : Int32) (blocks : List Block) {m n : Nat} (h : m ≤ n) :
    (ofAlgorithm tag (blocks.take m)).length ≤ (ofAlgorithm tag (blocks.take n)).length :=
  ((List.take_sublist_take_left h).filter _).length_le

/-- Before the place of a match there are as many others as its number says. -/
theorem findIdxs_eq_some {p : Block → Bool} {start k n : Nat}
    (h : (blocks.findIdxs p start)[k]? = some n) :
    ∃ d, n = start + d ∧ ((blocks.take d).filter p).length = k ∧
      ((blocks.take (d + 1)).filter p).length = k + 1 := by
  induction blocks generalizing start k with
  | nil => simp at h
  | cons b rest ih =>
    rw [List.findIdxs_cons] at h
    by_cases hb : p b = true
    · rw [if_pos hb] at h
      cases k with
      | zero =>
        obtain rfl : start = n := by simpa using h
        exact ⟨0, rfl, rfl, by simp [hb]⟩
      | succ k =>
        obtain ⟨d, rfl, hbefore, hupTo⟩ := ih h
        exact ⟨d + 1, by omega, by simp [hb, hbefore], by simp [hb, hupTo]⟩
    · rw [if_neg hb] at h
      obtain ⟨d, rfl, hbefore, hupTo⟩ := ih h
      exact ⟨d + 1, by omega, by simp [hb, hbefore], by simp [hb, hupTo]⟩

theorem position_eq_some {k n : Nat} (hk : 0 < k) (h : position? tag k blocks = some n) :
    (∀ m < n, (ofAlgorithm tag (blocks.take m)).length < k) ∧
      (ofAlgorithm tag (blocks.take n)).length = k := by
  obtain ⟨d, rfl, hbefore, hupTo⟩ := findIdxs_eq_some h
  rw [Nat.sub_add_cancel hk, Nat.add_comm d] at hupTo
  refine ⟨fun m hm => ?_, hupTo⟩
  have hmono := ofAlgorithm_take_mono tag blocks (by omega : m ≤ d)
  have hlast : (ofAlgorithm tag (blocks.take d)).length = k - 1 := hbefore
  omega

theorem position_eq_none {k : Nat} (hk : 0 < k) (h : position? tag k blocks = none) :
    (ofAlgorithm tag blocks).length < k := by
  rw [position?, List.getElem?_eq_none_iff, List.length_findIdxs, List.countP_eq_length_filter] at h
  have hlength : (ofAlgorithm tag blocks).length ≤ k - 1 := h
  omega

/-- A window is closed where it is full, or where the algorithm's share of it is. -/
theorem closedBy_reach {w : Window} (hown : 0 < w.own) (tag : Int32) (blocks : List Block) :
    w.ClosedBy tag blocks (reach w tag blocks) := by
  unfold reach
  cases hpos : position? tag w.own blocks with
  | none =>
    have hfew := position_eq_none hown hpos
    rw [Option.getD_none, Nat.min_self]
    refine ⟨fun m hm => ⟨hm, ?_⟩, fun hopen => Nat.lt_irrefl _ hopen.1⟩
    have hall := ((List.take_sublist m blocks).filter (algorithmTag ·.version = tag)).length_le
    exact Nat.lt_of_le_of_lt hall hfew
  | some n =>
    obtain ⟨hbefore, hupTo⟩ := position_eq_some hown hpos
    rw [Option.getD_some]
    constructor
    · intro m hm
      exact ⟨by omega, hbefore m (by omega)⟩
    · rintro ⟨hroom, hshare⟩
      rcases Nat.le_total w.blocks n with hle | hle
      · rw [Nat.min_eq_left hle] at hroom
        exact Nat.lt_irrefl _ hroom
      · rw [Nat.min_eq_right hle, hupTo] at hshare
        exact Nat.lt_irrefl _ hshare

end

/-! ## Series -/

namespace Series

/-- The series over `blocks`, newest first, of a walk from `tip`. -/
def ofBlocks (tip : Block) (blocks : List Block) : Series :=
  ⟨blocks.length, averageOf (blocks.map (·.bits.toTarget)), blocks.getLastD tip⟩

theorem ofBlocks_append_singleton (tip : Block) (blocks : List Block) (b : Block) :
    ofBlocks tip (blocks ++ [b]) = (ofBlocks tip blocks).push b b.bits.toTarget := by
  simp [ofBlocks, push, averageOf_append_singleton]

/-- A snapshot is the series over the newest of the blocks. -/
theorem ofBlocks_take_append_singleton (tip : Block) (blocks : List Block) (b : Block)
    (size : Nat) :
    ofBlocks tip ((blocks ++ [b]).take size) =
      if (ofBlocks tip (blocks ++ [b])).count ≤ size then ofBlocks tip (blocks ++ [b])
      else ofBlocks tip (blocks.take size) := by
  have hcount : (ofBlocks tip (blocks ++ [b])).count = blocks.length + 1 := by simp [ofBlocks]
  rw [hcount]
  split
  · rw [List.take_of_length_le (by simpa using ‹_›)]
  · rw [List.take_append_of_le_length (by omega)]

end Series

namespace Survey

variable {w : Window} {tag : Int32} {tip : Block}

/-- The survey of a walk from `tip` that has counted `blocks` and stands at `cursor`. -/
def ofBlocks (tag : Int32) (tip : Block) (blocks : List Block) (cursor : Block) : Survey where
  cursor := cursor
  chain := .ofBlocks tip blocks
  chainFast := .ofBlocks tip (blocks.take Wave.fastBlocks)
  own := .ofBlocks tip (ofAlgorithm tag blocks)
  ownFast := .ofBlocks tip ((ofAlgorithm tag blocks).take Wave.fastOwn)

theorem visit_ofBlocks (tag : Int32) (tip : Block) (seen : List Block) (c : Block) :
    (ofBlocks tag tip seen c).visit tag = ofBlocks tag tip (seen ++ [c]) c := by
  have hchain := Series.ofBlocks_append_singleton tip seen c
  have hchainFast := Series.ofBlocks_take_append_singleton tip seen c Wave.fastBlocks
  have hown := Series.ofBlocks_append_singleton tip (ofAlgorithm tag seen) c
  have hownFast := Series.ofBlocks_take_append_singleton tip (ofAlgorithm tag seen) c Wave.fastOwn
  by_cases hm : algorithmTag c.version = tag
  · have hmatch : ofAlgorithm tag (seen ++ [c]) = ofAlgorithm tag seen ++ [c] := by
      simp [ofAlgorithm, hm]
    simp only [visit, ofBlocks, efficiencyOf_eq, Target.divide_one, hm, hmatch, if_true, true_and,
      hchain, hown, hchainFast, hownFast]
  · have hother : ofAlgorithm tag (seen ++ [c]) = ofAlgorithm tag seen := by
      simp [ofAlgorithm, hm]
    simp only [visit, ofBlocks, efficiencyOf_eq, Target.divide_one, hm, hother, if_false, false_and,
      hchain, hchainFast]

/-! ### The run -/

section

variable {blocks rest : List Block} {n : Nat} {c : Block} {s : Survey}

theorem take_succ_of_drop (h : blocks.drop n = c :: rest) :
    blocks.take (n + 1) = blocks.take n ++ [c] := by
  have hc : blocks[n]? = some c := by rw [← List.head?_drop, h, List.head?_cons]
  rw [List.take_add_one, hc, Option.toList_some]

theorem drop_succ_of_drop (h : blocks.drop n = c :: rest) : blocks.drop (n + 1) = rest := by
  rw [← List.drop_drop, h, List.drop_one, List.tail_cons]

theorem length_take_of_drop (h : blocks.drop n = c :: rest) : (blocks.take n).length = n := by
  have hlength := congrArg List.length h
  rw [List.length_drop, List.length_cons] at hlength
  rw [List.length_take]
  omega

theorem goesOn_ofBlocks_iff (h : blocks.drop n = c :: rest) :
    (ofBlocks tag tip (blocks.take n) c).goesOn w = true ↔ w.Open tag blocks n := by
  rw [goesOn_iff]
  show (blocks.take n).length < w.blocks ∧ _ ↔ _
  rw [length_take_of_drop h]
  rfl

theorem visit_ofBlocks_take (h : blocks.drop n = c :: rest) :
    (ofBlocks tag tip (blocks.take n) c).visit tag = ofBlocks tag tip (blocks.take (n + 1)) c := by
  rw [visit_ofBlocks, take_succ_of_drop h]

theorem next_ofBlocks_take (h : blocks.drop n = c :: rest) (older : Block) :
    (ofBlocks tag tip (blocks.take n) c).next tag older =
      ofBlocks tag tip (blocks.take (n + 1)) older := by
  rw [next, visit_ofBlocks_take h]
  rfl

theorem asks_ofBlocks_iff (h : blocks.drop n = c :: rest) :
    (ofBlocks tag tip (blocks.take n) c).asks w tag = true ↔
      w.Open tag blocks n ∧ n + 1 ≠ w.blocks := by
  rw [asks, Bool.and_eq_true, goesOn_ofBlocks_iff h, decide_eq_true_eq, visit_chain_count]
  show _ ∧ (blocks.take n).length + 1 ≠ w.blocks ↔ _
  rw [length_take_of_drop h]

/-- A walk at its end over the first `n` blocks. -/
def EndsOver (w : Window) (tag : Int32) (tip : Block) (blocks : List Block) (s : Survey) : Prop :=
  ∃ n cursor, w.ClosedBy tag blocks n ∧
    blocks[if n = w.blocks then n - 1 else n]? = some cursor ∧
    s = ofBlocks tag tip (blocks.take n) cursor

theorem settled_ofBlocks (h : blocks.drop n = c :: rest) (hbefore : ∀ m < n, w.Open tag blocks m)
    (hroom : n < w.blocks) (hasks : (ofBlocks tag tip (blocks.take n) c).asks w tag = false) :
    EndsOver w tag tip blocks ((ofBlocks tag tip (blocks.take n) c).settled w tag) := by
  have hc : blocks[n]? = some c := by rw [← List.head?_drop, h, List.head?_cons]
  rw [← Bool.not_eq_true, asks_ofBlocks_iff h] at hasks
  unfold settled
  split
  · rename_i hgo
    have hopen := (goesOn_ofBlocks_iff h).1 hgo
    have hfull : n + 1 = w.blocks := by
      by_contra hne
      exact hasks ⟨hopen, hne⟩
    refine ⟨n + 1, c, ⟨Nat.forall_lt_succ_right.2 ⟨hbefore, hopen⟩, fun hopen => ?_⟩, ?_,
      visit_ofBlocks_take h⟩
    · exact absurd hopen.1 (by omega)
    · rw [if_pos hfull, Nat.add_sub_cancel, hc]
  · rename_i hstop
    refine ⟨n, c, ⟨hbefore, fun hopen => hstop ((goesOn_ofBlocks_iff h).2 hopen)⟩, ?_, rfl⟩
    rw [if_neg (by omega), hc]

/-- By induction on what lies ahead: every block counted so far found the window open. -/
theorem walk_ofBlocks (h : blocks.drop n = c :: rest) (hbefore : ∀ m < n, w.Open tag blocks m)
    (hroom : n < w.blocks) (hwalk : walk w tag rest (ofBlocks tag tip (blocks.take n) c) = .ok s) :
    EndsOver w tag tip blocks s := by
  induction rest generalizing n c with
  | nil =>
    rw [walk_nil] at hwalk
    split at hwalk
    · cases hwalk
    · cases hwalk
      exact settled_ofBlocks h hbefore hroom (Bool.eq_false_iff.2 ‹_›)
  | cons older rest ih =>
    rw [walk_cons] at hwalk
    split at hwalk
    · rename_i hasks
      obtain ⟨hopen, hmore⟩ := (asks_ofBlocks_iff h).1 hasks
      rw [next_ofBlocks_take h] at hwalk
      exact ih (drop_succ_of_drop h) (Nat.forall_lt_succ_right.2 ⟨hbefore, hopen⟩) (by omega) hwalk
    · cases hwalk
      exact settled_ofBlocks h hbefore hroom (Bool.eq_false_iff.2 ‹_›)

end

/-- What a walk over `blocks` has made of them when it ends, and where it stands. -/
structure Covers (w : Window) (tag : Int32) (tip : Block) (blocks : List Block) (s : Survey) :
    Prop where
  chain : s.chain = .ofBlocks tip (blocks.take (reach w tag blocks))
  chainFast : s.chainFast = .ofBlocks tip ((blocks.take (reach w tag blocks)).take Wave.fastBlocks)
  own : s.own = .ofBlocks tip (ofAlgorithm tag (blocks.take (reach w tag blocks)))
  ownFast : s.ownFast =
    .ofBlocks tip ((ofAlgorithm tag (blocks.take (reach w tag blocks))).take Wave.fastOwn)
  cursor : blocks[cursorPosition w tag blocks - 1]? = some s.cursor

theorem walk_covers {history : List Block} {s : Survey} (hblocks : 0 < w.blocks) (hown : 0 < w.own)
    (h : walk w tag history (start tip) = .ok s) : s.Covers w tag tip (tip :: history) := by
  have hends : EndsOver w tag tip (tip :: history) s :=
    walk_ofBlocks (n := 0) rfl (fun m hm => absurd hm (Nat.not_lt_zero m)) hblocks h
  obtain ⟨n, cursor, hclosed, hcursor, rfl⟩ := hends
  obtain rfl := hclosed.unique (closedBy_reach hown tag (tip :: history))
  refine ⟨rfl, rfl, rfl, rfl, ?_⟩
  rw [cursorPosition]
  split
  · rw [if_pos ‹_›] at hcursor
    exact hcursor
  · rw [if_neg ‹_›] at hcursor
    exact hcursor

end Survey

/-! ## The target -/

namespace Wave

/-- The window that a tip is given once its chain is long enough. -/
def window (params : ChainParams) (network : NetworkParameters) (tip : Block) : Window :=
  ⟨min tip.height (fullBlocks (fixActive tip.height params network)),
    fastOwn * interleave (fixActive tip.height params network)⟩

/-- How long before the tip the last of `blocks` was found. -/
def age (tip : Block) (blocks : List Block) : Int := tip.time - (blocks.getLastD tip).time

/-- The blocks that are heeded: all of them, or the newest `size` if these took less than half of
`time`. -/
def heeded (size : Nat) (age time : Int) (blocks : List Block) : List Block :=
  if age < time.tdiv 2 then blocks.take size else blocks

/-- The target that the blocks of the candidate's algorithm lead to. -/
def ownFormula (params : ChainParams) (factor : Int) (tip : Block) (own : List Block)
    (o : Overflow) : Except WorkError Target :=
  if 1 < own.length then do
    let gap ← o.signed (age tip (own.take fastOwn))
    let round ← o.signed (params.spacing * factor)
    let blocks := heeded fastOwn gap round own
    let expected ← o.signed (blocks.length * params.spacing)
    let expected ← o.signed (expected * factor)
    let actual ← o.signed (age tip blocks)
    scaleByTime (averageOf (blocks.map (·.bits.toTarget))) actual expected o
  else .ok params.powLimit

/-- The target that a chain leads to. -/
def formula (params : ChainParams) (network : NetworkParameters) (tip : Block)
    (history : List Block) (candidate : Candidate) (o : Overflow) : Except WorkError Target := do
  let blocks := tip :: history
  let tag := algorithmTag candidate.version
  let w := window params network tip
  let n := reach w tag blocks
  let gap ← o.signed (age tip (blocks.take fastBlocks))
  let own ← ownFormula params (interleave (fixActive tip.height params network)) tip
    (ofAlgorithm tag (blocks.take n)) o
  let burst := gap < params.spacing.tdiv 2
  let expected ← o.signed ((if burst then fastBlocks else n : Nat) * params.spacing)
  let actual ← o.signed
    (age tip (blocks.take (if burst then fastBlocks else cursorPosition w tag blocks)))
  let scaled ← scaleByTime own actual expected o
  let limited := if scaled < params.powLimit then scaled else params.powLimit
  return applyHandbrake limited
    (handbrakeForce candidate.version (tip.height + 1) params network) params.powLimit

variable {params : ChainParams} {network : NetworkParameters} {tip : Block}
  {history : List Block} {candidate : Candidate} {w : Window} {s : Survey} {own : List Block}
  {factor : Int} {o : Overflow}

theorem plan_window (hr : params.noRetargeting = false)
    (hpast : (window params network tip).own ≤ tip.height) :
    plan params network tip = .average (window params network tip) := by
  rw [plan_eq]
  dsimp only
  rw [hr, if_neg Bool.false_ne_true]
  unfold window at hpast ⊢
  by_cases hshort : tip.height < fullBlocks (fixActive tip.height params network)
  · rw [if_pos hshort, if_neg (Nat.not_lt.2 hpast), Nat.min_eq_left (Nat.le_of_lt hshort)]
  · rw [if_neg hshort, Nat.min_eq_right (Nat.not_lt.1 hshort)]

theorem ownDefended_ofBlocks (hown : s.own = .ofBlocks tip own)
    (hfast : s.ownFast = .ofBlocks tip (own.take fastOwn)) (gap round : Int) :
    s.ownDefended gap round = .ofBlocks tip (heeded fastOwn gap round own) := by
  unfold Survey.ownDefended heeded
  rw [hown, hfast]
  exact (apply_ite (Series.ofBlocks tip) _ _ _).symm

theorem ownTarget_eq (params : ChainParams) (factor : Int) (o : Overflow)
    (hown : s.own = .ofBlocks tip own) (hfast : s.ownFast = .ofBlocks tip (own.take fastOwn)) :
    ownTarget params factor tip s o = ownFormula params factor tip own o := by
  have hcount : s.own.count = own.length := by rw [hown]; rfl
  unfold ownTarget ownFormula
  rw [hcount]
  simp only [ownDefended_ofBlocks hown hfast]
  rw [hfast]
  rfl

theorem limited_eq (powLimit target : Target) (version : Int32) (height : Nat) :
    limited powLimit target (efficiencyOf version height) =
      if target < powLimit then target else powLimit := by
  have hscale : target.scale 1 = target := by
    apply BitVec.eq_of_toNat_eq
    rw [Target.toNat_scale, Nat.mul_one, Nat.mod_eq_of_lt (Target.toNat_lt target)]
  rw [efficiencyOf_eq, limited, Target.divide_one, hscale]

/-- A window takes in more than its fast snapshots, and no more than there is. -/
theorem reach_bounds (hc : Complete tip history) (tag : Int32)
    (hpast : (window params network tip).own ≤ tip.height) :
    fastBlocks ≤ reach (window params network tip) tag (tip :: history) ∧
      reach (window params network tip) tag (tip :: history) ≤ (tip :: history).length := by
  have hfull : ∀ fixed, fastOwn * interleave fixed ≤ fullBlocks fixed ∧
      fastBlocks ≤ fastOwn * interleave fixed := by decide
  have hfits := hfull (fixActive tip.height params network)
  have hheight := hc.height_le
  have hwide : fastBlocks ≤ (window params network tip).own ∧
      (window params network tip).own ≤ (window params network tip).blocks ∧
      (window params network tip).blocks ≤ tip.height := by
    unfold window at hpast ⊢
    dsimp only at hpast ⊢
    omega
  have hown : 0 < (window params network tip).own := Nat.mul_pos (by decide) (interleave_pos _)
  have hclosed := closedBy_reach hown tag (tip :: history)
  have hmost : reach (window params network tip) tag (tip :: history) ≤
      (window params network tip).blocks := Nat.min_le_left _ _
  refine ⟨?_, ?_⟩
  · by_contra hfew
    apply hclosed.closed
    have hshare := ofAlgorithm_length_le tag
      ((tip :: history).take (reach (window params network tip) tag (tip :: history)))
    rw [List.length_take] at hshare
    exact ⟨by omega, by omega⟩
  · rw [List.length_cons]
    omega

theorem getLastD_take {blocks : List Block} {n : Nat} {b : Block} (hn : 0 < n)
    (h : blocks[n - 1]? = some b) (tip : Block) : (blocks.take n).getLastD tip = b := by
  rw [List.getLastD_eq_getLast?, List.getLast?_take, if_neg (Nat.ne_of_gt hn), h]
  rfl

theorem cursorPosition_pos {w : Window} {tag : Int32} {blocks : List Block}
    (h : 0 < reach w tag blocks) : 0 < cursorPosition w tag blocks := by
  unfold cursorPosition
  split <;> omega

theorem chainFast_of_covers {tag : Int32} {blocks : List Block}
    (hs : s.Covers w tag tip blocks) (hleast : fastBlocks ≤ reach w tag blocks) :
    s.chainFast = .ofBlocks tip (blocks.take fastBlocks) := by
  rw [hs.chainFast, List.take_take, Nat.min_eq_left hleast]

/-- How many blocks the chain is scaled by, after a burst or without one. -/
theorem defended_count {tag : Int32} {blocks : List Block} (hs : s.Covers w tag tip blocks)
    (hleast : fastBlocks ≤ reach w tag blocks) (hmost : reach w tag blocks ≤ blocks.length)
    (gap spacing : Int) :
    (s.defended gap spacing).chain.count =
      if gap < spacing.tdiv 2 then fastBlocks else reach w tag blocks := by
  have hfast := chainFast_of_covers hs hleast
  unfold Survey.defended
  split
  · show s.chainFast.count = fastBlocks
    rw [hfast]
    exact List.length_take_of_le (Nat.le_trans hleast hmost)
  · rw [hs.chain]
    exact List.length_take_of_le hmost

/-- How far back the chain is looked at, after a burst or without one. -/
theorem defended_age {tag : Int32} {blocks : List Block} (hs : s.Covers w tag tip blocks)
    (hleast : fastBlocks ≤ reach w tag blocks) (gap spacing : Int) :
    tip.time - (s.defended gap spacing).cursor.time =
      age tip (blocks.take
        (if gap < spacing.tdiv 2 then fastBlocks else cursorPosition w tag blocks)) := by
  have hfast := chainFast_of_covers hs hleast
  have hpos : 0 < reach w tag blocks := by
    unfold fastBlocks at hleast
    omega
  unfold Survey.defended
  split
  · show tip.time - s.chainFast.earliest.time = _
    rw [hfast]
    rfl
  · rw [age, getLastD_take (cursorPosition_pos hpos) hs.cursor]

theorem defended_own (s : Survey) (gap spacing : Int) :
    (s.defended gap spacing).own = s.own ∧ (s.defended gap spacing).ownFast = s.ownFast := by
  unfold Survey.defended
  split <;> exact ⟨rfl, rfl⟩

theorem heeded_sublist (size : Nat) (gap time : Int) (blocks : List Block) :
    (heeded size gap time blocks).Sublist blocks := by
  unfold heeded
  split
  · exact List.take_sublist _ _
  · exact List.Sublist.refl _

/-- The blocks whose targets a wave averages. -/
def walked (params : ChainParams) (network : NetworkParameters) (tip : Block)
    (history : List Block) (candidate : Candidate) : List Block :=
  match plan params network tip with
  | .average w => (tip :: history).take (reach w (algorithmTag candidate.version) (tip :: history))
  | _ => []

/-- The blocks of the candidate's algorithm that the walk has met. -/
def met (params : ChainParams) (network : NetworkParameters) (tip : Block) (history : List Block)
    (candidate : Candidate) : List Block :=
  ofAlgorithm (algorithmTag candidate.version) (walked params network tip history candidate)

theorem met_length_le (history : List Block) (candidate : Candidate)
    (hp : plan params network tip = .average w) :
    (met params network tip history candidate).length ≤ w.blocks := by
  rw [met, walked, hp]
  calc
    _ ≤ ((tip :: history).take
          (reach w (algorithmTag candidate.version) (tip :: history))).length :=
      ofAlgorithm_length_le _ _
    _ ≤ reach w (algorithmTag candidate.version) (tip :: history) := List.length_take_le _ _
    _ ≤ w.blocks := Nat.min_le_left _ _

theorem survey_series (hp : plan params network tip = .average w)
    (h : survey params w tip history candidate o = .ok s) :
    s.own = .ofBlocks tip (met params network tip history candidate) ∧
      s.ownFast = .ofBlocks tip ((met params network tip history candidate).take fastOwn) := by
  obtain ⟨s₀, gap, hwalk, -, rfl⟩ := survey_eq_ok h
  have hcovers := Survey.walk_covers (window_of_plan hp).1 (own_bounds_of_plan hp).1 hwalk
  obtain ⟨hown, hownFast⟩ := defended_own s₀ gap params.spacing
  have hmet : met params network tip history candidate =
      ofAlgorithm (algorithmTag candidate.version)
        ((tip :: history).take (reach w (algorithmTag candidate.version) (tip :: history))) := by
    rw [met, walked, hp]
  rw [hmet]
  exact ⟨hown.trans hcovers.own, hownFast.trans hcovers.ownFast⟩

theorem targetOf_defended (o : Overflow)
    (hs : s.Covers (window params network tip) (algorithmTag candidate.version) tip
      (tip :: history))
    (hleast : fastBlocks ≤
      reach (window params network tip) (algorithmTag candidate.version) (tip :: history))
    (hmost : reach (window params network tip) (algorithmTag candidate.version) (tip :: history) ≤
      (tip :: history).length) :
    (o.signed (tip.time - s.chainFast.earliest.time) >>= fun gap =>
        targetOf params network tip candidate (s.defended gap params.spacing) o) =
      formula params network tip history candidate o := by
  have hage : tip.time - s.chainFast.earliest.time =
      age tip ((tip :: history).take fastBlocks) := by
    rw [chainFast_of_covers hs hleast]
    rfl
  unfold formula
  rw [hage]
  apply bind_congr
  intro gap
  obtain ⟨hown, hownFast⟩ := defended_own s gap params.spacing
  have hlead := ownTarget_eq params (interleave (fixActive tip.height params network)) o
    (hown.trans hs.own) (hownFast.trans hs.ownFast)
  unfold targetOf
  simp only [hlead, defended_count hs hleast hmost, defended_age hs hleast, limited_eq]

theorem nextTarget_formula (hr : params.noRetargeting = false) (hc : Complete tip history)
    (hpast : (window params network tip).own ≤ tip.height) (candidate : Candidate) (o : Overflow) :
    nextTarget params network tip history candidate o =
      .ofTarget <$> formula params network tip history candidate o := by
  have hplan := plan_window hr hpast
  obtain ⟨hleast, hmost⟩ := reach_bounds hc (algorithmTag candidate.version) hpast
  obtain ⟨s, hwalk⟩ := walk_ok candidate hplan hc
  have hs := Survey.walk_covers (window_of_plan hplan).1 (own_bounds_of_plan hplan).1 hwalk
  rw [← targetOf_defended o hs hleast hmost, nextTarget_of_walk hplan hwalk, map_bind]

/-- For sound parameters, a complete chain and a tip past the first blocks: what the walk has
counted and where it stands when it ends, and the target that follows, whatever becomes of
overflows. -/
theorem nextTarget_covers (hv : params.validate = .ok ()) (hr : params.noRetargeting = false)
    (hc : Complete tip history) (hpast : (window params network tip).own ≤ tip.height)
    (candidate : Candidate) :
    let tag := algorithmTag candidate.version
    let w := window params network tip
    plan params network tip = .average w ∧
    fastBlocks ≤ reach w tag (tip :: history) ∧
    reach w tag (tip :: history) ≤ (tip :: history).length ∧
    (∃ s, Survey.walk w tag history (.start tip) = .ok s ∧ s.Covers w tag tip (tip :: history)) ∧
    Settles (nextTarget params network tip history candidate ·) (fun _ => True) ∧
    ∀ o, nextTarget params network tip history candidate o =
      .ofTarget <$> formula params network tip history candidate o := by
  intro tag w
  have hspacing := ChainParams.spacing_pos hv
  have hplan := plan_window hr hpast
  obtain ⟨hleast, hmost⟩ := reach_bounds hc tag hpast
  obtain ⟨s, hwalk⟩ := walk_ok candidate hplan hc
  have hs := Survey.walk_covers (window_of_plan hplan).1 (own_bounds_of_plan hplan).1 hwalk
  exact ⟨hplan, hleast, hmost, ⟨s, hwalk, hs⟩, nextTarget_settles network candidate hspacing hc,
    nextTarget_formula hr hc hpast candidate⟩

end Wave

/-- On a chain whose algorithms take turns the tenth block of one is the nineteenth of all, and the
walk ends on the twentieth. -/
theorem nextTarget_covers_turns :
    ChainParams.main.validate = .ok () ∧ ChainParams.main.noRetargeting = false ∧
    Complete (turnBlock 30) (below turnBlock 30) ∧
    Wave.window .main (fixSet true) (turnBlock 30) = ⟨30, 10⟩ ∧
    reach ⟨30, 10⟩ 0x100 (turnBlock 30 :: below turnBlock 30) = 19 ∧
    cursorPosition ⟨30, 10⟩ 0x100 (turnBlock 30 :: below turnBlock 30) = 20 ∧
    (∃ s, Survey.walk ⟨30, 10⟩ 0x100 (below turnBlock 30) (.start (turnBlock 30)) = .ok s ∧
      s.Covers ⟨30, 10⟩ 0x100 (turnBlock 30) (turnBlock 30 :: below turnBlock 30)) ∧
    Wave.nextTarget .main (fixSet true) (turnBlock 30) (below turnBlock 30) ⟨0x100, 3720⟩ .faults =
      .ok ⟨0x1e0e6665⟩ ∧
    .ofTarget <$> Wave.formula .main (fixSet true) (turnBlock 30) (below turnBlock 30)
      ⟨0x100, 3720⟩ .faults = .ok (⟨0x1e0e6665⟩ : CompactTarget) := by
  have hv : ChainParams.main.validate = .ok () := by decide
  have hc : Complete (turnBlock 30) (below turnBlock 30) := complete_below (fun _ => rfl) 30
  have hwindow : Wave.window .main (fixSet true) (turnBlock 30) = ⟨30, 10⟩ := by decide
  have hpast : (Wave.window .main (fixSet true) (turnBlock 30)).own ≤ (turnBlock 30).height := by
    decide
  have hformula : CompactTarget.ofTarget <$> Wave.formula .main (fixSet true) (turnBlock 30)
      (below turnBlock 30) ⟨0x100, 3720⟩ .faults = .ok ⟨0x1e0e6665⟩ := by decide +kernel
  obtain ⟨-, -, -, hcovers, -, hnext⟩ := Wave.nextTarget_covers hv rfl hc hpast ⟨0x100, 3720⟩
  rw [hwindow] at hcovers
  exact ⟨hv, rfl, hc, hwindow, by decide +kernel, by decide +kernel, hcovers,
    (hnext .faults).trans hformula, hformula⟩

end SporkNode.Work
