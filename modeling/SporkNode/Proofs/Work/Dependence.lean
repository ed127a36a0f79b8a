import Mathlib.Data.List.Forall2
import SporkNode.Proofs.Work.Walk

/-!
What the wave depends on. Of a block within its reach it sees the height, the time and the
algorithm, and the bits if the algorithm is the candidate's; of the candidate it sees the algorithm
alone. Two chains that look alike as far as the walk on one of them goes are answered alike,
whatever their hashes, the rest of their versions and all that lies deeper.
-/

namespace SporkNode.Work

/-- Two blocks that look alike to a walk for the algorithm `tag`. -/
structure Block.Alike (tag : Int32) (b b' : Block) : Prop where
  height : b.height = b'.height
  time : b.time = b'.time
  algorithm : algorithmTag b.version = algorithmTag b'.version
  bits : algorithmTag b.version = tag → b.bits = b'.bits

instance decidableAlike (tag : Int32) (b b' : Block) : Decidable (b.Alike tag b') :=
  decidable_of_iff
    (b.height = b'.height ∧ b.time = b'.time ∧
      algorithmTag b.version = algorithmTag b'.version ∧
      (algorithmTag b.version = tag → b.bits = b'.bits))
    ⟨fun ⟨hh, ht, ha, hb⟩ => ⟨hh, ht, ha, hb⟩,
      fun h => ⟨h.height, h.time, h.algorithm, h.bits⟩⟩

/-! ## Series and surveys -/

namespace Series

/-- Series over equally many blocks that go equally far back. Their averages may differ. -/
structure SameSpan (tag : Int32) (s s' : Series) : Prop where
  count : s.count = s'.count
  earliest : s.earliest.Alike tag s'.earliest

structure Alike (tag : Int32) (s s' : Series) : Prop extends SameSpan tag s s' where
  average : s.average = s'.average

variable {tag : Int32} {s s' : Series} {b b' : Block}

theorem SameSpan.push (h : s.SameSpan tag s') (hb : b.Alike tag b') (t t' : Target) :
    (s.push b t).SameSpan tag (s'.push b' t') :=
  ⟨congrArg (· + 1) h.count, hb⟩

theorem Alike.push (h : s.Alike tag s') (hb : b.Alike tag b') (t : Target) :
    (s.push b t).Alike tag (s'.push b' t) := by
  refine ⟨h.toSameSpan.push hb t t, ?_⟩
  simp only [Series.push, h.average, h.count]

end Series

namespace Survey

/-- Surveys from which the same target follows. -/
structure Alike (tag : Int32) (s s' : Survey) : Prop where
  cursor : s.cursor.Alike tag s'.cursor
  chain : s.chain.SameSpan tag s'.chain
  chainFast : s.chainFast.SameSpan tag s'.chainFast
  own : s.own.Alike tag s'.own
  ownFast : s.ownFast.Alike tag s'.ownFast

variable {tag : Int32} {s s' : Survey} {w : Window} {history history' : List Block}

theorem Alike.start {tip tip' : Block} (h : tip.Alike tag tip') :
    (start tip).Alike tag (start tip') :=
  ⟨h, ⟨rfl, h⟩, ⟨rfl, h⟩, ⟨⟨rfl, h⟩, rfl⟩, ⟨⟨rfl, h⟩, rfl⟩⟩

theorem visit_chainFast (s : Survey) (tag : Int32) :
    (s.visit tag).chainFast =
      if (s.visit tag).chain.count ≤ Wave.fastBlocks then (s.visit tag).chain
      else s.chainFast := rfl

theorem visit_ownFast (s : Survey) (tag : Int32) :
    (s.visit tag).ownFast =
      if algorithmTag s.cursor.version = tag ∧ (s.visit tag).own.count ≤ Wave.fastOwn then
        (s.visit tag).own
      else s.ownFast := rfl

/-- The targets of other algorithms go into the average over all blocks only, which is not
compared. -/
theorem Alike.visit (h : s.Alike tag s') : (s.visit tag).Alike tag (s'.visit tag) := by
  have hb := h.cursor
  have hchain : (s.visit tag).chain.SameSpan tag (s'.visit tag).chain := h.chain.push hb _ _
  have hown : (s.visit tag).own.Alike tag (s'.visit tag).own := by
    by_cases hm : algorithmTag s.cursor.version = tag
    · have hm' : algorithmTag s'.cursor.version = tag := hb.algorithm ▸ hm
      simp only [Survey.visit, hm, hm', if_true, efficiencyOf_eq, hb.bits hm]
      exact h.own.push hb _
    · have hm' : ¬ algorithmTag s'.cursor.version = tag := hb.algorithm ▸ hm
      simp only [Survey.visit, hm, hm', if_false]
      exact h.own
  refine ⟨hb, hchain, ?_, hown, ?_⟩
  · rw [visit_chainFast, visit_chainFast, hchain.count]
    split
    · exact hchain
    · exact h.chainFast
  · rw [visit_ownFast, visit_ownFast, hb.algorithm, hown.count]
    split
    · exact hown
    · exact h.ownFast

theorem Alike.goesOn_eq (h : s.Alike tag s') : s.goesOn w = s'.goesOn w := by
  simp only [goesOn, h.chain.count, h.own.count]

/-! ## The walk and its depth -/

/-- Whether a walk wants the block before the one at its cursor. -/
def asks (w : Window) (tag : Int32) (s : Survey) : Bool :=
  s.goesOn w && (s.visit tag).chain.count ≠ w.blocks

/-- What a walk ends with if it wants no more blocks. -/
def settled (w : Window) (tag : Int32) (s : Survey) : Survey :=
  if s.goesOn w then s.visit tag else s

/-- A walk moved on to an older block. -/
def next (tag : Int32) (s : Survey) (older : Block) : Survey :=
  { s.visit tag with cursor := older }

theorem walk_nil (w : Window) (tag : Int32) (s : Survey) :
    walk w tag [] s =
      if s.asks w tag then .error (.ancestorMissing s.cursor.height)
      else .ok (s.settled w tag) := by
  unfold walk asks settled
  cases s.goesOn w with
  | false => rfl
  | true =>
    by_cases hfull : (s.visit tag).chain.count = w.blocks
    · simp only [hfull, ne_eq, not_true_eq_false, decide_false, Bool.and_false, if_true,
        Bool.false_eq_true, if_false]
    · simp only [hfull, ne_eq, not_false_eq_true, decide_true, Bool.and_true, if_true, if_false]
      rfl

theorem walk_cons (w : Window) (tag : Int32) (older : Block) (rest : List Block) (s : Survey) :
    walk w tag (older :: rest) s =
      if s.asks w tag then walk w tag rest (s.next tag older) else .ok (s.settled w tag) := by
  rw [walk]
  unfold asks settled next
  cases s.goesOn w with
  | false => rfl
  | true =>
    by_cases hfull : (s.visit tag).chain.count = w.blocks
    · simp only [hfull, ne_eq, not_true_eq_false, decide_false, Bool.and_false, if_true,
        Bool.false_eq_true, if_false]
    · simp only [hfull, ne_eq, not_false_eq_true, decide_true, Bool.and_true, if_true, if_false]

theorem walk_of_not_asks (h : s.asks w tag = false) (history : List Block) :
    walk w tag history s = .ok (s.settled w tag) := by
  cases history with
  | nil => rw [walk_nil, h, if_neg Bool.false_ne_true]
  | cons older rest => rw [walk_cons, h, if_neg Bool.false_ne_true]

/-- How many further blocks a walk wants, the last of them perhaps in vain. -/
def depth (w : Window) (tag : Int32) : List Block → Survey → Nat
  | [], s => if s.asks w tag then 1 else 0
  | older :: rest, s => if s.asks w tag then depth w tag rest (s.next tag older) + 1 else 0

theorem Alike.asks_eq (h : s.Alike tag s') : s.asks w tag = s'.asks w tag := by
  simp only [asks, h.goesOn_eq, h.visit.chain.count]

theorem Alike.settled (h : s.Alike tag s') : (s.settled w tag).Alike tag (s'.settled w tag) := by
  unfold Survey.settled
  rw [h.goesOn_eq]
  split
  · exact h.visit
  · exact h

theorem Alike.next (h : s.Alike tag s') {older older' : Block} (ho : older.Alike tag older') :
    (s.next tag older).Alike tag (s'.next tag older') :=
  ⟨ho, h.visit.chain, h.visit.chainFast, h.visit.own, h.visit.ownFast⟩

/-- Walks that end alike, be it for want of the same block. -/
inductive EndAlike (tag : Int32) : Except WorkError Survey → Except WorkError Survey → Prop
  | settled {s s' : Survey} (h : s.Alike tag s') : EndAlike tag (.ok s) (.ok s')
  | failed (e : WorkError) : EndAlike tag (.error e) (.error e)

theorem EndAlike.bind_eq {α : Type} {x x' : Except WorkError Survey}
    {f f' : Survey → Except WorkError α} (h : EndAlike tag x x')
    (hf : ∀ s s' : Survey, s.Alike tag s' → f s = f' s') : x >>= f = x' >>= f' := by
  cases h with
  | settled h => exact hf _ _ h
  | failed e => rfl

theorem Alike.walk_of_not_asks (h : s.Alike tag s') (hasks : s.asks w tag = false)
    (history history' : List Block) :
    EndAlike tag (walk w tag history s) (walk w tag history' s') := by
  have hasks' : s'.asks w tag = false := by rw [← h.asks_eq, hasks]
  rw [Survey.walk_of_not_asks hasks, Survey.walk_of_not_asks hasks']
  exact .settled h.settled

/-- Of the second chain nothing is asked beyond what the walk on the first one wants. -/
theorem Alike.walk (h : s.Alike tag s')
    (hread : List.Forall₂ (Block.Alike tag) (history.take (depth w tag history s))
      (history'.take (depth w tag history s))) :
    EndAlike tag (walk w tag history s) (walk w tag history' s') := by
  induction history generalizing history' s s' with
  | nil =>
    cases hasks : s.asks w tag with
    | false => exact h.walk_of_not_asks hasks _ _
    | true =>
      rw [depth, hasks, if_pos rfl, List.take_nil, List.forall₂_nil_left_iff,
        List.take_eq_nil_iff] at hread
      obtain rfl := hread.resolve_left (by decide)
      rw [walk_nil, walk_nil, ← h.asks_eq, hasks, if_pos rfl, if_pos rfl, h.cursor.height]
      exact .failed _
  | cons older rest ih =>
    cases hasks : s.asks w tag with
    | false => exact h.walk_of_not_asks hasks _ _
    | true =>
      rw [depth, hasks, if_pos rfl] at hread
      cases history' with
      | nil => cases hread
      | cons older' rest' =>
        rw [List.take_succ_cons, List.take_succ_cons, List.forall₂_cons] at hread
        obtain ⟨ho, hrest⟩ := hread
        rw [walk_cons, walk_cons, ← h.asks_eq, hasks, if_pos rfl, if_pos rfl]
        exact ih (h.next ho) hrest

theorem Alike.defended (h : s.Alike tag s') (gap spacing : Int) :
    (s.defended gap spacing).Alike tag (s'.defended gap spacing) := by
  unfold Survey.defended
  split
  · exact ⟨h.chainFast.earliest, h.chainFast, h.chainFast, h.own, h.ownFast⟩
  · exact h

theorem Alike.ownDefended (h : s.Alike tag s') (gap round : Int) :
    (s.ownDefended gap round).Alike tag (s'.ownDefended gap round) := by
  unfold Survey.ownDefended
  split
  · exact h.ownFast
  · exact h.own

end Survey

/-! ## The wave -/

theorem handbrakeForce_congr {version version' : Int32}
    (h : algorithmTag version = algorithmTag version') (height : Nat) (params : ChainParams)
    (network : NetworkParameters) :
    handbrakeForce version height params network =
      handbrakeForce version' height params network := by
  simp only [handbrakeForce, Algorithm.ofVersion?, h]

namespace Wave

variable {params : ChainParams} {network : NetworkParameters} {tag : Int32} {tip tip' : Block}
  {history history' : List Block} {candidate candidate' : Candidate} {s s' : Survey}

/-- How many blocks below the tip the wave wants to see. -/
def depth (params : ChainParams) (network : NetworkParameters) (tip : Block)
    (history : List Block) (candidate : Candidate) : Nat :=
  match plan params network tip with
  | .average w => Survey.depth w (algorithmTag candidate.version) history (.start tip)
  | _ => 0

theorem plan_congr (h : tip.Alike tag tip') :
    plan params network tip = plan params network tip' := by
  simp only [plan, h.height]

theorem ownTarget_congr (h : s.Alike tag s') (htip : tip.Alike tag tip') (factor : Int)
    (o : Overflow) : ownTarget params factor tip s o = ownTarget params factor tip' s' o := by
  have hown := h.ownDefended
  unfold ownTarget
  simp only [h.own.count, h.ownFast.earliest.time, htip.time, (hown _ _).average, (hown _ _).count,
    (hown _ _).earliest.time]

theorem targetOf_congr (h : s.Alike tag s') (htip : tip.Alike tag tip')
    (hcandidate : algorithmTag candidate.version = algorithmTag candidate'.version)
    (o : Overflow) :
    targetOf params network tip candidate s o = targetOf params network tip' candidate' s' o := by
  unfold targetOf
  simp only [htip.height, htip.time, h.cursor.time, h.chain.count, ownTarget_congr h htip,
    efficiencyOf_eq, handbrakeForce_congr hcandidate]

/-- The wave answers alike on chains that look alike as far down as it looks, whatever becomes of
overflows. -/
theorem nextTarget_congr (hr : params.noRetargeting = false)
    (hcandidate : algorithmTag candidate.version = algorithmTag candidate'.version)
    (htip : tip.Alike (algorithmTag candidate.version) tip')
    (hread : List.Forall₂ (Block.Alike (algorithmTag candidate.version))
      (history.take (depth params network tip history candidate))
      (history'.take (depth params network tip history candidate)))
    (o : Overflow) :
    nextTarget params network tip history candidate o =
      nextTarget params network tip' history' candidate' o := by
  unfold depth at hread
  unfold nextTarget
  rw [← plan_congr htip]
  cases hp : plan params network tip with
  | keep => exact absurd hp (plan_ne_keep hr)
  | bootstrap => rfl
  | average w =>
    rw [hp] at hread
    have hwalk := (Survey.Alike.start htip).walk hread
    show survey params w tip history candidate o >>= _ =
      survey params w tip' history' candidate' o >>= _
    unfold survey
    rw [bind_assoc, bind_assoc, ← hcandidate]
    apply hwalk.bind_eq
    intro s s' hs
    rw [bind_assoc, bind_assoc, htip.time, hs.chainFast.earliest.time]
    apply bind_congr
    intro gap
    show targetOf params network tip candidate (s.defended gap params.spacing) o >>= _ =
      targetOf params network tip' candidate' (s'.defended gap params.spacing) o >>= _
    rw [targetOf_congr (hs.defended gap params.spacing) htip hcandidate]

end Wave

/-- A chain whose algorithms take turns. -/
def turnBlock (height : Nat) : Block :=
  ⟨.zero, none, height, if height % 2 = 0 then 0x100 else 0, 120 * height,
    ChainParams.main.limitBits⟩

/-- To a walk for the algorithm of even heights the same chain down to height 11, with other
hashes, other bits of the version and other targets for the other algorithm. -/
def disguisedBlock (height : Nat) : Block :=
  { turnBlock height with
    hash := .ofNat height
    parent? := some .zero
    height := if height < 11 then 0 else height
    version := (turnBlock height).version ||| 0x20000000
    bits := if height % 2 = 0 ∧ 11 ≤ height then (turnBlock height).bits else ⟨0x1b00ffff⟩ }

theorem nextTarget_congr_disguised :
    Wave.depth .main (fixSet true) (turnBlock 30) (below turnBlock 30) ⟨0x100, 3720⟩ = 19 ∧
    Wave.nextTarget .main (fixSet true) (turnBlock 30) (below turnBlock 30) ⟨0x100, 3720⟩ .faults =
      Wave.nextTarget .main (fixSet true) (disguisedBlock 30) (below disguisedBlock 30)
        ⟨0x20000101, 0⟩ .faults := by
  refine ⟨by decide +kernel, Wave.nextTarget_congr rfl (by decide) (by decide) ?_ .faults⟩
  decide +kernel

end SporkNode.Work
