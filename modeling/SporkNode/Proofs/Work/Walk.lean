import SporkNode.Proofs.Work.Decay

/-!
The walk over a complete chain. A window never reaches below the second block, so on a chain that
goes down to its first block the walk finds every block that it asks for; and as it always counts
a block, no scaling divides by zero or asks for an empty range. So work is always required, unless
a time overflows; and if the times of a full window fit, also where overflows wrap.
-/

namespace SporkNode.Work

/-- Each block stands one above the next, down to the first. -/
def Complete : Block → List Block → Prop
  | b, [] => b.height ≤ 1
  | b, older :: rest => b.height = older.height + 1 ∧ Complete older rest

instance decidableComplete : (b : Block) → (history : List Block) → Decidable (Complete b history)
  | b, [] => inferInstanceAs (Decidable (b.height ≤ 1))
  | b, older :: rest =>
    have := decidableComplete older rest
    inferInstanceAs (Decidable (b.height = older.height + 1 ∧ Complete older rest))

theorem Complete.height_le {b : Block} {history : List Block} (h : Complete b history) :
    b.height ≤ history.length + 1 := by
  induction history generalizing b with
  | nil => exact h
  | cons older rest ih =>
    obtain ⟨hb, hrest⟩ := h
    rw [List.length_cons, hb]
    exact Nat.succ_le_succ (ih hrest)

/-- The blocks below a height, newest first, of a chain given by the block at each height. -/
def below (block : Nat → Block) : Nat → List Block
  | 0 => []
  | n + 1 => block n :: below block n

theorem complete_below {block : Nat → Block} (h : ∀ n, (block n).height = n) (n : Nat) :
    Complete (block n) (below block n) := by
  induction n with
  | zero =>
    show (block 0).height ≤ 1
    rw [h]
    exact Nat.zero_le 1
  | succ n ih =>
    refine ⟨?_, ih⟩
    rw [h, h]

theorem getElem?_below (block : Nat → Block) {n k : Nat} (h : k ≤ n) :
    (block n :: below block n)[k]? = some (block (n - k)) := by
  induction k generalizing n with
  | zero => rfl
  | succ k ih =>
    cases n with
    | zero => exact absurd h (Nat.not_succ_le_zero k)
    | succ n =>
      rw [List.getElem?_cons_succ, Nat.succ_sub_succ]
      exact ih (Nat.le_of_succ_le_succ h)

theorem mem_below {block : Nat → Block} {n : Nat} {b : Block} (h : b ∈ block n :: below block n) :
    ∃ k, b = block k := by
  induction n with
  | zero => exact ⟨0, List.mem_singleton.1 h⟩
  | succ n ih =>
    rcases List.mem_cons.1 h with rfl | hbelow
    · exact ⟨n + 1, rfl⟩
    · exact ih hbelow

/-- The network has put the spacing fix in force, or put it off for good. -/
def fixSet (fixed : Bool) : NetworkParameters :=
  { NetworkParameters.neutral with spacingFixHeight := some (if fixed then 0 else disabledHeight) }

namespace Series

@[simp] theorem push_count (s : Series) (b : Block) (t : Target) :
    (s.push b t).count = s.count + 1 := rfl

/-- A series over the newest of the blocks that another is over. -/
structure Snapshot (fast full : Series) : Prop where
  le : fast.count ≤ full.count
  pos : 0 < full.count → 0 < fast.count

theorem Snapshot.refl (s : Series) : s.Snapshot s := ⟨Nat.le_refl _, id⟩

theorem Snapshot.push {fast full : Series} (h : fast.Snapshot full) {size : Nat} (hsize : 0 < size)
    (b : Block) (t : Target) :
    (if (full.push b t).count ≤ size then full.push b t else fast).Snapshot (full.push b t) := by
  split
  · exact .refl _
  · rename_i hfull
    have := h.le
    have := h.pos
    rw [push_count] at hfull
    refine ⟨?_, fun _ => ?_⟩
    · rw [push_count]
      omega
    · omega

end Series

namespace Survey

variable {w : Window} {tag : Int32} {s s' : Survey} {history : List Block}

@[simp] theorem visit_chain_count (s : Survey) (tag : Int32) :
    (s.visit tag).chain.count = s.chain.count + 1 := rfl

theorem goesOn_iff : s.goesOn w = true ↔ s.chain.count < w.blocks ∧ s.own.count < w.own := by
  simp only [goesOn, Bool.and_eq_true, decide_eq_true_eq]

/-! ## One walk -/

theorem walk_ok (tag : Int32) (h : w.blocks ≤ s.chain.count + history.length + 1) :
    ∃ s', walk w tag history s = .ok s' := by
  induction history generalizing s with
  | nil =>
    unfold walk
    split
    · rename_i hgo
      have hlast : (s.visit tag).chain.count = w.blocks := by
        have := (goesOn_iff.1 hgo).1
        rw [List.length_nil] at h
        rw [visit_chain_count]
        omega
      dsimp only
      rw [if_pos hlast]
      exact ⟨_, rfl⟩
    · exact ⟨_, rfl⟩
  | cons older rest ih =>
    unfold walk
    split
    · dsimp only
      split
      · exact ⟨_, rfl⟩
      · apply ih
        rw [List.length_cons] at h
        rw [visit_chain_count]
        omega
    · exact ⟨_, rfl⟩

/-- What each visit to a block of the chain preserves, and no move of the cursor spoils, holds at
the end. -/
theorem walk_invariant {P : Survey → Prop} {Q : Block → Prop}
    (hvisit : ∀ s, s.goesOn w = true → Q s.cursor → P s → P (s.visit tag))
    (hmove : ∀ s b, P s → P { s with cursor := b })
    (hcursor : Q s.cursor) (hhistory : ∀ b ∈ history, Q b) (hs : P s)
    (h : walk w tag history s = .ok s') : P s' := by
  induction history generalizing s with
  | nil =>
    unfold walk at h
    split at h
    · rename_i hgo
      dsimp only at h
      split at h
      · cases h
        exact hvisit s hgo hcursor hs
      · cases h
    · cases h
      exact hs
  | cons older rest ih =>
    unfold walk at h
    split at h
    · rename_i hgo
      have hs' := hvisit s hgo hcursor hs
      dsimp only at h
      split at h
      · cases h
        exact hs'
      · exact ih (hhistory older List.mem_cons_self)
          (fun b hb => hhistory b (List.mem_cons_of_mem _ hb)) (hmove _ older hs') h
    · cases h
      exact hs

/-- A walk ends because the window is full. -/
theorem walk_stops (h : walk w tag history s = .ok s') : s'.goesOn w = false := by
  have hfull : ∀ s : Survey, s.chain.count = w.blocks → s.goesOn w = false := by
    intro s hs
    rw [← Bool.not_eq_true, goesOn_iff, hs]
    exact fun hgo => Nat.lt_irrefl _ hgo.1
  induction history generalizing s with
  | nil =>
    unfold walk at h
    split at h
    · dsimp only at h
      split at h
      · cases h
        exact hfull _ ‹_›
      · cases h
    · cases h
      exact Bool.eq_false_iff.2 ‹_›
  | cons older rest ih =>
    unfold walk at h
    split at h
    · dsimp only at h
      split at h
      · cases h
        exact hfull _ ‹_›
      · exact ih h
    · cases h
      exact Bool.eq_false_iff.2 ‹_›

/-! ## What is counted -/

/-- The counts of a walk in progress. -/
structure Counted (w : Window) (s : Survey) : Prop where
  chain_le : s.chain.count ≤ w.blocks
  own_le : s.own.count ≤ w.own
  own_le_chain : s.own.count ≤ s.chain.count
  chainFast : s.chainFast.Snapshot s.chain
  ownFast : s.ownFast.Snapshot s.own

theorem Counted.start (w : Window) (tip : Block) : (start tip).Counted w :=
  ⟨Nat.zero_le _, Nat.zero_le _, Nat.le_refl _, .refl _, .refl _⟩

theorem Counted.visit (h : s.Counted w) (hgo : s.goesOn w = true) (tag : Int32) :
    (s.visit tag).Counted w := by
  obtain ⟨hchain, hown⟩ := goesOn_iff.1 hgo
  have hle := h.own_le_chain
  have hfast : (s.visit tag).chainFast.Snapshot (s.visit tag).chain :=
    h.chainFast.push (by decide) _ _
  by_cases hm : algorithmTag s.cursor.version = tag
  · have hcount : (s.visit tag).own.count = s.own.count + 1 := by
      simp only [Survey.visit, if_pos hm, Series.push_count]
    have hownFast : (s.visit tag).ownFast.Snapshot (s.visit tag).own := by
      simp only [Survey.visit, hm, true_and]
      exact h.ownFast.push (by decide) _ _
    refine ⟨?_, ?_, ?_, hfast, hownFast⟩
    · rw [visit_chain_count]
      exact hchain
    · rw [hcount]
      exact hown
    · rw [hcount, visit_chain_count]
      exact Nat.succ_le_succ hle
  · have hkeep : (s.visit tag).own = s.own ∧ (s.visit tag).ownFast = s.ownFast := by
      simp only [Survey.visit, hm, false_and, if_false, and_self]
    refine ⟨?_, ?_, ?_, hfast, ?_⟩
    · rw [visit_chain_count]
      exact hchain
    · rw [hkeep.1]
      exact Nat.le_of_lt hown
    · rw [hkeep.1, visit_chain_count]
      exact Nat.le_succ_of_le hle
    · rw [hkeep.1, hkeep.2]
      exact h.ownFast

theorem walk_counted {tip : Block} (h : walk w tag history (start tip) = .ok s) : s.Counted w :=
  walk_invariant (fun _ hgo _ hs => hs.visit hgo tag)
    (fun _ _ hs => ⟨hs.chain_le, hs.own_le, hs.own_le_chain, hs.chainFast, hs.ownFast⟩)
    trivial (fun _ _ => trivial) (.start w tip) h (Q := fun _ => True)

theorem Counted.chain_pos (h : s.Counted w) (hstop : s.goesOn w = false) (hblocks : 0 < w.blocks)
    (hown : 0 < w.own) : 0 < s.chain.count := by
  have hend : ¬ (s.chain.count < w.blocks ∧ s.own.count < w.own) := by
    rw [← goesOn_iff, hstop]
    exact Bool.false_ne_true
  have := h.own_le_chain
  omega

end Survey

/-! ## Scaling -/

/-- The time of a scaling, brought into its range. -/
def clampedTime (actual expected : Int) : Int := max 1 (min actual (2 * expected))

/-- The target that a scaling gives. -/
def timeScaled (t : Target) (actual expected : Int) : Target :=
  (t.scale (unsignedWord (clampedTime actual expected))).divide (unsignedWord expected)

theorem scaleByTime_eq (t : Target) (actual : Int) {expected : Int} (hpos : 0 < expected)
    (hfits : 2 * expected < signedSize) (o : Overflow) :
    scaleByTime t actual expected o = .ok (timeScaled t actual expected) := by
  have hmost := Overflow.signed_of_fits (fitsSigned_of_pos (by omega) hfits) o
  refine bind_eq_ok.2 ⟨_, hmost, ?_⟩
  unfold clamp
  rw [if_neg (by omega)]
  rfl

theorem scaleByTime_settles (t : Target) (actual : Int) {expected : Int} (hpos : 0 < expected) :
    Settles (scaleByTime t actual expected ·) fun _ => True := by
  by_cases hfits : 2 * expected < signedSize
  · exact .inr ⟨_, trivial, scaleByTime_eq t actual hpos hfits⟩
  · left
    have hover : Overflow.faults.signed (2 * expected) = .error (.undefined .overflow) :=
      if_neg fun h => hfits h.2
    show Overflow.faults.signed (2 * expected) >>= _ = _
    rw [hover]
    rfl

namespace Window

/-- The time that a full window of the algorithm's blocks should take. -/
def ownTime (w : Window) (params : ChainParams) (factor : Int) : Int :=
  w.own * params.spacing * factor

/-- The time that a full window should take. -/
def time (w : Window) (params : ChainParams) : Int := w.blocks * params.spacing

/-- The times that full windows should take, doubled, fit in 64 bits that include a sign. -/
structure TimesFit (w : Window) (params : ChainParams) (factor : Int) : Prop where
  own : 2 * w.ownTime params factor < signedSize
  chain : 2 * w.time params < signedSize

end Window

namespace Wave

variable {params : ChainParams} {network : NetworkParameters} {tip : Block}
  {history : List Block} {candidate : Candidate} {w : Window} {o : Overflow}

theorem interleave_pos (fixed : Bool) : 0 < interleave fixed := by cases fixed <;> decide

/-- How many blocks a window takes in if the chain is long enough. -/
def fullBlocks (fixed : Bool) : Nat := if fixed then 576 else fastBlocks * interleave fixed * 100

theorem plan_eq (params : ChainParams) (network : NetworkParameters) (tip : Block) :
    plan params network tip =
      let own := fastOwn * interleave (fixActive tip.height params network)
      let full := fullBlocks (fixActive tip.height params network)
      if params.noRetargeting then .keep
      else if tip.height < full then
        if tip.height < own then .bootstrap else .average ⟨tip.height, own⟩
      else .average ⟨full, own⟩ := rfl

theorem blocks_of_plan (h : plan params network tip = .average w) :
    w.blocks = min tip.height (fullBlocks (fixActive tip.height params network)) ∧
      w.own = fastOwn * interleave (fixActive tip.height params network) ∧ w.own ≤ w.blocks := by
  have hfits : ∀ fixed, fastOwn * interleave fixed ≤ fullBlocks fixed := by decide
  have hfits := hfits (fixActive tip.height params network)
  rw [plan_eq] at h
  dsimp only at h
  generalize fastOwn * interleave (fixActive tip.height params network) = own at h hfits ⊢
  generalize fullBlocks (fixActive tip.height params network) = full at h hfits ⊢
  repeat' split at h
  all_goals cases h
  · rename_i hshort hlong
    exact ⟨(Nat.min_eq_left (Nat.le_of_lt hshort)).symm, rfl, Nat.not_lt.1 hlong⟩
  · rename_i hlong
    exact ⟨(Nat.min_eq_right (Nat.not_lt.1 hlong)).symm, rfl, hfits⟩

/-- A window is never wider than the tip is high. -/
theorem window_of_plan (h : plan params network tip = .average w) :
    0 < w.blocks ∧ w.blocks ≤ tip.height ∧
      w.own = fastOwn * interleave (fixActive tip.height params network) := by
  obtain ⟨hblocks, hown, hle⟩ := blocks_of_plan h
  have hpos : 0 < w.own := by
    rw [hown]
    exact Nat.mul_pos (by decide) (interleave_pos _)
  exact ⟨by omega, by omega, hown⟩

theorem own_bounds_of_plan (hp : plan params network tip = .average w) :
    0 < w.own ∧ w.own ≤ 25 := by
  obtain ⟨-, -, hown⟩ := window_of_plan hp
  rw [hown]
  cases fixActive tip.height params network <;> decide

/-- What the scalings rely on. -/
structure Surveyed (w : Window) (s : Survey) : Prop where
  chain_pos : 0 < s.chain.count
  chain_le : s.chain.count ≤ w.blocks
  own_le : s.own.count ≤ w.own
  ownFast : s.ownFast.Snapshot s.own

theorem survey_eq_ok {d : Survey} (h : survey params w tip history candidate o = .ok d) :
    ∃ s gap, Survey.walk w (algorithmTag candidate.version) history (.start tip) = .ok s ∧
      o.signed (tip.time - s.chainFast.earliest.time) = .ok gap ∧
      d = s.defended gap params.spacing := by
  obtain ⟨s, hwalk, h⟩ := bind_eq_ok.1 h
  obtain ⟨gap, hgap, h⟩ := bind_eq_ok.1 h
  cases h
  exact ⟨s, gap, hwalk, hgap, rfl⟩

/-- The survey after a walk. -/
theorem survey_of_walk {s : Survey} {gap : Int}
    (hwalk : Survey.walk w (algorithmTag candidate.version) history (.start tip) = .ok s)
    (hgap : o.signed (tip.time - s.chainFast.earliest.time) = .ok gap) :
    survey params w tip history candidate o = .ok (s.defended gap params.spacing) :=
  bind_eq_ok.2 ⟨s, hwalk, bind_eq_ok.2 ⟨gap, hgap, rfl⟩⟩

/-- What is left to do after the walk. -/
theorem nextTarget_of_walk {s : Survey} (hp : plan params network tip = .average w)
    (hwalk : Survey.walk w (algorithmTag candidate.version) history (.start tip) = .ok s)
    (o : Overflow) :
    nextTarget params network tip history candidate o =
      (o.signed (tip.time - s.chainFast.earliest.time) >>= fun gap =>
        .ofTarget <$> targetOf params network tip candidate (s.defended gap params.spacing) o) := by
  unfold nextTarget survey
  rw [hp]
  dsimp only
  rw [hwalk, ok_bind, bind_assoc]
  apply bind_congr
  intro gap
  rw [pure_bind, bind_pure_comp]

theorem nextTarget_eq_ok {s : Survey} {bits : CompactTarget}
    (hp : plan params network tip = .average w)
    (hwalk : Survey.walk w (algorithmTag candidate.version) history (.start tip) = .ok s)
    (h : nextTarget params network tip history candidate o = .ok bits) :
    ∃ gap t, o.signed (tip.time - s.chainFast.earliest.time) = .ok gap ∧
      targetOf params network tip candidate (s.defended gap params.spacing) o = .ok t ∧
      bits = .ofTarget t := by
  rw [nextTarget_of_walk hp hwalk] at h
  obtain ⟨gap, hgap, h⟩ := bind_eq_ok.1 h
  rw [map_eq_pure_bind] at h
  obtain ⟨t, ht, h⟩ := bind_eq_ok.1 h
  cases h
  exact ⟨gap, t, hgap, ht, rfl⟩

theorem walk_ok (candidate : Candidate) (hp : plan params network tip = .average w)
    (hc : Complete tip history) :
    ∃ s, Survey.walk w (algorithmTag candidate.version) history (.start tip) = .ok s := by
  have hheight := hc.height_le
  obtain ⟨-, hblocks, -⟩ := window_of_plan hp
  apply Survey.walk_ok
  show w.blocks ≤ 0 + history.length + 1
  omega

theorem surveyed_of_walk {s : Survey} (hp : plan params network tip = .average w)
    (hwalk : Survey.walk w (algorithmTag candidate.version) history (.start tip) = .ok s)
    (gap spacing : Int) : Surveyed w (s.defended gap spacing) := by
  have hcounted := Survey.walk_counted hwalk
  have hpos : 0 < s.chain.count :=
    hcounted.chain_pos (Survey.walk_stops hwalk) (window_of_plan hp).1 (own_bounds_of_plan hp).1
  unfold Survey.defended
  split
  · exact ⟨hcounted.chainFast.pos hpos,
      Nat.le_trans hcounted.chainFast.le hcounted.chain_le, hcounted.own_le, hcounted.ownFast⟩
  · exact ⟨hpos, hcounted.chain_le, hcounted.own_le, hcounted.ownFast⟩

theorem survey_surveyed {s : Survey} (hp : plan params network tip = .average w)
    (h : survey params w tip history candidate o = .ok s) : Surveyed w s := by
  obtain ⟨s₀, gap, hwalk, -, rfl⟩ := survey_eq_ok h
  exact surveyed_of_walk hp hwalk gap params.spacing

/-- The series that is scaled is one of blocks, few enough for the window. -/
theorem Surveyed.ownDefended_count {s : Survey} (h : Surveyed w s) (hown : 1 < s.own.count)
    (gap round : Int) :
    0 < (s.ownDefended gap round).count ∧ (s.ownDefended gap round).count ≤ w.own := by
  unfold Survey.ownDefended
  split
  · exact ⟨h.ownFast.pos (by omega), Nat.le_trans h.ownFast.le h.own_le⟩
  · exact ⟨by omega, h.own_le⟩

theorem expected_pos {count : Nat} {spacing : Int} (hcount : 0 < count) (hspacing : 0 < spacing) :
    0 < count * spacing :=
  Int.mul_pos (Int.natCast_pos.2 hcount) hspacing

section

variable {s : Survey} {factor : Int}

theorem ownExpected_bounds (hs : Surveyed w s) (hown : 1 < s.own.count)
    (hspacing : 0 < params.spacing) (hfactor : 0 < factor) (gap round : Int) :
    0 < (s.ownDefended gap round).count * params.spacing * factor ∧
      (s.ownDefended gap round).count * params.spacing * factor ≤ w.ownTime params factor := by
  obtain ⟨hpos, hle⟩ := hs.ownDefended_count hown gap round
  refine ⟨Int.mul_pos (expected_pos hpos hspacing) hfactor, ?_⟩
  apply Int.mul_le_mul_of_nonneg_right _ (Int.le_of_lt hfactor)
  exact Int.mul_le_mul_of_nonneg_right (Int.ofNat_le.2 hle) (Int.le_of_lt hspacing)

theorem expected_bounds (hs : Surveyed w s) (hspacing : 0 < params.spacing) :
    0 < s.chain.count * params.spacing ∧ s.chain.count * params.spacing ≤ w.time params :=
  ⟨expected_pos hs.chain_pos hspacing,
    Int.mul_le_mul_of_nonneg_right (Int.ofNat_le.2 hs.chain_le) (Int.le_of_lt hspacing)⟩

theorem ownTarget_eq_ok {own : Target} (hown : 1 < s.own.count)
    (h : ownTarget params factor tip s o = .ok own) :
    ∃ gap round share expected actual,
      o.signed (tip.time - s.ownFast.earliest.time) = .ok gap ∧
      o.signed (params.spacing * factor) = .ok round ∧
      o.signed ((s.ownDefended gap round).count * params.spacing) = .ok share ∧
      o.signed (share * factor) = .ok expected ∧
      o.signed (tip.time - (s.ownDefended gap round).earliest.time) = .ok actual ∧
      scaleByTime (s.ownDefended gap round).average actual expected o = .ok own := by
  unfold ownTarget at h
  rw [if_pos hown] at h
  obtain ⟨gap, hgap, h⟩ := bind_eq_ok.1 h
  obtain ⟨round, hround, h⟩ := bind_eq_ok.1 h
  obtain ⟨share, hshare, h⟩ := bind_eq_ok.1 h
  obtain ⟨expected, hexpected, h⟩ := bind_eq_ok.1 h
  obtain ⟨actual, hactual, h⟩ := bind_eq_ok.1 h
  exact ⟨gap, round, share, expected, actual, hgap, hround, hshare, hexpected, hactual, h⟩

/-- One block of an algorithm or none says nothing about its targets. -/
theorem ownTarget_few (params : ChainParams) (factor : Int) (tip : Block) (o : Overflow)
    (hown : ¬ 1 < s.own.count) : ownTarget params factor tip s o = .ok params.powLimit :=
  if_neg hown

/-! ### Short of an overflow -/

theorem ownTarget_settles (hs : Surveyed w s) (hspacing : 0 < params.spacing)
    (hfactor : 0 < factor) (tip : Block) :
    Settles (ownTarget params factor tip s ·) fun _ => True := by
  unfold ownTarget
  split
  · rename_i hown
    iterate 5
      apply Settles.signed_bind
      intro _
    exact scaleByTime_settles _ _ (ownExpected_bounds hs hown hspacing hfactor _ _).1
  · exact .ok trivial

theorem targetOf_settles (network : NetworkParameters) (tip : Block) (candidate : Candidate)
    (hs : Surveyed w s) (hspacing : 0 < params.spacing) :
    Settles (targetOf params network tip candidate s ·) fun _ => True := by
  have hfactor := Int.natCast_pos.2 (interleave_pos (fixActive tip.height params network))
  apply (ownTarget_settles hs hspacing hfactor tip).bind
  intro own _
  iterate 2
    apply Settles.signed_bind
    intro _
  apply (scaleByTime_settles own _ (expected_bounds hs hspacing).1).bind
  intro _ _
  exact .ok trivial

theorem nextTarget_settles_of_walk (hspacing : 0 < params.spacing)
    (hp : plan params network tip = .average w)
    (hwalk : Survey.walk w (algorithmTag candidate.version) history (.start tip) = .ok s) :
    Settles (nextTarget params network tip history candidate ·) fun _ => True := by
  simp only [nextTarget_of_walk hp hwalk]
  apply Settles.signed_bind
  intro _
  have hs := surveyed_of_walk hp hwalk (tip.time - s.chainFast.earliest.time) params.spacing
  exact (targetOf_settles network tip candidate hs hspacing).map fun _ _ => trivial

/-- On a complete chain the wave has an answer for every candidate. -/
theorem nextTarget_settles (network : NetworkParameters) (candidate : Candidate)
    (hspacing : 0 < params.spacing) (hc : Complete tip history) :
    Settles (nextTarget params network tip history candidate ·) fun _ => True := by
  cases hp : plan params network tip with
  | keep =>
    unfold nextTarget
    rw [hp]
    exact .ok trivial
  | bootstrap =>
    unfold nextTarget
    rw [hp]
    exact .ok trivial
  | average w =>
    obtain ⟨s, hwalk⟩ := walk_ok candidate hp hc
    exact nextTarget_settles_of_walk hspacing hp hwalk

/-! ### Where overflows wrap -/

theorem signed_ownExpected (hs : Surveyed w s) (hown : 1 < s.own.count)
    (hspacing : 0 < params.spacing) (hfactor : 0 < factor) (htimes : w.TimesFit params factor)
    (gap round : Int) (o : Overflow) :
    o.signed ((s.ownDefended gap round).count * params.spacing) =
        .ok ((s.ownDefended gap round).count * params.spacing) ∧
      o.signed ((s.ownDefended gap round).count * params.spacing * factor) =
        .ok ((s.ownDefended gap round).count * params.spacing * factor) := by
  obtain ⟨hpos, hle⟩ := ownExpected_bounds hs hown hspacing hfactor gap round
  have htime := htimes.own
  have hshare := expected_pos (hs.ownDefended_count hown gap round).1 hspacing
  have hmultiple : (s.ownDefended gap round).count * params.spacing * 1 ≤
      (s.ownDefended gap round).count * params.spacing * factor :=
    Int.mul_le_mul_of_nonneg_left hfactor (Int.le_of_lt hshare)
  exact ⟨Overflow.signed_of_fits (fitsSigned_of_pos hshare (by omega)) o,
    Overflow.signed_of_fits (fitsSigned_of_pos hpos (by omega)) o⟩

theorem signed_expected (hs : Surveyed w s) (hspacing : 0 < params.spacing)
    (htimes : w.TimesFit params factor) (o : Overflow) :
    o.signed (s.chain.count * params.spacing) = .ok (s.chain.count * params.spacing) := by
  obtain ⟨hpos, hle⟩ := expected_bounds hs hspacing
  have htime := htimes.chain
  exact Overflow.signed_of_fits (fitsSigned_of_pos hpos (by omega)) o

theorem scaleByTime_own (hs : Surveyed w s) (hown : 1 < s.own.count) (hspacing : 0 < params.spacing)
    (hfactor : 0 < factor) (htimes : w.TimesFit params factor) (gap round actual : Int)
    (o : Overflow) :
    scaleByTime (s.ownDefended gap round).average actual
        ((s.ownDefended gap round).count * params.spacing * factor) o =
      .ok (timeScaled (s.ownDefended gap round).average actual
        ((s.ownDefended gap round).count * params.spacing * factor)) := by
  obtain ⟨hpos, hle⟩ := ownExpected_bounds hs hown hspacing hfactor gap round
  have htime := htimes.own
  exact scaleByTime_eq _ actual hpos (by omega) o

theorem scaleByTime_chain (hs : Surveyed w s) (hspacing : 0 < params.spacing)
    (htimes : w.TimesFit params factor) (own : Target) (actual : Int) (o : Overflow) :
    scaleByTime own actual (s.chain.count * params.spacing) o =
      .ok (timeScaled own actual (s.chain.count * params.spacing)) := by
  obtain ⟨hpos, hle⟩ := expected_bounds hs hspacing
  have htime := htimes.chain
  exact scaleByTime_eq own actual hpos (by omega) o

/-- Where the times of full windows fit, the first scaling is the one that it should be. -/
theorem ownTarget_scaled {own : Target} (hs : Surveyed w s) (hspacing : 0 < params.spacing)
    (hfactor : 0 < factor) (htimes : w.TimesFit params factor) (hown : 1 < s.own.count)
    (h : ownTarget params factor tip s o = .ok own) :
    ∃ gap round actual,
      o.signed (tip.time - s.ownFast.earliest.time) = .ok gap ∧
      o.signed (params.spacing * factor) = .ok round ∧
      o.signed (tip.time - (s.ownDefended gap round).earliest.time) = .ok actual ∧
      own = timeScaled (s.ownDefended gap round).average actual
        ((s.ownDefended gap round).count * params.spacing * factor) := by
  obtain ⟨gap, round, share, expected, actual, hgap, hround, hshare, hexpected, hactual, h⟩ :=
    ownTarget_eq_ok hown h
  obtain ⟨hshare', hexpected'⟩ := signed_ownExpected hs hown hspacing hfactor htimes gap round o
  obtain rfl := eq_of_ok hshare hshare'
  obtain rfl := eq_of_ok hexpected hexpected'
  have hscaled := scaleByTime_own hs hown hspacing hfactor htimes gap round actual o
  exact ⟨gap, round, actual, hgap, hround, hactual, eq_of_ok h hscaled⟩

/-- Likewise the second. -/
theorem targetOf_scaled {t : Target} (hs : Surveyed w s) (hspacing : 0 < params.spacing)
    (htimes : w.TimesFit params (interleave (fixActive tip.height params network)))
    (h : targetOf params network tip candidate s o = .ok t) :
    ∃ own actual,
      ownTarget params (interleave (fixActive tip.height params network)) tip s o = .ok own ∧
      o.signed (tip.time - s.cursor.time) = .ok actual ∧
      t = applyHandbrake
        (limited params.powLimit (timeScaled own actual (s.chain.count * params.spacing))
          (efficiencyOf candidate.version (tip.height + 1)))
        (handbrakeForce candidate.version (tip.height + 1) params network) params.powLimit := by
  obtain ⟨own, expected, actual, scaled, hown, hexpected, hactual, hscaled, rfl⟩ := targetOf_eq_ok h
  obtain rfl := eq_of_ok hexpected (signed_expected hs hspacing htimes o)
  obtain rfl := eq_of_ok hscaled (scaleByTime_chain hs hspacing htimes own actual o)
  exact ⟨own, actual, hown, hactual, rfl⟩

theorem ownTarget_wraps (hs : Surveyed w s) (hspacing : 0 < params.spacing) (hfactor : 0 < factor)
    (htimes : w.TimesFit params factor) (tip : Block) :
    ∃ t, ownTarget params factor tip s .wraps = .ok t := by
  unfold ownTarget
  split
  · rename_i hown
    obtain ⟨gap, hgap⟩ := Overflow.wraps_signed (tip.time - s.ownFast.earliest.time)
    obtain ⟨round, hround⟩ := Overflow.wraps_signed (params.spacing * factor)
    obtain ⟨hshare, hexpected⟩ :=
      signed_ownExpected hs hown hspacing hfactor htimes gap round .wraps
    obtain ⟨actual, hactual⟩ :=
      Overflow.wraps_signed (tip.time - (s.ownDefended gap round).earliest.time)
    have hscaled := scaleByTime_own hs hown hspacing hfactor htimes gap round actual .wraps
    exact ⟨_, bind_eq_ok.2 ⟨gap, hgap, bind_eq_ok.2 ⟨round, hround, bind_eq_ok.2 ⟨_, hshare,
      bind_eq_ok.2 ⟨_, hexpected, bind_eq_ok.2 ⟨actual, hactual, hscaled⟩⟩⟩⟩⟩⟩
  · exact ⟨_, rfl⟩

theorem targetOf_wraps (network : NetworkParameters) (tip : Block) (candidate : Candidate)
    (hs : Surveyed w s) (hspacing : 0 < params.spacing)
    (htimes : w.TimesFit params (interleave (fixActive tip.height params network))) :
    ∃ t, targetOf params network tip candidate s .wraps = .ok t := by
  have hfactor := Int.natCast_pos.2 (interleave_pos (fixActive tip.height params network))
  obtain ⟨own, hown⟩ := ownTarget_wraps hs hspacing hfactor htimes tip
  obtain ⟨actual, hactual⟩ := Overflow.wraps_signed (tip.time - s.cursor.time)
  have hscaled := scaleByTime_chain hs hspacing htimes own actual .wraps
  exact ⟨_, bind_eq_ok.2 ⟨own, hown, bind_eq_ok.2 ⟨_, signed_expected hs hspacing htimes .wraps,
    bind_eq_ok.2 ⟨actual, hactual, bind_eq_ok.2 ⟨_, hscaled, rfl⟩⟩⟩⟩⟩

end

theorem nextTarget_of_survey {s : Survey} {t : Target} (hp : plan params network tip = .average w)
    (hs : survey params w tip history candidate o = .ok s)
    (ht : targetOf params network tip candidate s o = .ok t) :
    nextTarget params network tip history candidate o = .ok (.ofTarget t) := by
  unfold nextTarget
  rw [hp]
  exact bind_eq_ok.2 ⟨s, hs, bind_eq_ok.2 ⟨t, ht, rfl⟩⟩

theorem nextTarget_wraps_of_walk {s : Survey} (hspacing : 0 < params.spacing)
    (hp : plan params network tip = .average w)
    (htimes : w.TimesFit params (interleave (fixActive tip.height params network)))
    (hwalk : Survey.walk w (algorithmTag candidate.version) history (.start tip) = .ok s) :
    ∃ bits, nextTarget params network tip history candidate .wraps = .ok bits := by
  obtain ⟨gap, hgap⟩ := Overflow.wraps_signed (tip.time - s.chainFast.earliest.time)
  obtain ⟨t, ht⟩ := targetOf_wraps network tip candidate
    (surveyed_of_walk hp hwalk gap params.spacing) hspacing htimes
  exact ⟨_, nextTarget_of_survey hp (survey_of_walk hwalk hgap) ht⟩

theorem nextTarget_wraps (network : NetworkParameters) (candidate : Candidate)
    (hspacing : 0 < params.spacing) (hc : Complete tip history)
    (htimes : ∀ w, plan params network tip = .average w →
      w.TimesFit params (interleave (fixActive tip.height params network))) :
    ∃ bits, nextTarget params network tip history candidate .wraps = .ok bits := by
  cases hp : plan params network tip with
  | keep => exact ⟨tip.bits, by rw [nextTarget, hp]⟩
  | bootstrap => exact ⟨params.limitBits, by rw [nextTarget, hp]⟩
  | average w =>
    obtain ⟨s, hwalk⟩ := walk_ok candidate hp hc
    exact nextTarget_wraps_of_walk hspacing hp (htimes w hp) hwalk

end Wave

/-- On a complete chain work is required, unless a time overflows. -/
theorem nextWork_settles {params : ChainParams} {tip : Block} {history : List Block}
    (network : NetworkParameters) (candidate : Candidate) (hspacing : 0 < params.spacing)
    (hc : Complete tip history) :
    Settles (nextWork params network tip history candidate ·) fun _ => True := by
  apply (Wave.nextTarget_settles network candidate hspacing hc).bind
  intro bits _
  exact (Decay.apply_settles hspacing _ tip candidate bits).imp fun _ _ => trivial

namespace ChainParams

variable {params : ChainParams}

/-- What sound parameters are checked for, but for the forces of their retirements. -/
structure Sound (params : ChainParams) : Prop where
  powLimit : params.powLimit ≠ 0
  spacing : 0 < params.spacing
  timespan : params.spacing ≤ params.timespan
  adjustDown : 0 < params.maxAdjustDown
  adjustUp : 0 < params.maxAdjustUp
  lowerBound : 0 < params.timespan.tdiv params.maxAdjustDown

theorem sound_of_validate (h : params.validate = .ok ()) : params.Sound := by
  unfold validate at h
  dsimp only at h
  iterate 6
    split at h
    · cases h
  rename_i hlimit hspacing htimespan hratio hlower _
  rw [not_or] at hratio
  exact ⟨hlimit, Int.not_le.1 hspacing, Int.not_lt.1 htimespan, Int.not_le.1 hratio.1,
    Int.not_le.1 hratio.2, Int.not_le.1 hlower⟩

theorem powLimit_ne_zero (h : params.validate = .ok ()) : params.powLimit ≠ 0 :=
  (sound_of_validate h).powLimit

theorem spacing_pos (h : params.validate = .ok ()) : 0 < params.spacing :=
  (sound_of_validate h).spacing

end ChainParams

end SporkNode.Work
