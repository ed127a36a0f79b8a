import SporkNode.Proofs.Work.Easing
import SporkNode.Proofs.Work.Retirement

/-!
A new algorithm on a chain that is no faster than it should be. What is scaled is the limit itself,
so the target stays at the limit for as long as the product of limit and time fits in 256 bits. On
the main network it fits up to 2^20 seconds. A window of a day never comes to that, nor does any of
fewer than 4370 blocks; for a longer one the product wraps, and the algorithm starts below half the
limit.
-/

namespace SporkNode.Work

/-- With fewer blocks of the algorithm than its share, nothing closes a window but its size. -/
theorem reach_of_few {w : Window} {tag : Int32} {blocks : List Block}
    (h : (ofAlgorithm tag (blocks.take (reach w tag blocks))).length < w.own) :
    reach w tag blocks = w.blocks := by
  have hmost : reach w tag blocks ≤ w.blocks := Nat.min_le_left _ _
  have hclosed := (closedBy_reach (Nat.lt_of_le_of_lt (Nat.zero_le _) h) tag blocks).closed
  apply Nat.le_antisymm hmost
  by_contra hroom
  exact hclosed ⟨Nat.not_le.1 hroom, h⟩

namespace Wave

theorem fastBlocks_le_own (params : ChainParams) (network : NetworkParameters) (tip : Block) :
    fastBlocks ≤ (window params network tip).own := by
  have hshare : ∀ fixed, fastBlocks ≤ fastOwn * interleave fixed := by decide
  exact hshare _

theorem window_blocks_le (params : ChainParams) (network : NetworkParameters) (tip : Block) :
    (window params network tip).blocks ≤ 5000 ∧
      (fixActive tip.height params network = true →
        (window params network tip).blocks ≤ 576) := by
  unfold window
  dsimp only
  cases fixActive tip.height params network
  · exact ⟨Nat.min_le_right _ _, fun hfix => absurd hfix Bool.false_ne_true⟩
  · exact ⟨Nat.le_trans (Nat.min_le_right _ _) (by decide), fun _ => Nat.min_le_right _ _⟩

/-- How long before the tip the block was found on which the walk ends. -/
def elapsed (params : ChainParams) (network : NetworkParameters) (tip : Block)
    (history : List Block) (candidate : Candidate) : Int :=
  age tip ((tip :: history).take
    (cursorPosition (window params network tip) (algorithmTag candidate.version)
      (tip :: history)))

/-- How long the blocks walked should have taken. -/
def expected (params : ChainParams) (network : NetworkParameters) (tip : Block)
    (history : List Block) (candidate : Candidate) : Int :=
  (walked params network tip history candidate).length * params.spacing

/-- An unbraked algorithm of which the walk has met one block at most, on a chain that found its
newest blocks without haste and all that were walked no faster than it should. -/
structure Newcomer (params : ChainParams) (network : NetworkParameters) (tip : Block)
    (history : List Block) (candidate : Candidate) : Prop where
  complete : Complete tip history
  past : (window params network tip).own ≤ tip.height
  unbraked : handbrakeForce candidate.version (tip.height + 1) params network = 1
  few : (met params network tip history candidate).length ≤ 1
  calm : params.spacing.tdiv 2 ≤ age tip ((tip :: history).take fastBlocks)
  slow : expected params network tip history candidate ≤
    elapsed params network tip history candidate

section

variable {params : ChainParams} {network : NetworkParameters} {tip : Block}
  {history : List Block} {candidate : Candidate}

theorem walked_eq (hr : params.noRetargeting = false)
    (hpast : (window params network tip).own ≤ tip.height) :
    walked params network tip history candidate =
      (tip :: history).take
        (reach (window params network tip) (algorithmTag candidate.version) (tip :: history)) := by
  rw [walked, plan_window hr hpast]

theorem walked_length (hr : params.noRetargeting = false) (hc : Complete tip history)
    (hpast : (window params network tip).own ≤ tip.height) :
    (walked params network tip history candidate).length =
      reach (window params network tip) (algorithmTag candidate.version) (tip :: history) := by
  rw [walked_eq hr hpast]
  exact List.length_take_of_le (reach_bounds hc _ hpast).2

theorem Newcomer.share_le (h : Newcomer params network tip history candidate)
    (hr : params.noRetargeting = false) :
    (ofAlgorithm (algorithmTag candidate.version) ((tip :: history).take
      (reach (window params network tip) (algorithmTag candidate.version)
        (tip :: history)))).length ≤ 1 := by
  rw [← walked_eq hr h.past]
  exact h.few

theorem Newcomer.walked_length (h : Newcomer params network tip history candidate)
    (hr : params.noRetargeting = false) :
    (walked params network tip history candidate).length = (window params network tip).blocks := by
  have hshare : 1 < (window params network tip).own :=
    Nat.lt_of_lt_of_le (by decide) (fastBlocks_le_own params network tip)
  rw [Wave.walked_length hr h.complete h.past]
  exact reach_of_few (Nat.lt_of_le_of_lt (h.share_le hr) hshare)

/-- All that is left to scale the limit is the time of the chain. -/
theorem Newcomer.formula_eq (h : Newcomer params network tip history candidate)
    (hr : params.noRetargeting = false)
    (hpos : 0 < expected params network tip history candidate)
    (hdouble : 2 * expected params network tip history candidate < signedSize)
    (hage : FitsSigned (age tip ((tip :: history).take fastBlocks)))
    (helapsed : FitsSigned (elapsed params network tip history candidate)) (o : Overflow) :
    formula params network tip history candidate o =
      .ok (if timeScaled params.powLimit (elapsed params network tip history candidate)
          (expected params network tip history candidate) < params.powLimit
        then timeScaled params.powLimit (elapsed params network tip history candidate)
          (expected params network tip history candidate)
        else params.powLimit) := by
  have hexpected := Overflow.signed_of_fits (fitsSigned_of_pos hpos (by omega)) o
  have hscaled := scaleByTime_eq params.powLimit (elapsed params network tip history candidate)
    hpos hdouble o
  have hcalm := Int.not_lt.2 h.calm
  rw [expected, Wave.walked_length hr h.complete h.past] at hexpected hscaled ⊢
  unfold formula ownFormula
  dsimp only
  rw [if_neg (Nat.not_lt.2 (h.share_le hr))]
  refine bind_eq_ok.2 ⟨_, Overflow.signed_of_fits hage o, bind_eq_ok.2 ⟨_, rfl, ?_⟩⟩
  rw [if_neg hcalm, if_neg hcalm]
  refine bind_eq_ok.2 ⟨_, hexpected, bind_eq_ok.2 ⟨_, Overflow.signed_of_fits helapsed o,
    bind_eq_ok.2 ⟨_, hscaled, ?_⟩⟩⟩
  rw [h.unbraked]
  apply congrArg Except.ok
  apply applyHandbrake_one
  split
  · exact BitVec.le_of_lt ‹_›
  · exact BitVec.le_refl _

end

/-! ## The limit of the main network -/

theorem toNat_mainLimit : ChainParams.main.powLimit.toNat = 2 ^ 236 - 1 := by decide

section

variable {actual expected : Int}

theorem mainLimit_le_timeScaled (hpos : 0 < expected) (hsize : expected ≤ 600000)
    (hslow : expected ≤ actual) (hroom : min actual (2 * expected) ≤ 0x100000) :
    ChainParams.main.powLimit ≤ timeScaled ChainParams.main.powLimit actual expected := by
  apply le_timeScaled_of_le hpos _ _ hslow
  · rw [signedSize_eq]
    omega
  · unfold timeProduct clampedTime
    rw [toNat_mainLimit]
    omega

/-- The cut takes 2^256 from the product, which is more than 2^20 times the limit. -/
theorem timeScaled_mainLimit_le (hsize : expected ≤ 600000)
    (hlong : 0x100000 < min actual (2 * expected)) :
    2 * (timeScaled ChainParams.main.powLimit actual expected).toNat ≤
      ChainParams.main.powLimit.toNat := by
  have hsigned := signedSize_eq
  have hclamped : clampedTime actual expected = min actual (2 * expected) := by
    unfold clampedTime
    omega
  rw [timeScaled, hclamped, Target.toNat_divide, Target.toNat_scale,
    unsignedWord_of_lt (by omega) (by omega), unsignedWord_of_lt (by omega) (by omega),
    Nat.mod_eq_of_lt (by omega : expected.toNat < 2 ^ 256), toNat_mainLimit]
  obtain ⟨a, ha⟩ : ∃ a : Nat, min actual (2 * expected) = a := Int.eq_ofNat_of_zero_le (by omega)
  obtain ⟨e, rfl⟩ : ∃ e : Nat, expected = e := Int.eq_ofNat_of_zero_le (by omega)
  rw [ha, Int.toNat_natCast, Int.toNat_natCast]
  have hwrapped : (2 ^ 236 - 1) * a % 2 ^ 256 ≤ (2 ^ 236 - 1) * (a - 2 ^ 20) := by omega
  have hquotient : (2 ^ 236 - 1) * a % 2 ^ 256 / e ≤ (2 ^ 236 - 1) / 2 := by
    apply Nat.div_le_of_le_mul
    omega
  omega

end

section

variable {network : NetworkParameters} {tip : Block} {history : List Block} {candidate : Candidate}

theorem Newcomer.expected_bounds (h : Newcomer .main network tip history candidate) :
    0 < expected .main network tip history candidate ∧
      expected .main network tip history candidate ≤ 600000 := by
  have hlength := h.walked_length rfl
  have hwindow := (window_blocks_le .main network tip).1
  have hleast := (reach_bounds h.complete (algorithmTag candidate.version) h.past).1
  rw [← Wave.walked_length rfl h.complete h.past] at hleast
  unfold fastBlocks at hleast
  have hexpected : expected .main network tip history candidate =
      (walked .main network tip history candidate).length * 120 := rfl
  omega

/-- What the times of a new algorithm's chain make of the limit. -/
def newcomerTarget (network : NetworkParameters) (tip : Block) (history : List Block)
    (candidate : Candidate) : Target :=
  let scaled := timeScaled ChainParams.main.powLimit (elapsed .main network tip history candidate)
    (expected .main network tip history candidate)
  if scaled < ChainParams.main.powLimit then scaled else ChainParams.main.powLimit

theorem Newcomer.nextTarget_eq (h : Newcomer .main network tip history candidate)
    (hage : FitsSigned (age tip ((tip :: history).take fastBlocks)))
    (helapsed : FitsSigned (elapsed .main network tip history candidate)) (o : Overflow) :
    nextTarget .main network tip history candidate o =
      .ok (.ofTarget (newcomerTarget network tip history candidate)) := by
  obtain ⟨hpos, hsize⟩ := h.expected_bounds
  have hsigned := signedSize_eq
  rw [nextTarget_formula rfl h.complete h.past,
    h.formula_eq rfl hpos (by omega) hage helapsed o]
  rfl

/-- The product of the limit with 2^20 seconds is the last that fits. -/
theorem Newcomer.ofTarget_eq_iff (h : Newcomer .main network tip history candidate) :
    CompactTarget.ofTarget (newcomerTarget network tip history candidate) =
        ChainParams.main.limitBits ↔
      min (elapsed .main network tip history candidate)
        (2 * expected .main network tip history candidate) ≤ 0x100000 := by
  obtain ⟨hpos, hsize⟩ := h.expected_bounds
  unfold newcomerTarget
  dsimp only
  by_cases hroom : min (elapsed .main network tip history candidate)
      (2 * expected .main network tip history candidate) ≤ 0x100000
  · rw [if_neg (BitVec.not_lt.2 (mainLimit_le_timeScaled hpos hsize h.slow hroom))]
    exact iff_of_true rfl hroom
  · have hhalf := timeScaled_mainLimit_le hsize (Int.not_le.1 hroom)
    have hlimit : 0 < ChainParams.main.powLimit.toNat := by decide
    rw [if_pos (BitVec.lt_def.2 (by omega))]
    exact iff_of_false (CompactTarget.ofTarget_ne_of_half hlimit hhalf) hroom

/-- As long as the ages of the tenth newest block and of the one on which the walk ends fit, a new
algorithm on a slow chain of the main network has a target, which is the limit exactly if the time
of the chain, taken for twice what it should be at most, comes to 2^20 seconds at most. It always
does once the spacing fix is in force, and for fewer than 4370 blocks. -/
theorem nextTarget_newcomer (h : Newcomer .main network tip history candidate)
    (hage : FitsSigned (age tip ((tip :: history).take fastBlocks)))
    (helapsed : FitsSigned (elapsed .main network tip history candidate)) :
    ∃ bits, (∀ o, nextTarget .main network tip history candidate o = .ok bits) ∧
      (bits = ChainParams.main.limitBits ↔
        min (elapsed .main network tip history candidate)
          (2 * expected .main network tip history candidate) ≤ 0x100000) ∧
      (fixActive tip.height .main network = true ∨
          (walked .main network tip history candidate).length < 4370 →
        bits = ChainParams.main.limitBits) := by
  have hiff := h.ofTarget_eq_iff
  have hexpected : expected .main network tip history candidate =
      (walked .main network tip history candidate).length * 120 := rfl
  refine ⟨_, h.nextTarget_eq hage helapsed, hiff, ?_⟩
  rintro (hfix | hfew)
  · have hday := (window_blocks_le .main network tip).2 hfix
    rw [← h.walked_length rfl] at hday
    exact hiff.2 (by omega)
  · exact hiff.2 (by omega)

end

/-! ## A chain that waits -/

theorem age_slow {n count : Nat} (hpos : 0 < count) (h : count ≤ n) :
    age (slowBlock n) ((slowBlock n :: below slowBlock n).take count) = 1200 * (count - 1) := by
  rw [age, getLastD_take hpos (getElem?_below slowBlock (by omega : count - 1 ≤ n))]
  show 1200 * ((n : Int) + 1) - 1200 * (((n - (count - 1) : Nat) : Int) + 1) = _
  omega

theorem ofAlgorithm_slow (n m : Nat) :
    ofAlgorithm (algorithmTag 0x100) ((slowBlock n :: below slowBlock n).take m) = [] := by
  apply List.filter_eq_nil_iff.2
  intro b hb
  obtain ⟨k, rfl⟩ := mem_below (List.mem_of_mem_take hb)
  show ¬ decide (algorithmTag 0 = algorithmTag 0x100) = true
  decide

section

variable {fixed : Bool} {n : Nat}

theorem times_slow (h : (window .main (fixSet fixed) (slowBlock n)).own ≤ n) (time : Int) :
    expected .main (fixSet fixed) (slowBlock n) (below slowBlock n) ⟨0x100, time⟩ =
        (window .main (fixSet fixed) (slowBlock n)).blocks * 120 ∧
      elapsed .main (fixSet fixed) (slowBlock n) (below slowBlock n) ⟨0x100, time⟩ =
        1200 * ((window .main (fixSet fixed) (slowBlock n)).blocks - 1) := by
  have hplan : plan .main (fixSet fixed) (slowBlock n) =
      .average (window .main (fixSet fixed) (slowBlock n)) := plan_window rfl h
  obtain ⟨hpos, hmost, -⟩ := window_of_plan hplan
  have hc : Complete (slowBlock n) (below slowBlock n) := complete_below (fun _ => rfl) n
  have hreach : reach (window .main (fixSet fixed) (slowBlock n)) (algorithmTag 0x100)
      (slowBlock n :: below slowBlock n) = (window .main (fixSet fixed) (slowBlock n)).blocks := by
    apply reach_of_few
    rw [ofAlgorithm_slow]
    exact Nat.lt_of_lt_of_le (by decide) (fastBlocks_le_own _ _ _)
  constructor
  · rw [expected, walked_length rfl hc h, hreach]
    rfl
  · rw [elapsed, cursorPosition, if_pos hreach, hreach]
    exact age_slow hpos hmost

theorem unbraked_slow (fixed : Bool) (height : Nat) :
    handbrakeForce 0x100 height .main (fixSet fixed) = 1 := by
  have hnone : ChainParams.main.retirement? .x16r = none := by decide
  unfold handbrakeForce
  rw [Algorithm.ofVersion?_of_tag (a := .x16r) (by decide)]
  dsimp only
  rw [hnone]
  exact ite_self _

/-- To the chain that waits every block of the other algorithm is a newcomer's. -/
theorem newcomer_slow (h : (window .main (fixSet fixed) (slowBlock n)).own ≤ n) (time : Int) :
    Newcomer .main (fixSet fixed) (slowBlock n) (below slowBlock n) ⟨0x100, time⟩ := by
  obtain ⟨hexpected, helapsed⟩ := times_slow h time
  have hwide : 10 ≤ (window .main (fixSet fixed) (slowBlock n)).own := fastBlocks_le_own _ _ _
  have hplan : plan .main (fixSet fixed) (slowBlock n) =
      .average (window .main (fixSet fixed) (slowBlock n)) := plan_window rfl h
  have hshare := (blocks_of_plan hplan).2.2
  refine ⟨complete_below (fun _ => rfl) n, h, unbraked_slow fixed _, ?_, ?_, ?_⟩
  · rw [met, walked_eq rfl h, ofAlgorithm_slow]
    exact Nat.zero_le 1
  · rw [age_slow (by decide : 0 < fastBlocks) (Nat.le_trans hwide h)]
    decide
  · omega

theorem fits_slow (h : (window .main (fixSet fixed) (slowBlock n)).own ≤ n) (time : Int) :
    FitsSigned (age (slowBlock n) ((slowBlock n :: below slowBlock n).take fastBlocks)) ∧
      FitsSigned
        (elapsed .main (fixSet fixed) (slowBlock n) (below slowBlock n) ⟨0x100, time⟩) := by
  obtain ⟨-, helapsed⟩ := times_slow h time
  have hwide := fastBlocks_le_own .main (fixSet fixed) (slowBlock n)
  have hwindow := (window_blocks_le .main (fixSet fixed) (slowBlock n)).1
  rw [age_slow (by decide : 0 < fastBlocks) (Nat.le_trans hwide h), helapsed]
  have hsigned := signedSize_eq
  refine ⟨by decide, ?_, ?_⟩
  · omega
  · omega

end

theorem nextTarget_newcomer_slow :
    Newcomer .main (fixSet true) (slowBlock 20) (below slowBlock 20) ⟨0x100, 26400⟩ ∧
    FitsSigned (age (slowBlock 20) ((slowBlock 20 :: below slowBlock 20).take fastBlocks)) ∧
    FitsSigned
      (elapsed .main (fixSet true) (slowBlock 20) (below slowBlock 20) ⟨0x100, 26400⟩) ∧
    fixActive (slowBlock 20).height .main (fixSet true) = true ∧
    nextTarget .main (fixSet true) (slowBlock 20) (below slowBlock 20) ⟨0x100, 26400⟩ .faults =
      .ok ChainParams.main.limitBits := by
  have hpast : (window .main (fixSet true) (slowBlock 20)).own ≤ 20 := by decide
  have hslow := newcomer_slow hpast 26400
  obtain ⟨hage, helapsed⟩ := fits_slow hpast 26400
  have hfix : fixActive (slowBlock 20).height .main (fixSet true) = true := by decide
  obtain ⟨bits, hbits, -, hlimit⟩ := nextTarget_newcomer hslow hage helapsed
  rw [hlimit (.inl hfix)] at hbits
  exact ⟨hslow, hage, helapsed, hfix, hbits .faults⟩

/-- A chain that finds a block every second, up to a tip whose time is the last that fits. -/
def lastBlock (height : Nat) : Block :=
  ⟨.zero, none, height, 0,
    if height = 11 then signedSize - 1 else if height = 10 then 0 else -1000 + height,
    ChainParams.main.limitBits⟩

/-- Before the spacing fix 4370 blocks are too many: twice their time passes 2^20 seconds. And after
a wait that does not fit the new algorithm is taken for one in a burst where overflows wrap, and has
no target where they are faults. -/
theorem newcomer_below_limit :
    (Newcomer .main (fixSet false) (slowBlock 4370) (below slowBlock 4370) ⟨0x100, 5246400⟩ ∧
      (∀ o, nextTarget .main (fixSet false) (slowBlock 4370) (below slowBlock 4370)
        ⟨0x100, 5246400⟩ o = .ok ⟨0x1d01bfe7⟩) ∧
      (⟨0x1d01bfe7⟩ : CompactTarget) ≠ ChainParams.main.limitBits) ∧
    (Newcomer .main (fixSet true) (lastBlock 11) (below lastBlock 11) ⟨0x100, 0⟩ ∧
      nextTarget .main (fixSet true) (lastBlock 11) (below lastBlock 11) ⟨0x100, 0⟩ .wraps =
        .ok ⟨0x1d0369d0⟩ ∧
      (⟨0x1d0369d0⟩ : CompactTarget) ≠ ChainParams.main.limitBits ∧
      nextTarget .main (fixSet true) (lastBlock 11) (below lastBlock 11) ⟨0x100, 0⟩ .faults =
        .error (.undefined .overflow)) := by
  constructor
  · have hpast : (window .main (fixSet false) (slowBlock 4370)).own ≤ 4370 := by decide
    have hslow := newcomer_slow hpast 5246400
    obtain ⟨hexpected, helapsed⟩ := times_slow hpast 5246400
    obtain ⟨hage, hfits⟩ := fits_slow hpast 5246400
    have hblocks : (window .main (fixSet false) (slowBlock 4370)).blocks = 4370 := by decide
    have htarget : CompactTarget.ofTarget (newcomerTarget (fixSet false) (slowBlock 4370)
        (below slowBlock 4370) ⟨0x100, 5246400⟩) = ⟨0x1d01bfe7⟩ := by
      unfold newcomerTarget
      rw [hexpected, helapsed, hblocks]
      decide
    refine ⟨hslow, fun o => ?_, by decide⟩
    rw [hslow.nextTarget_eq hage hfits, htarget]
  · refine ⟨⟨?_, ?_, ?_, ?_, ?_, ?_⟩, ?_, ?_, ?_⟩
    all_goals decide +kernel

end Wave

end SporkNode.Work
