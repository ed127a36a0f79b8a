import SporkNode.Proofs.Work.Target
import SporkNode.Work.Handbrake

/-!
The handbrake. Which force applies is settled by the algorithm and the height, and by the network
only where no retirement is in effect. The force divides; where it cannot, the limit takes the
place of the quotient, so a target within the limit stays there. That happens to every force whose
product with the limit is cut to less than the target, and it is the only way in which a harder
brake can ease.
-/

namespace SporkNode.Work

theorem Algorithm.ofVersion?_of_tag {version : Int32} {a : Algorithm}
    (h : algorithmTag version = a.tag) : ofVersion? version = some a := by
  unfold ofVersion?
  rw [h]
  cases a <;> decide

/-- Past its height a retirement outweighs whatever the network has set. -/
theorem handbrakeForce_retired {params : ChainParams} {network : NetworkParameters}
    {version : Int32} {height : Nat} {a : Algorithm} {r : Retirement}
    (htag : algorithmTag version = a.tag) (hr : params.retirement? a = some r)
    (hheight : r.afterHeight < height) :
    handbrakeForce version height params network = r.force := by
  have hpast : (some r).filter (·.afterHeight < height) = some r := by simp [hheight]
  unfold handbrakeForce
  rw [Algorithm.ofVersion?_of_tag htag]
  dsimp only
  rw [hr, hpast]

theorem applyHandbrake_le {target powLimit : Target} (h : target ≤ powLimit) (force : UInt32) :
    applyHandbrake target force powLimit ≤ powLimit := by
  unfold applyHandbrake
  split
  · exact BitVec.le_refl _
  · exact BitVec.le_trans (Target.divide_le target force.toNat) h

/-- The brake works on every target within the limit if the limit times the force, cut to 256
bits, is no less than the limit. -/
theorem applyHandbrake_of_le {target powLimit : Target} {force : UInt32} (hforce : force ≠ 0)
    (hwide : powLimit ≤ powLimit.scale force.toNat) (h : target ≤ powLimit) :
    applyHandbrake target force powLimit = target.divide force.toNat := by
  unfold applyHandbrake
  rw [if_neg]
  rintro (hlt | hzero)
  · exact absurd (BitVec.le_trans h hwide) (BitVec.not_le.2 hlt)
  · exact hforce hzero

theorem applyHandbrake_pos {target powLimit : Target} {force : UInt32}
    (hlimit : 0 < powLimit.toNat) (h : force.toNat ≤ target.toNat) :
    0 < (applyHandbrake target force powLimit).toNat := by
  unfold applyHandbrake
  split
  · exact hlimit
  · rename_i hbrake
    have hforce : 0 < force.toNat := by
      apply Nat.pos_of_ne_zero
      intro h0
      exact hbrake (.inr (UInt32.toNat_inj.1 h0))
    have hsmall := force.toNat_lt
    rw [Target.toNat_divide, Nat.mod_eq_of_lt (by omega)]
    exact Nat.div_pos h hforce

/-- A force of one leaves every target within the limit as it is. -/
theorem applyHandbrake_one {target powLimit : Target} (h : target ≤ powLimit) :
    applyHandbrake target 1 powLimit = target := by
  have hone : powLimit.scale (1 : UInt32).toNat = powLimit := by
    apply BitVec.eq_of_toNat_eq
    rw [Target.toNat_scale, UInt32.toNat_one, Nat.mul_one,
      Nat.mod_eq_of_lt (Target.toNat_lt powLimit)]
  have hwide : powLimit ≤ powLimit.scale (1 : UInt32).toNat := by
    rw [hone]
    exact BitVec.le_refl powLimit
  rw [applyHandbrake_of_le (by decide) hwide h]
  exact Target.divide_one target

/-! ## Harder brakes -/

/-- The limit times the force, cut to 256 bits, does not reach the target. -/
def BrakeSlips (target : Target) (force : UInt32) (powLimit : Target) : Prop :=
  powLimit.scale force.toNat < target

instance decidableBrakeSlips (target : Target) (force : UInt32) (powLimit : Target) :
    Decidable (BrakeSlips target force powLimit) :=
  inferInstanceAs (Decidable (powLimit.scale force.toNat < target))

section

variable {target powLimit : Target} {force harder : UInt32}

theorem force_ne_zero (h : 1 ≤ force) : force ≠ 0 := by
  rintro rfl
  exact absurd h (by decide)

theorem applyHandbrake_of_slips (h : BrakeSlips target force powLimit) :
    applyHandbrake target force powLimit = powLimit := if_pos (.inl h)

theorem applyHandbrake_of_not_slips (hforce : 1 ≤ force)
    (h : ¬ BrakeSlips target force powLimit) :
    applyHandbrake target force powLimit = target.divide force.toNat :=
  if_neg (not_or.2 ⟨h, force_ne_zero hforce⟩)

/-- No brake slips whose product with the limit fits. -/
theorem not_slips_of_lt (hle : target ≤ powLimit) (hforce : 1 ≤ force)
    (hfits : powLimit.toNat * force.toNat < 2 ^ 256) : ¬ BrakeSlips target force powLimit := by
  rw [BrakeSlips, BitVec.not_lt, BitVec.le_def, Target.toNat_scale, Nat.mod_eq_of_lt hfits]
  exact Nat.le_trans (BitVec.le_def.1 hle)
    (Nat.le_mul_of_pos_right _ (UInt32.le_iff_toNat_le.1 hforce))

theorem divide_le_applyHandbrake (hle : target ≤ powLimit) (hforce : 1 ≤ force) :
    target.divide force.toNat ≤ applyHandbrake target force powLimit := by
  by_cases hslips : BrakeSlips target force powLimit
  · rw [applyHandbrake_of_slips hslips]
    exact BitVec.le_trans (Target.divide_le target _) hle
  · rw [applyHandbrake_of_not_slips hforce hslips]
    exact BitVec.le_refl _

theorem le_divide_iff (hpos : 0 < target.toNat) (hle : target ≤ powLimit) :
    powLimit ≤ target.divide force.toNat ↔ force = 1 ∧ target = powLimit := by
  constructor
  · intro h
    have htarget : target = powLimit :=
      BitVec.le_antisymm hle (BitVec.le_trans h (Target.divide_le target _))
    have hsame : target.divide force.toNat = target :=
      BitVec.le_antisymm (Target.divide_le target _) (htarget ▸ h)
    have hsmall := force.toNat_lt
    have hquotient := congrArg BitVec.toNat hsame
    rw [Target.toNat_divide, Nat.mod_eq_of_lt (by omega), Nat.div_eq_self] at hquotient
    exact ⟨UInt32.toNat_inj.1 (hquotient.resolve_left (Nat.ne_of_gt hpos)), htarget⟩
  · rintro ⟨rfl, rfl⟩
    rw [UInt32.toNat_one, Target.divide_one]
    exact BitVec.le_refl _

/-- A harder brake that slips eases, unless the softer one gives the limit too. -/
theorem applyHandbrake_le_applyHandbrake_iff (hle : target ≤ powLimit) (hforce : 1 ≤ force)
    (hharder : force ≤ harder) :
    applyHandbrake target harder powLimit ≤ applyHandbrake target force powLimit ↔
      (BrakeSlips target harder powLimit →
        BrakeSlips target force powLimit ∨ force = 1 ∧ target = powLimit) := by
  by_cases hslips : BrakeSlips target harder powLimit
  · have hpos : 0 < target.toNat := Nat.lt_of_le_of_lt (Nat.zero_le _) (BitVec.lt_def.1 hslips)
    rw [applyHandbrake_of_slips hslips, imp_iff_right hslips]
    by_cases hboth : BrakeSlips target force powLimit
    · rw [applyHandbrake_of_slips hboth]
      exact iff_of_true (BitVec.le_refl _) (.inl hboth)
    · rw [applyHandbrake_of_not_slips hforce hboth, le_divide_iff hpos hle, or_iff_right hboth]
  · have hsmall := harder.toNat_lt
    have hquotients : target.divide harder.toNat ≤ target.divide force.toNat :=
      Target.divide_anti target (UInt32.le_iff_toNat_le.1 hforce)
        (UInt32.le_iff_toNat_le.1 hharder) (by omega)
    rw [applyHandbrake_of_not_slips (UInt32.le_trans hforce hharder) hslips]
    refine iff_of_true ?_ fun h => absurd h hslips
    exact BitVec.le_trans hquotients (divide_le_applyHandbrake hle hforce)

theorem applyHandbrake_le_target_iff (hle : target ≤ powLimit) (hforce : 1 ≤ force) :
    applyHandbrake target force powLimit ≤ target ↔
      (BrakeSlips target force powLimit → target = powLimit) := by
  have hone : ¬ BrakeSlips target 1 powLimit := by
    apply not_slips_of_lt hle (UInt32.le_refl 1)
    rw [UInt32.toNat_one, Nat.mul_one]
    exact Target.toNat_lt powLimit
  have hiff := applyHandbrake_le_applyHandbrake_iff hle (UInt32.le_refl 1) hforce
  rw [applyHandbrake_one hle] at hiff
  simpa only [hone, false_or, true_and] using hiff

/-- For every limit, every target within it and all forces but zero: a harder brake eases the
target exactly where it slips and the softer one does not give the limit as well, and a brake eases
what was not braked exactly where it slips short of the limit. As long as the product of the limit
and the harder force fits, neither happens. -/
theorem applyHandbrake_antitone_iff (hle : target ≤ powLimit) (hforce : 1 ≤ force)
    (hharder : force ≤ harder) :
    (applyHandbrake target harder powLimit ≤ applyHandbrake target force powLimit ↔
      (BrakeSlips target harder powLimit →
        BrakeSlips target force powLimit ∨ force = 1 ∧ target = powLimit)) ∧
    (applyHandbrake target force powLimit ≤ target ↔
      (BrakeSlips target force powLimit → target = powLimit)) ∧
    (powLimit.toNat * harder.toNat < 2 ^ 256 →
      applyHandbrake target harder powLimit ≤ applyHandbrake target force powLimit ∧
        applyHandbrake target force powLimit ≤ target) := by
  have hboth := applyHandbrake_le_applyHandbrake_iff hle hforce hharder
  have hunbraked := applyHandbrake_le_target_iff hle hforce
  refine ⟨hboth, hunbraked, fun hfits => ⟨hboth.2 fun hslips => ?_, hunbraked.2 fun hslips => ?_⟩⟩
  · exact absurd hslips (not_slips_of_lt hle (UInt32.le_trans hforce hharder) hfits)
  · have hless : powLimit.toNat * force.toNat ≤ powLimit.toNat * harder.toNat :=
      Nat.mul_le_mul_left _ (UInt32.le_iff_toNat_le.1 hharder)
    exact absurd hslips (not_slips_of_lt hle hforce (Nat.lt_of_le_of_lt hless hfits))

end

/-- A target that is less than 2^20 short of the limit of the main network. -/
def nearLimit : Target := .ofNat (2 ^ 236 - 2 ^ 20)

/-- A force of two does not slip on it, one of 2^20 + 1 does. -/
theorem applyHandbrake_antitone_iff_near :
    nearLimit ≤ ChainParams.main.powLimit ∧ (1 : UInt32) ≤ 2 ∧ (2 : UInt32) ≤ 0x100001 ∧
    BrakeSlips nearLimit 0x100001 ChainParams.main.powLimit ∧
    ¬ BrakeSlips nearLimit 2 ChainParams.main.powLimit ∧
    ¬ applyHandbrake nearLimit 0x100001 ChainParams.main.powLimit ≤
      applyHandbrake nearLimit 2 ChainParams.main.powLimit := by
  have hle : nearLimit ≤ ChainParams.main.powLimit := by decide
  have hslips : BrakeSlips nearLimit 0x100001 ChainParams.main.powLimit := by decide
  have hholds : ¬ BrakeSlips nearLimit 2 ChainParams.main.powLimit := by decide
  have hforce : (1 : UInt32) ≤ 2 := by decide
  have hharder : (2 : UInt32) ≤ 0x100001 := by decide
  obtain ⟨hiff, -, -⟩ := applyHandbrake_antitone_iff hle hforce hharder
  refine ⟨hle, hforce, hharder, hslips, hholds, fun h => ?_⟩
  rcases hiff.1 h hslips with hboth | ⟨hone, -⟩
  · exact hholds hboth
  · exact absurd hone (by decide)

/-- Braked by 2^20 + 1 it is eased to the limit, and braked by one it stays as it is. -/
theorem harder_brake_eases :
    nearLimit ≤ ChainParams.main.powLimit ∧ (1 : UInt32) ≤ 0x100001 ∧
    applyHandbrake nearLimit 1 ChainParams.main.powLimit = nearLimit ∧
    applyHandbrake nearLimit 0x100001 ChainParams.main.powLimit = ChainParams.main.powLimit ∧
    ¬ applyHandbrake nearLimit 0x100001 ChainParams.main.powLimit ≤
      applyHandbrake nearLimit 1 ChainParams.main.powLimit := by
  decide

end SporkNode.Work
