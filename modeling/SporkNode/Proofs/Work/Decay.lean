import SporkNode.Proofs.Work.Limit
import SporkNode.Proofs.Work.Signed

/-!
Decay as a function of the gap between the tip and the candidate. Nothing is owed until the gap
has reached twice the spacing for each block of the interleave; from then on the target is doubled
once for each halving owed, as far as the limit.
-/

namespace SporkNode.Work

namespace Decay

/-- Halvings owed after a gap; none if not positive. -/
def owed (params : ChainParams) (fixed : Bool) (gap : Int) : Int :=
  gap.tdiv (2 * params.spacing) - interleave fixed + 1

/-- What the decay makes of `bits` where `n` halvings are owed. -/
def eased (params : ChainParams) (n : Int) (bits : CompactTarget) : CompactTarget :=
  if n ≤ 0 then bits else .ofTarget (relaxed params bits.toTarget n.toNat)

variable {params : ChainParams}

/-- All amounts from the width on shift a word to zero. -/
theorem relaxed_saturated (params : ChainParams) (target : Target) {n m : Nat} (hn : 256 ≤ n)
    (hm : 256 ≤ m) : relaxed params target n = relaxed params target m := by
  unfold relaxed
  rw [Target.shiftRight_of_width_le _ hn, Target.shiftRight_of_width_le _ hm,
    Target.shiftLeft_of_width_le _ hn, Target.shiftLeft_of_width_le _ hm]

/-- A count that is cut to 32 bits is past the width on both sides. -/
theorem relaxed_shiftAmount (params : ChainParams) (target : Target) {n : Int} (hn : 0 < n) :
    relaxed params target (shiftAmount n) = relaxed params target n.toNat := by
  unfold shiftAmount
  split
  · rfl
  · apply relaxed_saturated
    · decide
    · have hsize : UInt32.size = 2 ^ 32 := rfl
      omega

section

variable {tip : Block} {candidate : Candidate} {o : Overflow} {fixed : Bool}

/-- Halvings are owed for the gap as it was measured. -/
theorem halvings_eq (hspacing : 0 < params.spacing) (hdouble : 2 * params.spacing < signedSize)
    {gap : Int} (hgap : o.signed (candidate.time - tip.time) = .ok gap) :
    halvings params fixed tip candidate o = .ok (owed params fixed gap) := by
  have hfits := fitsSigned_of_pos (by omega : 0 < 2 * params.spacing) hdouble
  refine bind_eq_ok.2 ⟨gap, hgap, bind_eq_ok.2 ⟨_, Overflow.signed_of_fits hfits o, ?_⟩⟩
  rw [if_neg (by omega)]
  rfl

theorem apply_of_halvings {n : Int} (h : halvings params fixed tip candidate o = .ok n)
    (bits : CompactTarget) :
    apply params fixed tip candidate bits o = .ok (eased params n bits) := by
  unfold apply eased
  rw [h, ok_bind]
  split
  · rfl
  · rw [← relaxed_shiftAmount params bits.toTarget (by omega)]
    rfl

/-- The halvings are given unless the gap or the double spacing overflows. -/
theorem halvings_settles (hspacing : 0 < params.spacing) (fixed : Bool) (tip : Block)
    (candidate : Candidate) :
    Settles (halvings params fixed tip candidate ·) (fun n =>
      n = owed params fixed (candidate.time - tip.time)) := by
  apply Settles.signed_bind
  intro _
  apply Settles.signed_bind
  intro _
  have hdouble : 2 * params.spacing ≠ 0 := by omega
  simp only [hdouble, if_false]
  exact .ok rfl

theorem apply_settles (hspacing : 0 < params.spacing) (fixed : Bool) (tip : Block)
    (candidate : Candidate) (bits : CompactTarget) :
    Settles (apply params fixed tip candidate bits ·) (fun b =>
      b = eased params (owed params fixed (candidate.time - tip.time)) bits) := by
  rcases halvings_settles hspacing fixed tip candidate with hover | ⟨n, rfl, hn⟩
  · left
    dsimp only at hover ⊢
    rw [apply, hover]
    rfl
  · exact .inr ⟨_, rfl, fun o => apply_of_halvings (hn o) bits⟩

end

theorem owed_nonpos_iff (hspacing : 0 < params.spacing) (fixed : Bool) (gap : Int) :
    owed params fixed gap ≤ 0 ↔ gap < 2 * params.spacing * interleave fixed := by
  have hi : (0 : Int) < interleave fixed := by cases fixed <;> decide
  have hs : 0 < 2 * params.spacing := by omega
  have howed : owed params fixed gap ≤ 0 ↔ gap.tdiv (2 * params.spacing) < interleave fixed := by
    unfold owed
    omega
  rw [howed, Int.mul_comm (2 * params.spacing)]
  rcases Int.le_total 0 gap with hgap | hgap
  · rw [Int.tdiv_eq_ediv_of_nonneg hgap, Int.ediv_lt_iff_lt_mul hs]
  · -- a candidate before the tip is owed nothing, however the quotient is rounded
    have hq : gap.tdiv (2 * params.spacing) ≤ 0 := by
      rw [← Int.neg_neg gap, Int.neg_tdiv]
      exact Int.neg_nonpos_of_nonneg (Int.tdiv_nonneg (by omega) (by omega))
    have hpos := Int.mul_pos hi hs
    constructor
    · intro _
      omega
    · intro _
      omega

/-- Doubling loses nothing before the limit stops it. -/
theorem toNat_relaxed (params : ChainParams) (target : Target) (n : Nat) :
    (relaxed params target n).toNat =
      if params.allowMinDifficulty then params.powLimit.toNat
      else min params.powLimit.toNat (target.toNat * 2 ^ n) := by
  unfold relaxed
  by_cases hmin : params.allowMinDifficulty = true
  · rw [if_pos (.inl hmin), if_pos hmin]
  · have hpow : 0 < 2 ^ n := Nat.two_pow_pos n
    simp only [hmin, false_or, Bool.false_eq_true, if_false]
    split
    · rename_i hlt
      rw [BitVec.lt_def, Target.toNat_shiftRight, Nat.div_lt_iff_lt_mul hpow] at hlt
      exact (Nat.min_eq_left (Nat.le_of_lt hlt)).symm
    · rename_i hle
      rw [BitVec.lt_def, Target.toNat_shiftRight, Nat.div_lt_iff_lt_mul hpow,
        Nat.not_lt] at hle
      have hlimit := Target.toNat_lt params.powLimit
      rw [Target.toNat_shiftLeft, Nat.mod_eq_of_lt (Nat.lt_of_le_of_lt hle hlimit)]
      exact (Nat.min_eq_right hle).symm

theorem relaxed_ne_zero {target : Target} (hlimit : params.powLimit ≠ 0) (h : target ≠ 0)
    (n : Nat) : relaxed params target n ≠ 0 := by
  have hl := Target.toNat_pos.2 hlimit
  have ht := Nat.mul_pos (Target.toNat_pos.2 h) (Nat.two_pow_pos n)
  rw [← Target.toNat_pos, toNat_relaxed]
  split
  · exact hl
  · exact Nat.lt_min.2 ⟨hl, ht⟩

theorem eased_ne_zero {bits : CompactTarget} (hlimit : params.powLimit ≠ 0)
    (h : bits.decode.target ≠ 0) (n : Int) : (eased params n bits).decode.target ≠ 0 := by
  unfold eased
  split
  · exact h
  · exact CompactTarget.decode_ofTarget_ne_zero (relaxed_ne_zero hlimit h _)

theorem toNat_decode_eased_le (hmin : params.allowMinDifficulty = false) (n : Int)
    (bits : CompactTarget) :
    (eased params n bits).decode.target.toNat ≤ bits.decode.target.toNat * 2 ^ n.toNat := by
  unfold eased
  split
  · rename_i hnone
    apply Nat.le_of_eq
    rw [Int.toNat_of_nonpos hnone, Nat.pow_zero, Nat.mul_one]
  · refine Nat.le_trans (BitVec.le_def.1 (CompactTarget.decode_ofTarget_le _)) ?_
    rw [toNat_relaxed, hmin]
    exact Nat.min_le_right _ _

/-- Once something is owed the target at least doubles, if the limit allows that. -/
theorem two_mul_le_relaxed {target : Target} (h : 2 * target.toNat ≤ params.powLimit.toNat)
    {n : Nat} (hn : 0 < n) : 2 * target.toNat ≤ (relaxed params target n).toNat := by
  have hpow : 2 ^ 1 ≤ 2 ^ n := Nat.pow_le_pow_right (by decide) hn
  have hdouble : 2 * target.toNat ≤ target.toNat * 2 ^ n := by
    rw [Nat.mul_comm]
    exact Nat.mul_le_mul_left _ hpow
  rw [toNat_relaxed]
  split
  · exact h
  · exact Nat.le_min.2 ⟨h, hdouble⟩

/-- A bound that was met exactly is passed with the first halving: what writing loses is far less
than what doubling adds. -/
theorem lt_decode_eased {bound : Target} (hpos : 0 < bound.toNat)
    (hroom : 2 * bound.toNat ≤ params.powLimit.toNat) {n : Int} (howed : 0 < n) :
    bound < (eased params n (.ofTarget bound)).decode.target := by
  have hle := BitVec.le_def.1 (CompactTarget.decode_ofTarget_le bound)
  have hwritten := CompactTarget.toNat_le_decode_ofTarget bound
  have hdoubled : 2 * (CompactTarget.ofTarget bound).toTarget.toNat ≤
      (relaxed params (CompactTarget.ofTarget bound).toTarget n.toNat).toNat := by
    apply two_mul_le_relaxed
    · show 2 * (CompactTarget.ofTarget bound).decode.target.toNat ≤ _
      omega
    · omega
  have hrewritten := CompactTarget.toNat_le_decode_ofTarget
    (relaxed params (CompactTarget.ofTarget bound).toTarget n.toNat)
  rw [eased, if_neg (by omega), BitVec.lt_def]
  rw [CompactTarget.toTarget] at hdoubled hrewritten ⊢
  omega

end Decay

/-- The time of the candidate plays no part in the wave. -/
theorem Wave.nextTarget_time {params : ChainParams} {network : NetworkParameters} {tip : Block}
    {history : List Block} (version : Int32) (time time' : Int) (o : Overflow) :
    nextTarget params network tip history ⟨version, time⟩ o =
      nextTarget params network tip history ⟨version, time'⟩ o := rfl

/-- The work required is the wave's, eased by the gap. -/
theorem nextWork_eq_ok {params : ChainParams} {network : NetworkParameters} {tip : Block}
    {history : List Block} {candidate : Candidate} {o : Overflow} {bits : CompactTarget} {gap : Int}
    (hspacing : 0 < params.spacing) (hdouble : 2 * params.spacing < signedSize)
    (h : Wave.nextTarget params network tip history candidate o = .ok bits)
    (hgap : o.signed (candidate.time - tip.time) = .ok gap) :
    nextWork params network tip history candidate o =
      .ok (Decay.eased params
        (Decay.owed params (fixActive tip.height params network) gap) bits) :=
  bind_eq_ok.2 ⟨bits, h, Decay.apply_of_halvings (Decay.halvings_eq hspacing hdouble hgap) bits⟩

end SporkNode.Work
