import Mathlib.Algebra.Group.Int.Defs
import SporkNode.Proofs.Work.CompactTarget
import SporkNode.Work.Block

/-!
When a hash proves its work. A compact word stands for a signed number of any size, and the check
can be told from that number alone: the flags and the cut to 256 bits that reading works with do
not show.
-/

namespace SporkNode.Work

namespace CompactTarget

/-- The number that a word stands for. -/
def value (c : CompactTarget) : Int := if c.signBit then -c.magnitude else c.magnitude

/-- All digits of a number stand right of the point exactly if it is rounded to zero. -/
theorem digits_eq_zero_iff (c : CompactTarget) : c.digits = 0 ↔ c.magnitude = 0 := by
  by_cases h : c.exponent ≤ 3
  · rw [digits_of_le h]
  · have hpow : 0 < 256 ^ (c.exponent - 3) := Nat.pow_pos (by decide)
    rw [digits_of_lt (Nat.not_le.1 h), magnitude, placed, if_neg h, Nat.mul_eq_zero]
    constructor
    · intro hzero
      exact .inl hzero
    · rintro (hzero | hzero)
      · exact hzero
      · omega

theorem decode_negative (c : CompactTarget) : c.decode.negative = true ↔ c.value < 0 := by
  have hflag : c.decode.negative = true ↔ c.magnitude ≠ 0 ∧ c.signBit = true := by
    rw [ne_eq, ← digits_eq_zero_iff]
    simp [decode]
  rw [hflag, value]
  cases c.signBit with
  | false =>
    simp only [Bool.false_eq_true, and_false, if_false, false_iff]
    omega
  | true =>
    simp only [and_true, if_true]
    omega

theorem natAbs_value (c : CompactTarget) : c.value.natAbs = c.magnitude := by
  unfold value
  split <;> omega

theorem isValid_iff (c : CompactTarget) :
    c.decode.isValid = true ↔ 0 < c.value ∧ c.value < 2 ^ 256 := by
  have habs := c.natAbs_value
  have hneg := c.decode_negative
  have hover := c.decode_overflow
  have htarget := Target.toNat_pos (t := c.decode.target)
  rw [toNat_decode_target] at htarget
  simp only [DecodedTarget.isValid, Bool.and_eq_true, Bool.not_eq_true', decide_eq_true_eq,
    ← Bool.not_eq_true, hneg, hover, ← htarget]
  constructor
  · rintro ⟨⟨hnonneg, hfits⟩, hpos⟩
    rw [Nat.mod_eq_of_lt (by omega)] at hpos
    omega
  · rintro ⟨hpos, hfits⟩
    rw [Nat.mod_eq_of_lt (by omega)]
    omega

/-- A legal word is read as the number that it stands for. -/
theorem toNat_target_of_isValid {c : CompactTarget} (h : c.decode.isValid = true) :
    (c.decode.target.toNat : Int) = c.value := by
  have habs := c.natAbs_value
  obtain ⟨hpos, hfits⟩ := c.isValid_iff.1 h
  rw [toNat_decode_target, Nat.mod_eq_of_lt (by omega)]
  omega

end CompactTarget

/-- For every hash, word and limit: the work is proved exactly when the number that the word stands
for is positive and within the limit, and the hash is no greater. -/
theorem checkProof_iff (hash : Hash) (bits : CompactTarget) (params : ChainParams) :
    checkProof hash bits params = true ↔
      0 < bits.value ∧ bits.value ≤ params.powLimit.toNat ∧ hash.toNat ≤ bits.value := by
  have hlimit := Target.toNat_lt params.powLimit
  have hcheck : checkProof hash bits params = true ↔
      bits.decode.isValid = true ∧ bits.decode.target.toNat ≤ params.powLimit.toNat ∧
        hash.toNat ≤ bits.decode.target.toNat := by
    simp [checkProof, BitVec.le_def, and_assoc]
  rw [hcheck]
  constructor
  · rintro ⟨hvalid, hle, hhash⟩
    have htarget := CompactTarget.toNat_target_of_isValid hvalid
    obtain ⟨hpos, -⟩ := bits.isValid_iff.1 hvalid
    exact ⟨hpos, by omega, by omega⟩
  · rintro ⟨hpos, hle, hhash⟩
    have hvalid := bits.isValid_iff.2 ⟨hpos, by omega⟩
    have htarget := CompactTarget.toNat_target_of_isValid hvalid
    exact ⟨hvalid, by omega, by omega⟩

end SporkNode.Work
