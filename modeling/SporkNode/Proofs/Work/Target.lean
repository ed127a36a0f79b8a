import Mathlib.Algebra.Group.Nat.Defs
import SporkNode.Work.Target

/-!
Targets as numbers. Every operation on 256-bit words is one on numbers, cut to 256 bits where it
can pass them; shifts multiply and divide by a power of two, whatever the amount.
-/

namespace SporkNode.Work.Target

theorem toNat_lt (t : Target) : t.toNat < 2 ^ 256 := t.isLt

theorem toNat_pos {t : Target} : 0 < t.toNat ↔ t ≠ 0 := by
  rw [Nat.pos_iff_ne_zero]
  exact not_congr ⟨fun h => BitVec.eq_of_toNat_eq h, fun h => congrArg BitVec.toNat h⟩

@[simp] theorem toNat_ofNat (n : Nat) : (ofNat n).toNat = n % 2 ^ 256 := BitVec.toNat_ofNat n 256

@[simp] theorem toNat_scale (t : Target) (n : Nat) :
    (t.scale n).toNat = t.toNat * n % 2 ^ 256 := by
  rw [scale, BitVec.toNat_mul, toNat_ofNat, Nat.mul_mod_mod]

@[simp] theorem toNat_divide (t : Target) (n : Nat) :
    (t.divide n).toNat = t.toNat / (n % 2 ^ 256) := by
  rw [divide, BitVec.toNat_udiv, toNat_ofNat]

@[simp] theorem toNat_shiftRight (t : Target) (n : Nat) :
    (t.shiftRight n).toNat = t.toNat / 2 ^ n := by
  unfold shiftRight
  split
  · rw [BitVec.toNat_ushiftRight, Nat.shiftRight_eq_div_pow]
  · have hn : 2 ^ 256 ≤ 2 ^ n := Nat.pow_le_pow_right (by decide) (by omega)
    have ht := toNat_lt t
    exact (Nat.div_eq_of_lt (Nat.lt_of_lt_of_le ht hn)).symm

@[simp] theorem toNat_shiftLeft (t : Target) (n : Nat) :
    (t.shiftLeft n).toNat = t.toNat * 2 ^ n % 2 ^ 256 := by
  unfold shiftLeft
  split
  · rw [BitVec.toNat_shiftLeft, Nat.shiftLeft_eq]
  · have hn : 2 ^ n = 2 ^ (n - 256) * 2 ^ 256 := by
      rw [← Nat.pow_add]
      congr 1
      omega
    rw [hn, ← Nat.mul_assoc, Nat.mul_mod_left]
    rfl

theorem shiftRight_of_width_le (t : Target) {n : Nat} (h : 256 ≤ n) : t.shiftRight n = 0 :=
  if_neg (Nat.not_lt.2 h)

theorem shiftLeft_of_width_le (t : Target) {n : Nat} (h : 256 ≤ n) : t.shiftLeft n = 0 :=
  if_neg (Nat.not_lt.2 h)

theorem divide_mono {t u : Target} (h : t ≤ u) (n : Nat) : t.divide n ≤ u.divide n := by
  rw [BitVec.le_def] at h ⊢
  rw [toNat_divide, toNat_divide]
  exact Nat.div_le_div_right h

/-- A greater divisor gives no greater quotient, as long as it is not cut. -/
theorem divide_anti (t : Target) {n m : Nat} (hn : 0 < n) (h : n ≤ m) (hm : m < 2 ^ 256) :
    t.divide m ≤ t.divide n := by
  rw [BitVec.le_def, toNat_divide, toNat_divide, Nat.mod_eq_of_lt hm,
    Nat.mod_eq_of_lt (Nat.lt_of_le_of_lt h hm)]
  exact Nat.div_le_div_left h hn

theorem divide_one (t : Target) : t.divide 1 = t := by
  apply BitVec.eq_of_toNat_eq
  rw [toNat_divide, Nat.mod_eq_of_lt (by decide), Nat.div_one]

theorem divide_le (t : Target) (n : Nat) : t.divide n ≤ t := by
  rw [BitVec.le_def, toNat_divide]
  exact Nat.div_le_self _ _

/-- A target that stays under the limit when the limit is halved `n` times can be doubled that
often: nothing is lost, and the limit still holds. -/
theorem shiftLeft_le {t limit : Target} {n : Nat} (h : t ≤ limit.shiftRight n) :
    t.shiftLeft n ≤ limit := by
  rw [BitVec.le_def, toNat_shiftRight] at h
  rw [BitVec.le_def, toNat_shiftLeft]
  have hmul : t.toNat * 2 ^ n ≤ limit.toNat :=
    Nat.le_trans (Nat.mul_le_mul_right _ h) (Nat.div_mul_le_self _ _)
  exact Nat.le_trans (Nat.mod_le _ _) hmul

theorem toNat_lt_two_pow_bitLength (t : Target) : t.toNat < 2 ^ t.bitLength := by
  unfold bitLength
  split
  · subst t
    decide
  · exact Nat.lt_log2_self

theorem two_pow_le_toNat {t : Target} (h : 0 < t.bitLength) : 2 ^ (t.bitLength - 1) ≤ t.toNat := by
  unfold bitLength at h ⊢
  split at h
  · exact absurd h (Nat.lt_irrefl 0)
  · rename_i hne
    rw [if_neg hne, Nat.add_sub_cancel]
    exact Nat.log2_self_le (Nat.ne_of_gt (toNat_pos.2 hne))

theorem bitLength_le (t : Target) : t.bitLength ≤ 256 := by
  unfold bitLength
  split
  · decide
  · rename_i h
    have := (Nat.log2_lt (Nat.ne_of_gt (toNat_pos.2 h))).2 (toNat_lt t)
    omega

end SporkNode.Work.Target
