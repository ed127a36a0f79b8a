import Mathlib.Algebra.Group.Nat.Defs
import SporkNode.Hash

/-!
Numerals in bytes and the numbers they stand for: a numeral of `width` bytes keeps a number modulo
`256 ^ width`, so the two directions are inverse below that bound.
-/

namespace SporkNode

namespace Bytes

theorem toNat_lt (b : Bytes) : toNat b < 256 ^ b.length := by
  induction b with
  | nil => simp [toNat]
  | cons x rest ih =>
    have hx : x.toNat < 256 := x.toNat_lt
    rw [toNat, List.length_cons, Nat.pow_succ]
    omega

theorem toNat_ofNat (width n : Nat) : toNat (ofNat width n) = n % 256 ^ width := by
  induction width generalizing n with
  | zero => simp [ofNat, toNat, Nat.mod_one]
  | succ width ih =>
    have h : (UInt8.ofNat (n % 256)).toNat = n % 256 := by
      rw [UInt8.toNat_ofNat']
      exact Nat.mod_eq_of_lt (Nat.mod_lt n (by decide))
    rw [ofNat, toNat, ih, h, Nat.pow_succ, Nat.mul_comm (256 ^ width), Nat.mod_mul]

theorem toNat_ofNat_of_lt {width n : Nat} (h : n < 256 ^ width) :
    toNat (ofNat width n) = n := by
  rw [toNat_ofNat, Nat.mod_eq_of_lt h]

theorem ofNatBig_toNatBig (b : Bytes) : ofNatBig b.length (toNatBig b) = b := by
  rw [ofNatBig, toNatBig, ← List.length_reverse, ofNat_toNat, List.reverse_reverse]

theorem toNatBig_ofNatBig_of_lt {width n : Nat} (h : n < 256 ^ width) :
    toNatBig (ofNatBig width n) = n := by
  rw [toNatBig, ofNatBig, List.reverse_reverse, toNat_ofNat_of_lt h]

end Bytes

theorem Hash.toNat_zero : Hash.zero.toNat = 0 := by decide

end SporkNode
