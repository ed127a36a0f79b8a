import Mathlib.FieldTheory.Finite.Basic
import Mathlib.Tactic.Ring
import SporkNode.Proofs.Curve.Primes

/-!
Coordinates and scalars as residues. The arithmetic of either is that of the integers modulo its
prime, so the powers that stand for inverses and square roots are these.
-/

namespace SporkNode.Curve

instance : Fact fieldPrime.Prime := ⟨prime_fieldPrime⟩

instance : Fact order.Prime := ⟨prime_order⟩

/-- What holds of a thing and an element of a monoid, and then of their products, holds of the
repeated thing and the power. -/
theorem repeated_pow {M : Type*} [Monoid M] {R : α → M → Prop} {combine : α → α → α} {unit : α}
    (hunit : R unit 1) (hcombine : ∀ {a b x y}, R a x → R b y → R (combine a b) (x * y)) {a : α}
    {x : M} (h : R a x) (n : ℕ) : R (repeated combine unit a n) (x ^ n) := by
  induction n using Nat.strongRecOn generalizing a x with
  | ind n ih =>
    unfold repeated
    by_cases hn : n = 0
    · rw [if_pos hn, hn, pow_zero]
      exact hunit
    · have hhalf := ih (n / 2) (by omega) (hcombine h h)
      rw [← sq, ← pow_mul] at hhalf
      rw [if_neg hn]
      by_cases hodd : n % 2 = 1
      · have hsplit : x ^ n = x * x ^ (2 * (n / 2)) := by
          rw [← pow_succ']
          congr 1
          omega
        rw [if_pos hodd, hsplit]
        exact hcombine h hhalf
      · have hsplit : x ^ n = x ^ (2 * (n / 2)) := by
          congr 1
          omega
        rw [if_neg hodd, hsplit]
        exact hhalf

/-! ## Residues -/

section Residue

variable {n : ℕ}

/-- The residue that a number below `n` stands for. -/
def residue (x : Fin n) : ZMod n := (x.val : ZMod n)

theorem natCast_ne_zero {m : ℕ} (hpos : 0 < m) (hlt : m < n) : (m : ZMod n) ≠ 0 := fun h =>
  absurd (Nat.le_of_dvd hpos ((ZMod.natCast_eq_zero_iff _ _).1 h)) (by omega)

theorem residue_injective : Function.Injective (residue : Fin n → ZMod n) := by
  intro x y h
  have hmod := (ZMod.natCast_eq_natCast_iff' _ _ _).1 h
  rw [Nat.mod_eq_of_lt x.isLt, Nat.mod_eq_of_lt y.isLt] at hmod
  exact Fin.ext hmod

@[simp] theorem residue_add (x y : Fin n) : residue (x + y) = residue x + residue y := by
  rw [residue, Fin.val_add, ZMod.natCast_mod, Nat.cast_add]
  rfl

@[simp] theorem residue_mul (x y : Fin n) : residue (x * y) = residue x * residue y := by
  rw [residue, Fin.val_mul, ZMod.natCast_mod, Nat.cast_mul]
  rfl

@[simp] theorem residue_sub (x y : Fin n) : residue (x - y) = residue x - residue y := by
  rw [residue, Fin.val_sub, ZMod.natCast_mod, Nat.cast_add, Nat.cast_sub y.isLt.le,
    ZMod.natCast_self, zero_sub, neg_add_eq_sub]
  rfl

variable [NeZero n]

@[simp] theorem residue_ofNat (m : ℕ) : residue (Fin.ofNat n m) = (m : ZMod n) :=
  ZMod.natCast_mod m n

@[simp] theorem residue_zero : residue (0 : Fin n) = 0 := (residue_ofNat 0).trans Nat.cast_zero

@[simp] theorem residue_one : residue (1 : Fin n) = 1 := (residue_ofNat 1).trans Nat.cast_one

@[simp] theorem residue_neg (x : Fin n) : residue (-x) = -residue x := by
  rw [eq_neg_iff_add_eq_zero, ← residue_add]
  exact (congrArg residue (neg_add_cancel x)).trans residue_zero

@[simp] theorem residue_literal (m : ℕ) [m.AtLeastTwo] :
    residue (no_index (OfNat.ofNat m) : Fin n) = OfNat.ofNat m := residue_ofNat m

theorem residue_repeated (x : Fin n) (m : ℕ) :
    residue (repeated (· * ·) 1 x m) = residue x ^ m :=
  repeated_pow (R := fun a y => residue a = y) residue_one
    (fun ha hb => by rw [residue_mul, ha, hb]) rfl m

end Residue

theorem pow_sub_two {p : ℕ} [Fact p.Prime] (hp : 2 < p) (x : ZMod p) : x ^ (p - 2) = x⁻¹ := by
  by_cases hx : x = 0
  · rw [hx, inv_zero, zero_pow (by omega)]
  · apply eq_inv_of_mul_eq_one_left
    rw [← pow_succ, show p - 2 + 1 = p - 1 by omega, ZMod.pow_card_sub_one_eq_one hx]

theorem residue_inverse_field (x : Field) : residue (Field.inverse x) = (residue x)⁻¹ :=
  (residue_repeated x _).trans (pow_sub_two (by decide) _)

theorem residue_inverse_scalar (x : Scalar) : residue (Scalar.inverse x) = (residue x)⁻¹ :=
  (residue_repeated x _).trans (pow_sub_two (by decide) _)

/-! ## Square roots -/

/-- The prime leaves 3 modulo 4, so a quarter of its successor is an exponent. -/
theorem power_mul_self (x : Field) :
    residue (Field.power (x * x) ((fieldPrime + 1) / 4)) ^ 2 = residue x ^ 2 := by
  rw [Field.power, residue_repeated, residue_mul, ← sq, ← pow_mul, ← pow_mul,
    show 2 * ((fieldPrime + 1) / 4 * 2) = fieldPrime + 1 by decide, pow_succ,
    ZMod.pow_card, sq]

theorem sqrt?_mul_self (x : Field) :
    ∃ y, Field.sqrt? (x * x) = some y ∧ (y = x ∨ y = -x) := by
  have hsq := power_mul_self x
  refine ⟨_, if_pos ?_, ?_⟩
  · apply residue_injective
    rw [residue_mul, residue_mul, ← sq (residue x), ← hsq, sq]
  · exact (sq_eq_sq_iff_eq_or_eq_neg.1 hsq).imp (residue_injective ·)
      fun h => residue_injective (h.trans (residue_neg x).symm)

end SporkNode.Curve
