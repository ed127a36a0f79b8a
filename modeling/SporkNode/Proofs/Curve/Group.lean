import Mathlib.AlgebraicGeometry.EllipticCurve.Affine.Point
import Mathlib.Tactic.LinearCombination
import SporkNode.Curve.Point
import SporkNode.Proofs.Curve.Field

/-!
Weighted coordinates compute in the group of the curve. What they stand for is related to an element
of that group, and each operation on them to the operation on elements.
-/

namespace SporkNode.Curve

open WeierstrassCurve

/-- The curve over the residues. -/
def curve : WeierstrassCurve.Affine (ZMod fieldPrime) := ⟨0, 0, 0, 0, 7⟩

theorem two_ne_zero_residue : (2 : ZMod fieldPrime) ≠ 0 :=
  natCast_ne_zero (m := 2) (by decide) (by decide)

theorem curve_equation_iff (x y : ZMod fieldPrime) : curve.Equation x y ↔ y ^ 2 = x ^ 3 + 7 := by
  rw [Affine.equation_iff]
  simp [curve]

theorem curve_discriminant : curve.Δ ≠ 0 := by
  have h : curve.Δ = -((21168 : ℕ) : ZMod fieldPrime) := by
    simp only [curve, WeierstrassCurve.Δ, WeierstrassCurve.b₂, WeierstrassCurve.b₄,
      WeierstrassCurve.b₆, WeierstrassCurve.b₈]
    push_cast
    ring
  rw [h]
  exact neg_ne_zero.2 (natCast_ne_zero (by decide) (by decide))

theorem curve_nonsingular_iff (x y : ZMod fieldPrime) :
    curve.Nonsingular x y ↔ y ^ 2 = x ^ 3 + 7 := by
  rw [← Affine.equation_iff_nonsingular_of_Δ_ne_zero curve_discriminant, curve_equation_iff]

@[simp] theorem curve_negY (x y : ZMod fieldPrime) : curve.negY x y = -y := by
  simp [Affine.negY, curve]

@[simp] theorem curve_addX (x₁ x₂ ℓ : ZMod fieldPrime) : curve.addX x₁ x₂ ℓ = ℓ ^ 2 - x₁ - x₂ := by
  simp [Affine.addX, curve]

@[simp] theorem curve_addY (x₁ x₂ y₁ ℓ : ZMod fieldPrime) :
    curve.addY x₁ x₂ y₁ ℓ = ℓ * (x₁ - (ℓ ^ 2 - x₁ - x₂)) - y₁ := by
  simp only [Affine.addY, Affine.negAddY, curve_negY, curve_addX]
  ring

theorem ne_curve_negY {x y : ZMod fieldPrime} (hy : y ≠ 0) : y ≠ curve.negY x y := by
  rw [curve_negY, ← sub_ne_zero, sub_neg_eq_add, ← two_mul]
  exact mul_ne_zero two_ne_zero_residue hy

theorem slope_tangent {x y : ZMod fieldPrime} (hy : y ≠ 0) :
    curve.slope x x y y * (2 * y) = 3 * x ^ 2 := by
  have hyy : 2 * y ≠ 0 := mul_ne_zero two_ne_zero_residue hy
  rw [Affine.slope_of_Y_ne rfl (ne_curve_negY hy), curve_negY, sub_neg_eq_add, ← two_mul,
    div_mul_cancel₀ _ hyy]
  simp [curve]

theorem slope_chord {x₁ x₂ : ZMod fieldPrime} (hx : x₁ ≠ x₂) (y₁ y₂ : ZMod fieldPrime) :
    curve.slope x₁ x₂ y₁ y₂ * (x₁ - x₂) = y₁ - y₂ := by
  rw [Affine.slope_of_X_ne hx, div_mul_cancel₀ _ (sub_ne_zero.2 hx)]

namespace Weighted

/-- The element of the group that weighted coordinates stand for. -/
def Stands (w : Weighted) : curve.Point → Prop
  | .zero => w.z = 0
  | .some x y _ =>
    residue w.z ≠ 0 ∧ residue w.x = x * residue w.z ^ 2 ∧ residue w.y = y * residue w.z ^ 3

variable {v w : Weighted} {P Q : curve.Point}

theorem Stands.isNeutral_iff (h : w.Stands P) : w.isNeutral = true ↔ P = 0 := by
  cases P with
  | zero => exact iff_of_true (decide_eq_true h) rfl
  | some x y hxy =>
    refine iff_of_false (fun hz => ?_) (Affine.Point.some_ne_zero hxy)
    exact h.1 ((congrArg residue (of_decide_eq_true hz)).trans residue_zero)

theorem stands_neutral : neutral.Stands 0 := rfl

theorem Stands.double (h : w.Stands P) : w.double.Stands (P + P) := by
  cases P with
  | zero =>
    have hz : w.z = 0 := h
    show 2 * w.y * w.z = 0
    rw [hz]
    exact mul_zero _
  | some x y hxy =>
    obtain ⟨hz, hx, hy⟩ := h
    by_cases hy₀ : y = 0
    · rw [Affine.Point.add_self_of_Y_eq (by rw [curve_negY, hy₀, neg_zero])]
      show 2 * w.y * w.z = 0
      apply residue_injective
      simp [hy, hy₀]
    · have hm : 3 * (x * residue w.z ^ 2) * (x * residue w.z ^ 2) =
          curve.slope x x y y * (2 * y) * residue w.z ^ 4 := by
        rw [slope_tangent hy₀]
        ring
      rw [Affine.Point.add_self_of_Y_ne (ne_curve_negY hy₀)]
      refine ⟨?_, ?_, ?_⟩ <;>
        simp only [Weighted.double, residue_sub, residue_mul, residue_literal, hx, hy, hm,
          curve_addX, curve_addY]
      · exact mul_ne_zero (mul_ne_zero two_ne_zero_residue (mul_ne_zero hy₀ (pow_ne_zero _ hz))) hz
      · ring
      · ring

section

variable {x₁ y₁ x₂ y₂ : ZMod fieldPrime} {h₁ : curve.Nonsingular x₁ y₁}
  {h₂ : curve.Nonsingular x₂ y₂}

theorem Stands.x_eq_iff (hv : v.Stands (.some x₁ y₁ h₁)) (hw : w.Stands (.some x₂ y₂ h₂)) :
    v.x * (w.z * w.z) = w.x * (v.z * v.z) ↔ x₁ = x₂ := by
  obtain ⟨hvz, hvx, -⟩ := hv
  obtain ⟨hwz, hwx, -⟩ := hw
  have hz := pow_ne_zero 2 (mul_ne_zero hvz hwz)
  rw [← residue_injective.eq_iff, ← mul_left_inj' (a := x₁) (b := x₂) hz]
  simp only [residue_mul, hvx, hwx]
  ring_nf

theorem Stands.y_eq_iff (hv : v.Stands (.some x₁ y₁ h₁)) (hw : w.Stands (.some x₂ y₂ h₂)) :
    v.y * (w.z * w.z) * w.z = w.y * (v.z * v.z) * v.z ↔ y₁ = y₂ := by
  obtain ⟨hvz, -, hvy⟩ := hv
  obtain ⟨hwz, -, hwy⟩ := hw
  have hz := pow_ne_zero 3 (mul_ne_zero hvz hwz)
  rw [← residue_injective.eq_iff, ← mul_left_inj' (a := y₁) (b := y₂) hz]
  simp only [residue_mul, hvy, hwy]
  ring_nf

end

theorem Stands.add (hv : v.Stands P) (hw : w.Stands Q) : (v.add w).Stands (P + Q) := by
  unfold Weighted.add
  by_cases hP : P = 0
  · rw [if_pos (hv.isNeutral_iff.2 hP), hP, zero_add]
    exact hw
  rw [if_neg (mt hv.isNeutral_iff.1 hP)]
  by_cases hQ : Q = 0
  · rw [if_pos (hw.isNeutral_iff.2 hQ), hQ, add_zero]
    exact hv
  rw [if_neg (mt hw.isNeutral_iff.1 hQ)]
  cases P with
  | zero => exact absurd rfl hP
  | some x₁ y₁ h₁ =>
  cases Q with
  | zero => exact absurd rfl hQ
  | some x₂ y₂ h₂ =>
  have hxeq := hv.x_eq_iff hw
  have hyeq := hv.y_eq_iff hw
  dsimp only
  by_cases hx : x₁ = x₂
  · rw [if_pos (hxeq.2 hx)]
    by_cases hy : y₁ = y₂
    · subst hx hy
      rw [if_pos (hyeq.2 rfl)]
      exact hv.double
    · have hneg := Affine.Y_eq_of_X_eq h₁.1 h₂.1 hx
      rw [if_neg (mt hyeq.1 hy), Affine.Point.add_of_Y_eq hx (hneg.resolve_left hy)]
      exact stands_neutral
  · -- the chord through two points of different x
    obtain ⟨hvz, hvx, hvy⟩ := hv
    obtain ⟨hwz, hwx, hwy⟩ := hw
    rw [if_neg (mt hxeq.1 hx), Affine.Point.add_of_X_ne hx]
    have hr : y₂ * residue w.z ^ 3 * (residue v.z * residue v.z) * residue v.z -
        y₁ * residue v.z ^ 3 * (residue w.z * residue w.z) * residue w.z =
        curve.slope x₁ x₂ y₁ y₂ * (x₂ - x₁) * (residue v.z * residue w.z) ^ 3 := by
      linear_combination (residue v.z * residue w.z) ^ 3 * slope_chord hx y₁ y₂
    have hh : x₂ * residue w.z ^ 2 * (residue v.z * residue v.z) -
        x₁ * residue v.z ^ 2 * (residue w.z * residue w.z) =
        (x₂ - x₁) * (residue v.z * residue w.z) ^ 2 := by
      ring
    refine ⟨?_, ?_, ?_⟩ <;>
      simp only [residue_sub, residue_mul, residue_literal, hvx, hvy, hwx, hwy, hr, hh, curve_addX,
        curve_addY]
    · exact mul_ne_zero (mul_ne_zero (mul_ne_zero (sub_ne_zero.2 (Ne.symm hx))
        (pow_ne_zero 2 (mul_ne_zero hvz hwz))) hvz) hwz
    · ring
    · ring

/-! ## Points and weighted coordinates -/

variable {p q : Point}

theorem stands_ofPoint_iff :
    (ofPoint p).Stands P ↔
      ∃ h : curve.Nonsingular (residue p.x) (residue p.y), P = .some _ _ h := by
  cases P with
  | zero => exact iff_of_false (by decide : (1 : Field) ≠ 0) (by simp)
  | some x y h =>
    simp only [Stands, ofPoint, residue_one, one_pow, mul_one, ne_eq, one_ne_zero,
      not_false_eq_true, true_and, Affine.Point.some.injEq]
    constructor
    · rintro ⟨rfl, rfl⟩
      exact ⟨h, rfl, rfl⟩
    · rintro ⟨-, rfl, rfl⟩
      exact ⟨rfl, rfl⟩

theorem point_eq_of_stands (hp : (ofPoint p).Stands P) (hq : (ofPoint q).Stands P) : p = q := by
  obtain ⟨hp', rfl⟩ := stands_ofPoint_iff.1 hp
  obtain ⟨hq', h⟩ := stands_ofPoint_iff.1 hq
  obtain ⟨hx, hy⟩ := Affine.Point.some.inj h
  exact congrArg₂ Point.mk (residue_injective hx) (residue_injective hy)

theorem Stands.toPoint (h : w.Stands P) (hP : P ≠ 0) : (ofPoint w.toPoint).Stands P := by
  cases P with
  | zero => exact absurd rfl hP
  | some x y hxy =>
    obtain ⟨hz, hx, hy⟩ := h
    have hwx : residue w.toPoint.x = x := by
      simp only [Weighted.toPoint, residue_mul, residue_inverse_field, hx]
      field_simp
    have hwy : residue w.toPoint.y = y := by
      simp only [Weighted.toPoint, residue_mul, residue_inverse_field, hy]
      field_simp
    subst hwx hwy
    exact stands_ofPoint_iff.2 ⟨hxy, rfl⟩

theorem Stands.neg (h : (ofPoint p).Stands P) : (ofPoint ⟨p.x, -p.y⟩).Stands (-P) := by
  obtain ⟨hp, rfl⟩ := stands_ofPoint_iff.1 h
  have hy : residue (-p.y) = curve.negY (residue p.x) (residue p.y) := by
    rw [residue_neg, curve_negY]
  have hneg := (Affine.nonsingular_neg _ _).2 hp
  rw [← hy] at hneg
  refine stands_ofPoint_iff.2 ⟨hneg, ?_⟩
  simp only [Affine.Point.neg_some, hy]

theorem Stands.multiple (h : (ofPoint p).Stands P) (n : ℕ) : (p.multiple n).Stands (n • P) :=
  repeated_pow (M := Multiplicative curve.Point)
    (R := fun (w : Weighted) P => w.Stands P.toAdd) stands_neutral Stands.add h n

end Weighted

open Weighted

theorem Point.nonsingular_iff (p : Point) :
    curve.Nonsingular (residue p.x) (residue p.y) ↔ p.onCurve = true := by
  rw [curve_nonsingular_iff, onCurve, decide_eq_true_iff, ← residue_injective.eq_iff]
  simp only [residue_mul, residue_add, residue_literal]
  ring_nf

/-! ## The multiples of the generator -/

def base : curve.Point :=
  .some (residue generator.x) (residue generator.y) (generator.nonsingular_iff.2 (by decide))

theorem stands_generator : (ofPoint generator).Stands base := stands_ofPoint_iff.2 ⟨_, rfl⟩

theorem nsmul_base_eq_zero_iff (n : ℕ) :
    n • base = 0 ↔ (generator.multiple n).isNeutral = true :=
  (stands_generator.multiple n).isNeutral_iff.symm

theorem order_nsmul_base : order • base = 0 :=
  (nsmul_base_eq_zero_iff order).2 (by decide +kernel)

theorem addOrderOf_base : addOrderOf base = order :=
  addOrderOf_eq_prime order_nsmul_base (Affine.Point.some_ne_zero _)

/-- The multiples of the generator; its multiple by the order is the neutral element. -/
def multiples : ZMod order →+ curve.Point :=
  ZMod.lift order ⟨zmultiplesHom curve.Point base, by simpa using order_nsmul_base⟩

theorem multiples_natCast (n : ℕ) : multiples (n : ZMod order) = n • base := by
  have h : multiples ((n : ℤ) : ZMod order) = (n : ℤ) • base := ZMod.lift_coe ..
  simpa using h

theorem multiples_injective : Function.Injective multiples := by
  rw [injective_iff_map_eq_zero]
  intro d hd
  rw [← ZMod.natCast_zmod_val d, multiples_natCast, ← addOrderOf_dvd_iff_nsmul_eq_zero,
    addOrderOf_base] at hd
  rw [← ZMod.natCast_zmod_val d, (ZMod.natCast_eq_zero_iff _ _).2 hd]

section

variable {p : Point} {d : ZMod order}

theorem ne_zero_of_stands (h : (ofPoint p).Stands (multiples d)) : multiples d ≠ 0 := by
  obtain ⟨hp, hd⟩ := stands_ofPoint_iff.1 h
  rw [hd]
  exact Affine.Point.some_ne_zero hp

/-- The order is odd, so no multiple of the generator is its own reflection. -/
theorem y_ne_zero_of_stands (h : (ofPoint p).Stands (multiples d)) : p.y ≠ 0 := by
  intro hy
  have hself : -multiples d = multiples d := by
    obtain ⟨_, hd⟩ := stands_ofPoint_iff.1 h
    rw [hd, Affine.Point.neg_some, Affine.Point.some.injEq, curve_negY, hy, residue_zero, neg_zero]
    exact ⟨rfl, rfl⟩
  rw [← map_neg, multiples_injective.eq_iff, ZMod.neg_eq_self_iff] at hself
  have hodd : order % 2 = 1 := by decide
  obtain rfl := hself.resolve_right (by omega)
  exact ne_zero_of_stands h (map_zero multiples)

theorem stands_toPoint_multiple {n : ℕ} (hpos : 0 < n) (hlt : n < order) :
    (ofPoint (generator.multiple n).toPoint).Stands (multiples n) := by
  rw [multiples_natCast]
  refine (stands_generator.multiple n).toPoint fun h => ?_
  rw [← addOrderOf_dvd_iff_nsmul_eq_zero, addOrderOf_base] at h
  exact absurd (Nat.le_of_dvd hpos h) (by omega)

/-- The sum that signatures are checked with. -/
theorem sum_eq_of_stands {q : Point} {e : ZMod order} {a b : Scalar}
    (hp : (ofPoint p).Stands (multiples d)) (hq : (ofPoint q).Stands (multiples e))
    (h : residue a + residue b * d = e) :
    ((generator.multiple a.val).add (p.multiple b.val)).isNeutral = false ∧
      ((generator.multiple a.val).add (p.multiple b.val)).toPoint = q := by
  have hb : multiples (residue b * d) = b.val • multiples d := by
    rw [residue, ← nsmul_eq_mul, map_nsmul]
  have hsum := (stands_generator.multiple a.val).add (hp.multiple b.val)
  rw [← multiples_natCast, ← hb, ← map_add] at hsum
  obtain rfl := h
  have hne := ne_zero_of_stands hq
  exact ⟨Bool.eq_false_iff.2 (mt hsum.isNeutral_iff.1 hne),
    point_eq_of_stands (hsum.toPoint hne) hq⟩

end

/-! ## Points over an x -/

theorem Point.oddY_neg {p : Point} (h : p.y ≠ 0) :
    (Point.mk p.x (-p.y)).oddY = !p.oddY := by
  have hpos : 0 < p.y.val := Nat.pos_of_ne_zero fun hy => h (Fin.ext hy)
  have hlt := p.y.isLt
  have hneg : (-p.y).val = fieldPrime - p.y.val := by
    rw [Fin.val_neg, if_neg h]
  have hodd : fieldPrime % 2 = 1 := by decide
  rw [oddY, oddY, hneg, ← decide_not, decide_eq_decide]
  omega

theorem Point.lift?_onCurve {p : Point} (h : p.onCurve = true) :
    Point.lift? p.x p.oddY = some p := by
  have hsq : p.x * p.x * p.x + 7 = p.y * p.y := (of_decide_eq_true h).symm
  obtain ⟨y, hy, hroot⟩ := sqrt?_mul_self p.y
  have hparity : ((y.val % 2 = 1) = p.oddY) ↔ (Point.mk p.x y).oddY = p.oddY := by
    simp only [oddY, decide_eq_true_eq, eq_iff_iff, decide_eq_decide]
  simp only [lift?, hsq, hy, Option.map_some, hparity]
  by_cases heq : y = p.y
  · rw [heq, if_pos rfl]
  · obtain rfl := hroot.resolve_left heq
    have hne : p.y ≠ 0 := fun hzero => heq <| residue_injective <| by
      rw [residue_neg, hzero, residue_zero, neg_zero]
    rw [oddY_neg hne, if_neg (by simp), neg_neg]

end SporkNode.Curve
