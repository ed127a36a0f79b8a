import SporkNode.Proofs.Curve.Group
import SporkNode.Proofs.Signature.Scheme

/-!
The scheme over the curve keeps what signing relies on. A signature is one number of an equation
between the digest, the key and a nonce; the nonce's point, which the flags single out, gives the
key back, and the key in turn the nonce's point.
-/

namespace SporkNode.Signature.Ecdsa

open Curve Weighted

/-- The key and the nonce's point are multiples `d` and `k` of the generator. -/
structure Signs (key : Point) (digest : Hash) (sig : RawSignature) : Prop where
  inRange : sig.InRange
  nonce : ∃ (d k : ZMod order) (point : Point),
    (ofPoint key).Stands (multiples d) ∧ (ofPoint point).Stands (multiples k) ∧
    point.x.val = (if sig.reducedX then sig.r + order else sig.r) ∧ point.oddY = sig.oddY ∧
    k * sig.s = residue (scalarOf digest) + sig.r * d

variable {key : Point} {digest : Hash} {sig : RawSignature}

theorem Signs.reflected (h : Signs key digest sig) : Signs key digest sig.reflected := by
  obtain ⟨d, k, point, hkey, hpoint, hx, hodd, heq⟩ := h.nonce
  refine ⟨h.inRange.reflected, d, -k, ⟨point.x, -point.y⟩, hkey, ?_, hx, ?_, ?_⟩
  · rw [map_neg]
    exact hpoint.neg
  · rw [Point.oddY_neg (y_ne_zero_of_stands hpoint), hodd]
    rfl
  · show -k * ((order - sig.s : ℕ) : ZMod order) = _
    rw [Nat.cast_sub h.inRange.s_lt.le, ZMod.natCast_self, zero_sub, neg_mul_neg]
    exact heq

/-- Of two x that leave the same r, the flag tells which it was. -/
theorem x_eq_of_mod (x : Field) :
    x.val = if order ≤ x.val then x.val % order + order else x.val % order := by
  have hlt := x.isLt
  have hfield : fieldPrime < 2 * order := by decide
  split
  · rw [Nat.mod_eq_sub_mod (by assumption), Nat.mod_eq_of_lt (by omega)]
    omega
  · rw [Nat.mod_eq_of_lt (by omega)]

theorem sign_signs {k : Secret} (h : sign k digest = some sig) :
    Signs (publicPoint k) digest sig := by
  simp only [sign, Option.bind_eq_bind, Option.bind_eq_some_iff] at h
  obtain ⟨n, hn, h⟩ := h
  obtain ⟨hpos, hlt⟩ := nonce?_bounds hn
  split at h
  · cases h
  rename_i hne
  obtain ⟨hr, hs⟩ := not_or.1 hne
  obtain rfl := Option.some.inj h
  refine ⟨⟨Fin.pos_of_ne_zero hr, Fin.isLt _, Fin.pos_of_ne_zero hs, Fin.isLt _⟩, k.scalar, n, _,
    stands_toPoint_multiple k.pos k.lt_order, stands_toPoint_multiple hpos hlt, ?_, rfl, ?_⟩
  · simp only [decide_eq_true_eq]
    exact x_eq_of_mod _
  · have hn : (n : ZMod order) ≠ 0 := natCast_ne_zero hpos hlt
    dsimp only
    rw [← residue, ← residue]
    simp only [residue_mul, residue_add, residue_inverse_scalar, residue_ofNat,
      mul_inv_cancel_left₀ hn]

theorem verify_of_signs (h : Signs key digest sig) (hlow : sig.isLow = true) :
    verify key digest sig = true := by
  obtain ⟨d, k, point, hkey, hpoint, hx, hodd, heq⟩ := h.nonce
  have hs : (sig.s : ZMod order) ≠ 0 := natCast_ne_zero h.inRange.s_pos h.inRange.s_lt
  obtain ⟨hneutral, hsum⟩ := sum_eq_of_stands hkey hpoint
    (a := Scalar.inverse (Fin.ofNat order sig.s) * scalarOf digest)
    (b := Scalar.inverse (Fin.ofNat order sig.s) * Fin.ofNat order sig.r) (by
      simp only [residue_mul, residue_inverse_scalar, residue_ofNat]
      rw [mul_assoc, ← mul_add, ← heq, mul_comm k, inv_mul_cancel_left₀ hs])
  have hr : point.x.val % order = sig.r := by
    have hlt := h.inRange.r_lt
    rw [hx]
    split
    · rw [Nat.add_mod_right, Nat.mod_eq_of_lt hlt]
    · exact Nat.mod_eq_of_lt hlt
  have hhigh : isHigh sig.s = false := by
    have hle : sig.s ≤ order / 2 := of_decide_eq_true hlow
    exact decide_eq_false (by omega)
  simp only [verify, hneutral, hsum, hr, hhigh]
  rfl

theorem recover_of_signs (h : Signs key digest sig) (hlow : sig.isLow = true) :
    recover digest sig = some key := by
  have hverify := verify_of_signs h hlow
  obtain ⟨d, k, point, hkey, hpoint, hx, hodd, heq⟩ := h.nonce
  have hr : (sig.r : ZMod order) ≠ 0 := natCast_ne_zero h.inRange.r_pos h.inRange.r_lt
  have hnonce : nonceX? sig = some point.x := by
    unfold nonceX?
    dsimp only
    rw [← hx, if_pos point.x.isLt, Fin.ofNat_val_eq_self]
  have hlift : Point.lift? point.x sig.oddY = some point := by
    obtain ⟨hcurve, -⟩ := stands_ofPoint_iff.1 hpoint
    rw [← hodd]
    exact Point.lift?_onCurve (point.nonsingular_iff.1 hcurve)
  obtain ⟨hneutral, hsum⟩ := sum_eq_of_stands hpoint hkey
    (a := -(Scalar.inverse (Fin.ofNat order sig.r) * scalarOf digest))
    (b := Scalar.inverse (Fin.ofNat order sig.r) * Fin.ofNat order sig.s) (by
      simp only [residue_neg, residue_mul, residue_inverse_scalar, residue_ofNat]
      rw [mul_assoc, mul_comm (sig.s : ZMod order), heq, mul_add, neg_add_cancel_left,
        inv_mul_cancel_left₀ hr])
  simp only [recover, hnonce, Option.bind_eq_bind, Option.bind_some, hlift, hneutral, hsum,
    hverify]
  rfl

theorem lawful : Scheme.Lawful Signs :=
  ⟨Signs.inRange, Signs.reflected, sign_signs, recover_of_signs⟩

end SporkNode.Signature.Ecdsa
