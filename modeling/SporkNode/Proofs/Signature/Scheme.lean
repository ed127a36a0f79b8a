import SporkNode.Signature.Compact

/-!
What signing relies on. Of the two signatures that differ in the sign of s, the one with the lower s
is handed out, and its flags are those of the reflected nonce point when s was turned.
-/

namespace SporkNode.Signature

open Curve

namespace RawSignature

/-- Both numbers are scalars, and not zero. -/
structure InRange (sig : RawSignature) : Prop where
  r_pos : 0 < sig.r
  r_lt : sig.r < order
  s_pos : 0 < sig.s
  s_lt : sig.s < order

/-- The signature with the other value of s, whose nonce point is the reflected one. -/
def reflected (sig : RawSignature) : RawSignature :=
  ⟨sig.r, order - sig.s, !sig.oddY, sig.reducedX⟩

theorem lower_eq (sig : RawSignature) :
    sig.lower = if sig.isLow then sig else sig.reflected := rfl

variable {sig : RawSignature}

theorem InRange.reflected (h : sig.InRange) : sig.reflected.InRange := by
  obtain ⟨hr, hr', hs, hs'⟩ := h
  exact ⟨hr, hr', by dsimp only [RawSignature.reflected]; omega,
    by dsimp only [RawSignature.reflected]; omega⟩

/-- The order is odd, so one of the two values of s is in the lower half. -/
theorem isLow_lower (h : sig.InRange) : sig.lower.isLow = true := by
  rw [lower_eq]
  split
  · assumption
  · rename_i hhigh
    simp only [isLow, decide_eq_true_eq] at hhigh
    have hodd : order = 2 * (order / 2) + 1 := by decide
    have hs := h.s_lt
    exact decide_eq_true (show order - sig.s ≤ order / 2 by omega)

end RawSignature

/-- What signing relies on. `Signs key digest sig` is to say that `sig` is a signature of `digest`
under `key` with the flags of its nonce point. Recovery may take low ones only. -/
structure Scheme.Lawful [Scheme] (Signs : Point → Hash → RawSignature → Prop) : Prop where
  inRange : ∀ {key digest sig}, Signs key digest sig → sig.InRange
  reflected : ∀ {key digest sig}, Signs key digest sig → Signs key digest sig.reflected
  sign : ∀ {k : Secret} {digest sig}, Scheme.sign k digest = some sig →
    Signs (Scheme.publicPoint k) digest sig
  recover : ∀ {key digest sig}, Signs key digest sig → sig.isLow = true →
    Scheme.recover digest sig = some key

end SporkNode.Signature
