import SporkNode.Proofs.Results
import SporkNode.Work.Signed

/-!
Computations on signed numbers that may overflow. Short of an overflow it makes no difference what
becomes of one. Where overflows wrap, a number is given in any case; it may be another one, but it
fits.
-/

namespace SporkNode.Work

variable {α β : Type}

/-! ## Numbers -/

theorem signedSize_eq : signedSize = 0x8000000000000000 := rfl

theorem natCast_wordSize : (UInt64.size : Int) = 0x10000000000000000 := rfl

theorem fitsSigned_of_pos {n : Int} (hpos : 0 < n) (h : n < signedSize) : FitsSigned n := by
  have hsigned := signedSize_eq
  exact ⟨by omega, h⟩

namespace Overflow

variable {o : Overflow} {n m : Int}

theorem signed_of_fits (h : FitsSigned n) (o : Overflow) : o.signed n = .ok n := if_pos h

/-- Whatever becomes of an overflow, a number that is given fits. -/
theorem fits_of_signed (h : o.signed n = .ok m) : FitsSigned m := by
  unfold signed at h
  split at h
  · cases h
    assumption
  · cases o with
    | faults => cases h
    | wraps =>
      cases h
      have hlow := Int.le_bmod (x := n) (by decide : 0 < UInt64.size)
      have hhigh := Int.bmod_lt (x := n) (by decide : 0 < UInt64.size)
      rw [natCast_wordSize] at hlow hhigh
      unfold FitsSigned
      rw [signedSize_eq]
      omega

/-- What is given differs from the number by a multiple of the size of a word. -/
theorem emod_of_signed (h : o.signed n = .ok m) : m % UInt64.size = n % UInt64.size := by
  unfold signed at h
  split at h
  · cases h
    rfl
  · cases o with
    | faults => cases h
    | wraps =>
      cases h
      exact Int.bmod_emod

theorem wraps_signed (n : Int) : ∃ m, wraps.signed n = .ok m := by
  unfold signed
  split
  · exact ⟨_, rfl⟩
  · exact ⟨_, rfl⟩

end Overflow

/-! ## Computations -/

/-- Short of an overflow a computation ends in an answer of which `P` holds, the same whatever
becomes of overflows. -/
def Settles (x : Overflow → Except WorkError α) (P : α → Prop) : Prop :=
  x .faults = .error (.undefined .overflow) ∨ ∃ a, P a ∧ ∀ o, x o = .ok a

/-- Where overflows wrap a computation ends in an answer of which `P` holds, and where they are
faults in the same or in an overflow. -/
def Answers (x : Overflow → Except WorkError α) (P : α → Prop) : Prop :=
  ∃ a, P a ∧ x .wraps = .ok a ∧ (x .faults = .error (.undefined .overflow) ∨ x .faults = .ok a)

section

variable {x : Overflow → Except WorkError α} {f : α → Overflow → Except WorkError β}
  {P : α → Prop} {Q : β → Prop}

theorem Settles.ok {a : α} (h : P a) : Settles (fun _ => .ok a) P := .inr ⟨a, h, fun _ => rfl⟩

theorem Settles.bind (h : Settles x P) (hf : ∀ a, P a → Settles (f a) Q) :
    Settles (fun o => x o >>= fun a => f a o) Q := by
  rcases h with hover | ⟨a, ha, hx⟩
  · left
    dsimp only
    rw [hover]
    rfl
  · simp only [hx, ok_bind]
    exact hf a ha

theorem Settles.map (h : Settles x P) {f : α → β} (hf : ∀ a, P a → Q (f a)) :
    Settles (fun o => f <$> x o) Q := by
  rcases h with hover | ⟨a, ha, hx⟩
  · left
    dsimp only
    rw [hover]
    rfl
  · right
    refine ⟨f a, hf a ha, fun o => ?_⟩
    dsimp only
    rw [hx]
    rfl

theorem Settles.signed (n : Int) :
    Settles (fun o => o.signed n) (fun m => m = n ∧ FitsSigned n) := by
  by_cases h : FitsSigned n
  · exact .inr ⟨n, ⟨rfl, h⟩, Overflow.signed_of_fits h⟩
  · exact .inl (if_neg h)

/-- Past a check the number is what it should be, and fits. -/
theorem Settles.signed_bind {n : Int} {f : Int → Overflow → Except WorkError β}
    (h : FitsSigned n → Settles (f n) Q) :
    Settles (fun o => o.signed n >>= fun m => f m o) Q := by
  apply (Settles.signed n).bind
  rintro m ⟨rfl, hfits⟩
  exact h hfits

theorem Settles.imp (h : Settles x P) {P' : α → Prop} (hP : ∀ a, P a → P' a) : Settles x P' :=
  h.imp_right fun ⟨a, ha, hx⟩ => ⟨a, hP a ha, hx⟩

theorem Answers.imp (h : Answers x P) {P' : α → Prop} (hP : ∀ a, P a → P' a) : Answers x P' := by
  obtain ⟨a, ha, hwraps, hfaults⟩ := h
  exact ⟨a, hP a ha, hwraps, hfaults⟩

theorem Settles.of_ok (h : Settles x fun _ => True) (hP : ∀ o a, x o = .ok a → P a) :
    Settles x P :=
  h.imp_right fun ⟨a, _, hx⟩ => ⟨a, hP .wraps a (hx .wraps), hx⟩

theorem Answers.of_faults {a : α} (h : Answers x P) (ha : x .faults = .ok a) : P a := by
  obtain ⟨b, hP, -, hover | hx⟩ := h
  · cases hover.symm.trans ha
  · cases hx.symm.trans ha
    exact hP

/-- What wraps into an answer answers, if it is settled short of an overflow. -/
theorem Settles.answers (h : Settles x fun _ => True) {a : α} (ha : x .wraps = .ok a) (hP : P a) :
    Answers x P := by
  refine ⟨a, hP, ha, h.imp_right ?_⟩
  rintro ⟨b, -, hx⟩
  rw [hx, ← ha, hx]

end

end SporkNode.Work
