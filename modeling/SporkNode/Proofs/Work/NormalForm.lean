import SporkNode.Proofs.Work.ProofCheck

/-!
The normal form of compact words. A number has several words; of these the one that is written has
the least exponent whose mantissa leaves the place of the sign free. So it holds as many digits of
the number as any word can, no two numbers share it, and words of that form are ordered as the
numbers they stand for.
-/

namespace SporkNode.Work.CompactTarget

/-! ## Sizes and digits -/

/-- Digits that fill the mantissa from the front and of which none stands right of the point. -/
structure Normal (size digits : Nat) : Prop where
  size_lt : size < 256
  digits_lt : digits < 0x800000
  full : digits = 0 ∧ size = 0 ∨ 0x8000 ≤ digits
  whole : placed size digits * 256 ^ 3 = digits * 256 ^ size

theorem placed_mul {size digits : Nat} (h : 3 ≤ size ∨ 256 ^ (3 - size) ∣ digits) :
    placed size digits * 256 ^ 3 = digits * 256 ^ size := by
  unfold placed
  split
  · rename_i hsize
    have hdvd : 256 ^ (3 - size) ∣ digits := by
      rcases h with h | h
      · rw [Nat.le_antisymm hsize h]
        exact Nat.one_dvd digits
      · exact h
    have hsplit : 256 ^ 3 = 256 ^ (3 - size) * 256 ^ size := by
      rw [← Nat.pow_add]
      congr 1
      omega
    rw [hsplit, ← Nat.mul_assoc, Nat.div_mul_cancel hdvd]
  · rw [Nat.mul_assoc, ← Nat.pow_add]
    congr 2
    omega

/-- What is written is in normal form, whatever the sign. -/
theorem encode_normal (t : Target) :
    ∃ size digits, Normal size digits ∧
      ∀ negative, encode t negative = ofParts size digits negative := by
  have hsize := byteLength_le t
  have hlead := leading_lt t
  by_cases hbig : 0x800000 ≤ leading t
  · refine ⟨byteLength t + 1, leading t / 256,
      ⟨by omega, by omega, .inr (by omega), placed_mul ?_⟩, fun negative => ?_⟩
    · rcases Nat.lt_or_ge (byteLength t + 1) 3 with hshort | hlong
      · right
        have hpow : 256 ^ (3 - byteLength t) = 256 ^ (3 - (byteLength t + 1)) * 256 := by
          rw [← Nat.pow_succ]
          congr 1
          omega
        rw [leading, if_pos (by omega), hpow, ← Nat.mul_assoc, Nat.mul_div_cancel _ (by decide)]
        exact Nat.dvd_mul_left _ _
      · exact .inl hlong
    · rw [encode_eq, if_pos hbig]
  · refine ⟨byteLength t, leading t, ⟨by omega, by omega, ?_, placed_mul ?_⟩, fun negative => ?_⟩
    · by_cases hzero : byteLength t = 0
      · left
        have htarget := toNat_lt_byteLength t
        rw [hzero, Nat.pow_zero, Nat.lt_one_iff] at htarget
        refine ⟨?_, hzero⟩
        rw [leading, htarget]
        split <;> simp
      · have := leading_ge (t := t) (by omega)
        exact .inr (by omega)
    · rcases Nat.lt_or_ge (byteLength t) 3 with hshort | hlong
      · right
        rw [leading, if_pos (Nat.le_of_lt hshort)]
        exact Nat.dvd_mul_left _ _
      · exact .inl hlong
    · rw [encode_eq, if_neg hbig]

/-! ## Order -/

section

variable {size digits size' digits' : Nat}

theorem Normal.placed_eq_zero_iff (h : Normal size digits) :
    placed size digits = 0 ↔ digits = 0 := by
  have hpow : 256 ^ size ≠ 0 := Nat.ne_of_gt (Nat.pow_pos (by decide))
  constructor
  · intro hzero
    have hproduct : digits * 256 ^ size = 0 := by rw [← h.whole, hzero, Nat.zero_mul]
    exact (Nat.mul_eq_zero.1 hproduct).resolve_right hpow
  · intro hzero
    have hproduct : placed size digits * 256 ^ 3 = 0 := by rw [h.whole, hzero, Nat.zero_mul]
    exact (Nat.mul_eq_zero.1 hproduct).resolve_right (by decide)

/-- A byte more outweighs all digits. -/
theorem Normal.placed_lt (h : Normal size digits) (h' : Normal size' digits') (hlt : size < size') :
    placed size digits < placed size' digits' := by
  have hfull : 0x8000 ≤ digits' := by
    have := h'.full
    omega
  have hpow : 256 ^ (size + 1) ≤ 256 ^ size' := Nat.pow_le_pow_right (by decide) hlt
  apply Nat.lt_of_mul_lt_mul_right (a := 256 ^ 3)
  rw [h.whole, h'.whole]
  calc
    digits * 256 ^ size < 0x800000 * 256 ^ size :=
      Nat.mul_lt_mul_of_pos_right h.digits_lt (Nat.pow_pos (by decide))
    _ = 0x8000 * 256 ^ (size + 1) := by rw [Nat.pow_succ']; omega
    _ ≤ digits' * 256 ^ size' := Nat.mul_le_mul hfull hpow

theorem Normal.placed_le_iff (h : Normal size digits) (h' : Normal size digits') :
    placed size digits ≤ placed size digits' ↔ digits ≤ digits' := by
  have hbytes : 0 < 256 ^ 3 := by decide
  have hpow : 0 < 256 ^ size := Nat.pow_pos (by decide)
  rw [← Nat.mul_le_mul_right_iff hbytes, h.whole, h'.whole, Nat.mul_le_mul_right_iff hpow]

/-- In normal form the exponent stands before the digits, and so it weighs. -/
theorem Normal.word_le_iff (h : Normal size digits) (h' : Normal size' digits') :
    (ofParts size digits false).word ≤ (ofParts size' digits' false).word ↔
      placed size digits ≤ placed size' digits' := by
  have hd := h.digits_lt
  have hd' := h'.digits_lt
  simp only [UInt32.le_iff_toNat_le, toNat_word_ofParts h.size_lt hd,
    toNat_word_ofParts h'.size_lt hd', Bool.false_and, Bool.false_eq_true, if_false]
  rcases Nat.lt_trichotomy size size' with hlt | rfl | hgt
  · have := h.placed_lt h' hlt
    omega
  · rw [h.placed_le_iff h']
    omega
  · have := h'.placed_lt h hgt
    omega

end

theorem word_ofTarget_le_iff (x y : Target) :
    (ofTarget x).word ≤ (ofTarget y).word ↔ (ofTarget x).toTarget ≤ (ofTarget y).toTarget := by
  obtain ⟨size, digits, h, hparts⟩ := encode_normal x
  obtain ⟨size', digits', h', hparts'⟩ := encode_normal y
  rw [BitVec.le_def, toTarget, toTarget, toNat_decode_ofTarget, toNat_decode_ofTarget, ofTarget,
    ofTarget, hparts, hparts', h.word_le_iff h', magnitude_ofParts h.size_lt h.digits_lt,
    magnitude_ofParts h'.size_lt h'.digits_lt]

/-! ## Reading what was written -/

theorem toTarget_ofTarget_eq_zero_iff (t : Target) : (ofTarget t).toTarget = 0 ↔ t = 0 := by
  constructor
  · intro h
    by_cases hzero : t = 0
    · exact hzero
    · exact absurd h (decode_ofTarget_ne_zero hzero)
  · rintro rfl
    decide

/-- The sign changes nothing but the flag, and zero has none. -/
theorem decode_encode (t : Target) (negative : Bool) :
    (encode t negative).decode = ⟨(ofTarget t).toTarget, negative && t ≠ 0, false⟩ := by
  obtain ⟨size, digits, h, hparts⟩ := encode_normal t
  have hmag : ∀ negative, (encode t negative).magnitude = placed size digits := by
    intro negative
    rw [hparts, magnitude_ofParts h.size_lt h.digits_lt]
  have hsame : (encode t negative).magnitude = (ofTarget t).magnitude := by
    rw [ofTarget, hmag, hmag]
  have htarget : (encode t negative).decode.target = (ofTarget t).toTarget := by
    apply BitVec.eq_of_toNat_eq
    rw [toTarget, toNat_decode_target, toNat_decode_target, hsame]
  have hoverflow : (encode t negative).decode.overflow = false := by
    rw [← Bool.not_eq_true, decode_overflow, hsame]
    exact Nat.not_le.2 (magnitude_ofTarget_lt t)
  have hzero : (encode t negative).digits = 0 ↔ t = 0 := by
    rw [digits_eq_zero_iff, hsame, ← toTarget_ofTarget_eq_zero_iff, toTarget,
      ← toNat_decode_ofTarget]
    exact ⟨fun h => BitVec.eq_of_toNat_eq h, fun h => congrArg BitVec.toNat h⟩
  have hdigits : digits = 0 ↔ t = 0 := by
    rw [← h.placed_eq_zero_iff, ← hmag negative, ← digits_eq_zero_iff, hzero]
  have hnegative : (encode t negative).decode.negative = (negative && t ≠ 0) := by
    have hflag : (encode t negative).decode.negative =
        ((encode t negative).digits ≠ 0 && (encode t negative).signBit) := rfl
    rw [hflag, hparts, signBit_ofParts h.size_lt h.digits_lt, ← hparts]
    by_cases ht : t = 0 <;> simp [hzero, hdigits, ht]
  rw [← htarget, ← hoverflow, ← hnegative]

/-! ## The greatest below a target -/

/-- A target that some word stands for. -/
def Readable (t : Target) : Prop := ∃ c : CompactTarget, c.decode = ⟨t, false, false⟩

theorem readable_ofTarget (t : Target) : Readable (ofTarget t).toTarget :=
  ⟨ofTarget t, by rw [ofTarget, decode_encode, Bool.false_and]; rfl⟩

theorem Readable.le_ofTarget {u t : Target} (h : Readable u) (hle : u ≤ t) :
    u ≤ (ofTarget t).toTarget := by
  obtain ⟨c, hc⟩ := h
  have hfits : c.decode.overflow = false := by rw [hc]
  have hread : c.decode.target = u := by rw [hc]
  rw [← hread] at hle ⊢
  exact le_decode_ofTarget hfits hle

/-- A target that a word stands for is read back as it was written. -/
theorem toTarget_ofTarget_eq_iff (t : Target) : (ofTarget t).toTarget = t ↔ Readable t := by
  constructor
  · intro h
    rw [← h]
    exact readable_ofTarget t
  · intro h
    exact BitVec.le_antisymm (decode_ofTarget_le t) (h.le_ofTarget (BitVec.le_refl t))

theorem readable_of_placed {t : Target} {size digits : Nat} (hsize : size < 256)
    (hdigits : digits < 0x800000) (h : t.toNat = placed size digits) : Readable t := by
  have hlt := Target.toNat_lt t
  have hmag : (ofParts size digits false).magnitude = t.toNat := by
    rw [magnitude_ofParts hsize hdigits, h]
  have htarget : (ofParts size digits false).decode.target = t := by
    apply BitVec.eq_of_toNat_eq
    rw [toNat_decode_target, hmag, Nat.mod_eq_of_lt hlt]
  have hnegative : (ofParts size digits false).decode.negative = false := by
    apply decode_negative_of_signBit
    rw [signBit_ofParts hsize hdigits, Bool.false_and]
  have hoverflow : (ofParts size digits false).decode.overflow = false := by
    rw [← Bool.not_eq_true, decode_overflow, hmag]
    exact Nat.not_le.2 hlt
  refine ⟨ofParts size digits false, ?_⟩
  calc
    (ofParts size digits false).decode =
        ⟨(ofParts size digits false).decode.target, (ofParts size digits false).decode.negative,
          (ofParts size digits false).decode.overflow⟩ := rfl
    _ = ⟨t, false, false⟩ := by rw [htarget, hnegative, hoverflow]

theorem placed_add_three (n digits : Nat) : placed (n + 3) digits = digits * 256 ^ n := by
  unfold placed
  split
  · obtain rfl : n = 0 := by omega
    rw [Nat.zero_add, Nat.sub_self, Nat.pow_zero, Nat.div_one, Nat.mul_one]
  · rw [Nat.add_sub_cancel]

/-- Digits moved by whole bytes and cut to 256 bits: what is cut is the upper digits, or all. -/
theorem readable_of_moved {t : Target} {digits n : Nat} (hdigits : digits < 2 ^ 23)
    (h : t.toNat = digits * 256 ^ n % 2 ^ 256) : Readable t := by
  rcases Nat.lt_or_ge n 32 with hn | hn
  · have hsplit : 2 ^ 256 = 256 ^ (32 - n) * 256 ^ n := by
      rw [← Nat.pow_add, Nat.sub_add_cancel (Nat.le_of_lt hn)]
      rfl
    have hfewer : digits % 256 ^ (32 - n) < 0x800000 :=
      Nat.lt_of_le_of_lt (Nat.mod_le _ _) hdigits
    apply readable_of_placed (by omega : n + 3 < 256) hfewer
    rw [placed_add_three, h, hsplit, Nat.mul_mod_mul_right]
  · have hdvd : 256 ^ 32 ∣ digits * 256 ^ n :=
      Nat.dvd_mul_left_of_dvd (Nat.pow_dvd_pow 256 hn) digits
    apply readable_of_placed (by decide : 3 < 256) (by decide : 0 < 0x800000)
    rw [h]
    exact Nat.mod_eq_zero_of_dvd hdvd

/-- Of a word that overflows or is negative too, the target has a word that does neither. -/
theorem readable_toTarget (c : CompactTarget) : Readable c.toTarget := by
  obtain ⟨digits, n, hmag, hdigits⟩ := magnitude_eq_moved c
  apply readable_of_moved hdigits
  rw [← hmag]
  exact toNat_decode_target c

/-- A target that a word stands for parts what is written below it from the rest. -/
theorem Readable.ofTarget_ne {t x y : Target} (h : Readable t) (hbelow : x < t) (habove : t ≤ y) :
    ofTarget x ≠ ofTarget y := by
  intro hsame
  have hread := h.le_ofTarget habove
  rw [← hsame] at hread
  exact BitVec.not_lt.2 (BitVec.le_trans hread (decode_ofTarget_le x)) hbelow

/-- Of all targets that a word stands for, the one written for `x` is the greatest not above it:
`x` itself if there is a word for it, zero only for zero, and short of `x` by less than one part in
`2 ^ 15`. Words are ordered as the targets read from them, so neither order turns that of the
targets they were written for. -/
theorem ofTarget_greatest (x y : Target) :
    (ofTarget x).decode.negative = false ∧ (ofTarget x).decode.overflow = false ∧
    (ofTarget x).toTarget ≤ x ∧
    (∀ c : CompactTarget, c.decode.negative = false → c.decode.overflow = false →
      c.decode.target ≤ x → c.decode.target ≤ (ofTarget x).toTarget) ∧
    ((ofTarget x).toTarget = x ↔ Readable x) ∧
    ((ofTarget x).toTarget = 0 ↔ x = 0) ∧
    (encode x true).decode = ⟨(ofTarget x).toTarget, x ≠ 0, false⟩ ∧
    (x ≠ 0 → (x.toNat - (ofTarget x).toTarget.toNat) * 2 ^ 15 < x.toNat) ∧
    ((ofTarget x).word ≤ (ofTarget y).word ↔ (ofTarget x).toTarget ≤ (ofTarget y).toTarget) ∧
    (x ≤ y → (ofTarget x).word ≤ (ofTarget y).word ∧
      (ofTarget x).toTarget ≤ (ofTarget y).toTarget) := by
  have hwords := word_ofTarget_le_iff x y
  refine ⟨decode_ofTarget_negative x, decode_ofTarget_overflow x, decode_ofTarget_le x, ?_,
    toTarget_ofTarget_eq_iff x, toTarget_ofTarget_eq_zero_iff x, ?_, ?_, hwords, ?_⟩
  · intro c _ hfits hle
    exact le_decode_ofTarget hfits hle
  · rw [decode_encode, Bool.true_and]
  · intro hx
    rw [toTarget, toNat_decode_ofTarget]
    exact loss_ofTarget_lt hx
  · intro hle
    have hread := decode_ofTarget_mono hle
    exact ⟨hwords.2 hread, hread⟩

/-- Three bytes of which the first would take the place of the sign, so that the last is lost. -/
theorem ofTarget_greatest_pushed :
    ofTarget 0x80ffff = ⟨0x040080ff⟩ ∧ (0x80ffff : Target) ≠ 0 ∧ (0x80ffff : Target) ≤ 0x810000 ∧
    (0x80ffff - (ofTarget 0x80ffff).toTarget.toNat) * 2 ^ 15 < 0x80ffff ∧
    (ofTarget 0x80ffff).word ≤ (ofTarget 0x810000).word := by
  obtain ⟨-, -, -, -, -, -, -, hloss, -, hmono⟩ := ofTarget_greatest 0x80ffff 0x810000
  exact ⟨by decide, by decide, by decide, hloss (by decide), (hmono (by decide)).1⟩

/-! ## Every word and its normal form -/

/-- What is read from a word, written again. -/
def rewritten (c : CompactTarget) : CompactTarget := encode c.decode.target c.decode.negative

theorem decode_negative_iff (c : CompactTarget) :
    c.decode.negative = true ↔ c.signBit = true ∧ c.mantissa / 256 ^ (3 - c.exponent) ≠ 0 := by
  have hdigits : c.digits = c.mantissa / 256 ^ (3 - c.exponent) := by
    rcases Nat.lt_or_ge 3 c.exponent with h | h
    · rw [digits_of_lt h, Nat.sub_eq_zero_of_le (Nat.le_of_lt h), Nat.pow_zero, Nat.div_one]
    · rw [digits_of_le h, magnitude, placed, if_pos h]
  rw [← hdigits, and_comm]
  simp [decode]

theorem target_ne_zero_of_negative {c : CompactTarget} (hfits : c.decode.overflow = false)
    (h : c.decode.negative = true) : c.decode.target ≠ 0 := by
  rw [← Bool.not_eq_true, decode_overflow, Nat.not_le] at hfits
  have hvalue := c.decode_negative.1 h
  have habs := c.natAbs_value
  rw [← Target.toNat_pos, toNat_decode_target, Nat.mod_eq_of_lt hfits]
  omega

theorem decode_rewritten {c : CompactTarget} (hfits : c.decode.overflow = false) :
    c.rewritten.decode = c.decode := by
  have hsame : (ofTarget c.decode.target).toTarget = c.decode.target :=
    BitVec.le_antisymm (decode_ofTarget_le _) (le_decode_ofTarget hfits (BitVec.le_refl _))
  have hflag : (c.decode.negative && c.decode.target ≠ 0) = c.decode.negative := by
    cases hnegative : c.decode.negative with
    | false => rfl
    | true => simpa using target_ne_zero_of_negative hfits hnegative
  rw [rewritten, decode_encode, hsame, hflag, ← hfits]

/-- Reading is exact but for the bits that do not fit, and flags these and the sign. A word that
fits has a normal form, which is read as the word itself is and is its own normal form. -/
theorem decode_exact_rewritten (c : CompactTarget) :
    c.decode.target.toNat = c.magnitude % 2 ^ 256 ∧
    (c.decode.overflow = true ↔ 2 ^ 256 ≤ c.magnitude) ∧
    (c.decode.negative = true ↔ c.signBit = true ∧ c.mantissa / 256 ^ (3 - c.exponent) ≠ 0) ∧
    (c.decode.overflow = false →
      c.rewritten.decode = c.decode ∧ c.rewritten.rewritten = c.rewritten) := by
  refine ⟨toNat_decode_target c, decode_overflow c, decode_negative_iff c, fun hfits => ?_⟩
  have hread := decode_rewritten hfits
  refine ⟨hread, ?_⟩
  rw [rewritten, hread, rewritten]

/-- A negative word with two zeros in front of its digits. -/
theorem decode_exact_rewritten_padded :
    (⟨0x05800012⟩ : CompactTarget).decode = ⟨0x120000, true, false⟩ ∧
    (⟨0x05800012⟩ : CompactTarget).rewritten = ⟨0x03920000⟩ ∧
    (⟨0x03920000⟩ : CompactTarget).decode = ⟨0x120000, true, false⟩ ∧
    (⟨0x03920000⟩ : CompactTarget).rewritten = ⟨0x03920000⟩ := by
  have hread : (⟨0x05800012⟩ : CompactTarget).decode = ⟨0x120000, true, false⟩ := by decide
  have hnormal : (⟨0x05800012⟩ : CompactTarget).rewritten = ⟨0x03920000⟩ := by decide
  obtain ⟨-, -, -, h⟩ := decode_exact_rewritten ⟨0x05800012⟩
  obtain ⟨hsame, hfixed⟩ := h (by rw [hread])
  rw [hnormal] at hsame hfixed
  exact ⟨hread, hnormal, hsame.trans hread, hfixed⟩

end SporkNode.Work.CompactTarget
