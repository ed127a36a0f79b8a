import SporkNode.Proofs.Work.Target
import SporkNode.Work.CompactTarget

/-!
The number behind a compact word. `magnitude` is what the word stands for with no bound on its
size; reading a word cuts it to 256 bits and flags the cut. Writing a target keeps its leading
digits, so reading back what was written raises no flag and gives at most the target.
-/

namespace SporkNode.Work.CompactTarget

/-- Digits that stand `size - 3` bytes left of the point. -/
def placed (size digits : Nat) : Nat :=
  if size ≤ 3 then digits / 256 ^ (3 - size) else digits * 256 ^ (size - 3)

/-- The number that a word stands for, without its sign. -/
def magnitude (c : CompactTarget) : Nat := placed c.exponent c.mantissa

theorem mantissa_lt (c : CompactTarget) : c.mantissa < 0x800000 := Nat.mod_lt _ (by decide)

private theorem two_pow_bytes (n : Nat) : 2 ^ (8 * n) = 256 ^ n := Nat.pow_mul 2 8 n

/-! ## Reading -/

theorem digits_of_le {c : CompactTarget} (h : c.exponent ≤ 3) : c.digits = c.magnitude := by
  rw [digits, magnitude, placed, if_pos h, if_pos h, Nat.shiftRight_eq_div_pow, two_pow_bytes]

theorem digits_of_lt {c : CompactTarget} (h : 3 < c.exponent) : c.digits = c.mantissa := by
  rw [digits, if_neg (Nat.not_le.2 h)]

/-- What is read is the number cut to 256 bits. -/
theorem toNat_decode_target (c : CompactTarget) :
    c.decode.target.toNat = c.magnitude % 2 ^ 256 := by
  by_cases h : c.exponent ≤ 3
  · simp only [decode, if_pos h, digits_of_le h, Target.toNat_ofNat]
  · simp only [decode, if_neg h, digits_of_lt (Nat.not_le.1 h), Target.toNat_shiftLeft,
      Target.toNat_ofNat, two_pow_bytes]
    rw [magnitude, placed, if_neg h, Nat.mod_mul_mod]

/-- A word of at most 32 bytes fits, whatever its digits. -/
theorem magnitude_lt_of_exponent_le {c : CompactTarget} (h : c.exponent ≤ 32) :
    c.magnitude < 2 ^ 256 := by
  have hm := mantissa_lt c
  unfold magnitude placed
  split
  · have := Nat.div_le_self c.mantissa (256 ^ (3 - c.exponent))
    omega
  · have hp : 256 ^ (c.exponent - 3) ≤ 256 ^ 29 := Nat.pow_le_pow_right (by decide) (by omega)
    calc
      _ ≤ 0x800000 * 256 ^ 29 := Nat.mul_le_mul (Nat.le_of_lt hm) hp
      _ < 2 ^ 256 := by decide

/-- The flag goes up exactly when the number does not fit in 256 bits. -/
theorem decode_overflow (c : CompactTarget) :
    c.decode.overflow = true ↔ 2 ^ 256 ≤ c.magnitude := by
  have hm := mantissa_lt c
  by_cases h : c.exponent ≤ 32
  · have hfit := magnitude_lt_of_exponent_le h
    simp only [decode, Bool.and_eq_true, Bool.or_eq_true, decide_eq_true_eq]
    omega
  · have hd := digits_of_lt (c := c) (by omega)
    have hmag : c.magnitude = c.mantissa * 256 ^ (c.exponent - 3) := by
      rw [magnitude, placed, if_neg (by omega)]
    simp only [decode, hd, hmag, Bool.and_eq_true, Bool.or_eq_true, decide_eq_true_eq]
    -- past 32 bytes each further byte of the exponent leaves one byte less for the mantissa
    rcases (by omega : c.exponent = 33 ∨ c.exponent = 34 ∨ 35 ≤ c.exponent) with he | he | he
    · rw [he]
      omega
    · rw [he]
      omega
    · have hp : 256 ^ 32 ≤ 256 ^ (c.exponent - 3) := Nat.pow_le_pow_right (by decide) (by omega)
      constructor
      · rintro ⟨hne, -⟩
        have hone : 1 ≤ c.mantissa := Nat.pos_of_ne_zero hne
        calc
          2 ^ 256 = 1 * 256 ^ 32 := by decide
          _ ≤ _ := Nat.mul_le_mul hone hp
      · intro hle
        refine ⟨?_, Or.inl (Or.inl (by omega))⟩
        intro h0
        rw [h0, Nat.zero_mul] at hle
        omega

theorem decode_negative_of_signBit {c : CompactTarget} (h : c.signBit = false) :
    c.decode.negative = false := by
  simp only [decode, h, Bool.and_false]

/-! ## Writing -/

/-- The mantissa has no room for a digit where the sign stands. -/
theorem toNat_word_ofParts {size digits : Nat} (hs : size < 256) (hd : digits < 0x800000)
    (negative : Bool) :
    (ofParts size digits negative).word.toNat =
      size * 0x1000000 + (if negative && digits ≠ 0 then 0x800000 else 0) + digits := by
  simp only [ofParts, UInt32.toNat_ofNat']
  split <;> omega

theorem exponent_ofParts {size digits : Nat} (hs : size < 256) (hd : digits < 0x800000)
    (negative : Bool) : (ofParts size digits negative).exponent = size := by
  rw [exponent, toNat_word_ofParts hs hd]
  split <;> omega

theorem mantissa_ofParts {size digits : Nat} (hs : size < 256) (hd : digits < 0x800000)
    (negative : Bool) : (ofParts size digits negative).mantissa = digits := by
  rw [mantissa, toNat_word_ofParts hs hd]
  split <;> omega

theorem signBit_ofParts {size digits : Nat} (hs : size < 256) (hd : digits < 0x800000)
    (negative : Bool) : (ofParts size digits negative).signBit = (negative && digits ≠ 0) := by
  rw [signBit, toNat_word_ofParts hs hd]
  cases hsign : (negative && digits ≠ 0) with
  | false => simp only [Bool.false_eq_true, ↓reduceIte, decide_eq_false_iff_not]; omega
  | true => simp only [↓reduceIte, decide_eq_true_eq]; omega

theorem magnitude_ofParts {size digits : Nat} (hs : size < 256) (hd : digits < 0x800000)
    (negative : Bool) : (ofParts size digits negative).magnitude = placed size digits := by
  rw [magnitude, exponent_ofParts hs hd, mantissa_ofParts hs hd]

def byteLength (t : Target) : Nat := (t.bitLength + 7) / 8

/-- The three leading bytes of a target, filled up with zeros on the right. -/
def leading (t : Target) : Nat :=
  if byteLength t ≤ 3 then t.toNat * 256 ^ (3 - byteLength t)
  else t.toNat / 256 ^ (byteLength t - 3)

theorem encode_eq (t : Target) (negative : Bool) :
    encode t negative =
      if 0x800000 ≤ leading t then ofParts (byteLength t + 1) (leading t / 256) negative
      else ofParts (byteLength t) (leading t) negative := by
  have hd : leading t =
      if byteLength t ≤ 3 then t.toNat <<< (8 * (3 - byteLength t))
      else (t.shiftRight (8 * (byteLength t - 3))).toNat := by
    rw [leading, Nat.shiftLeft_eq, two_pow_bytes, Target.toNat_shiftRight, two_pow_bytes]
  rw [hd]
  rfl

theorem byteLength_le (t : Target) : byteLength t ≤ 32 := by
  have := Target.bitLength_le t
  unfold byteLength
  omega

theorem toNat_lt_byteLength (t : Target) : t.toNat < 256 ^ byteLength t := by
  have hp : 2 ^ t.bitLength ≤ 2 ^ (8 * byteLength t) := by
    apply Nat.pow_le_pow_right (by decide)
    unfold byteLength
    omega
  rw [two_pow_bytes] at hp
  exact Nat.lt_of_lt_of_le (Target.toNat_lt_two_pow_bitLength t) hp

theorem leading_lt (t : Target) : leading t < 0x1000000 := by
  have ht := toNat_lt_byteLength t
  unfold leading
  split
  · rename_i h
    have hpos : 0 < 256 ^ (3 - byteLength t) := Nat.pow_pos (by decide)
    calc
      _ < 256 ^ byteLength t * 256 ^ (3 - byteLength t) := Nat.mul_lt_mul_of_pos_right ht hpos
      _ = 256 ^ 3 := by
        rw [← Nat.pow_add]
        congr 1
        omega
  · rw [Nat.div_lt_iff_lt_mul (Nat.pow_pos (by decide))]
    calc
      _ < 256 ^ byteLength t := ht
      _ = 256 ^ 3 * 256 ^ (byteLength t - 3) := by
        rw [← Nat.pow_add]
        congr 1
        omega

theorem signBit_ofTarget (t : Target) : (ofTarget t).signBit = false := by
  have hs := byteLength_le t
  have hd := leading_lt t
  rw [ofTarget, encode_eq]
  split <;> rw [signBit_ofParts (by omega) (by omega), Bool.false_and]

/-- The first byte is not zero. -/
theorem leading_ge {t : Target} (h : 0 < byteLength t) : 0x10000 ≤ leading t := by
  have hbits : 0 < t.bitLength ∧ 8 * (byteLength t - 1) ≤ t.bitLength - 1 := by
    unfold byteLength at h ⊢
    omega
  have hfirst : 256 ^ (byteLength t - 1) ≤ t.toNat := by
    calc
      256 ^ (byteLength t - 1) = 2 ^ (8 * (byteLength t - 1)) := (two_pow_bytes _).symm
      _ ≤ 2 ^ (t.bitLength - 1) := Nat.pow_le_pow_right (by decide) hbits.2
      _ ≤ t.toNat := Target.two_pow_le_toNat hbits.1
  unfold leading
  split
  · calc
      0x10000 = 256 ^ (byteLength t - 1) * 256 ^ (3 - byteLength t) := by
        rw [show 0x10000 = 256 ^ 2 from rfl, ← Nat.pow_add]
        congr 1
        omega
      _ ≤ t.toNat * 256 ^ (3 - byteLength t) := Nat.mul_le_mul_right _ hfirst
  · rw [Nat.le_div_iff_mul_le (Nat.pow_pos (by decide))]
    calc
      0x10000 * 256 ^ (byteLength t - 3) = 256 ^ (byteLength t - 1) := by
        rw [show 0x10000 = 256 ^ 2 from rfl, ← Nat.pow_add]
        congr 1
        omega
      _ ≤ t.toNat := hfirst

/-- Writing drops whole bytes, and only behind a mantissa of at least fifteen bits. -/
theorem magnitude_ofTarget_eq (t : Target) :
    ∃ n, (ofTarget t).magnitude = t.toNat / 256 ^ n * 256 ^ n ∧
      (n = 0 ∨ 2 ^ 15 ≤ t.toNat / 256 ^ n) := by
  have hs := byteLength_le t
  have hd := leading_lt t
  rw [ofTarget, encode_eq]
  rcases Nat.lt_or_ge 3 (byteLength t) with h | h
  · have hlead : leading t = t.toNat / 256 ^ (byteLength t - 3) := by
      rw [leading, if_neg (Nat.not_le.2 h)]
    split
    · rename_i hbig
      have hdiv : t.toNat / 256 ^ (byteLength t + 1 - 3) = leading t / 256 := by
        rw [hlead, Nat.div_div_eq_div_mul, ← Nat.pow_succ]
        congr 2
        omega
      refine ⟨byteLength t + 1 - 3, ?_, .inr ?_⟩
      · rw [magnitude_ofParts (by omega) (by omega), placed, if_neg (by omega), hdiv]
      · rw [hdiv]
        omega
    · refine ⟨byteLength t - 3, ?_, .inr ?_⟩
      · rw [magnitude_ofParts (by omega) (by omega), placed, if_neg (by omega), hlead]
      · have := leading_ge (t := t) (by omega)
        omega
  · have hlead : leading t = t.toNat * 256 ^ (3 - byteLength t) := by rw [leading, if_pos h]
    have hpos : 0 < 256 ^ (3 - byteLength t) := Nat.pow_pos (by decide)
    split
    · rename_i hbig
      rw [magnitude_ofParts (by omega) (by omega)]
      rcases Nat.lt_or_ge (byteLength t) 3 with h3 | h3
      · have hshift : (3 - (byteLength t + 1)).succ = 3 - byteLength t := by omega
        refine ⟨0, ?_, .inl rfl⟩
        rw [placed, if_pos (by omega), Nat.div_div_eq_div_mul, ← Nat.pow_succ', hshift, hlead,
          Nat.mul_div_cancel _ hpos, Nat.pow_zero, Nat.div_one, Nat.mul_one]
      · have h3 : byteLength t = 3 := Nat.le_antisymm h h3
        rw [h3, Nat.sub_self, Nat.pow_zero, Nat.mul_one] at hlead
        refine ⟨1, ?_, .inr ?_⟩
        · rw [placed, if_neg (by omega), h3, hlead]
          rfl
        · omega
    · refine ⟨0, ?_, .inl rfl⟩
      rw [magnitude_ofParts (by omega) (by omega), placed, if_pos h, hlead,
        Nat.mul_div_cancel _ hpos, Nat.pow_zero, Nat.div_one, Nat.mul_one]

/-- Writing rounds down. -/
theorem magnitude_ofTarget_le (t : Target) : (ofTarget t).magnitude ≤ t.toNat := by
  obtain ⟨n, hmag, -⟩ := magnitude_ofTarget_eq t
  rw [hmag]
  exact Nat.div_mul_le_self _ _

/-- Writing loses less than one part in `2 ^ 15`. -/
theorem loss_ofTarget_lt {t : Target} (h : t ≠ 0) :
    (t.toNat - (ofTarget t).magnitude) * 2 ^ 15 < t.toNat := by
  obtain ⟨n, hmag, rfl | hunit⟩ := magnitude_ofTarget_eq t
  · have hpos := Target.toNat_pos.2 h
    rw [hmag]
    simpa using hpos
  · rw [hmag]
    have hpos : 0 < 256 ^ n := Nat.pow_pos (by decide)
    generalize 256 ^ n = unit at hunit hpos ⊢
    have hlost : t.toNat - t.toNat / unit * unit < unit := by
      have := Nat.mod_lt t.toNat hpos
      rw [Nat.mod_eq_sub_div_mul] at this
      exact this
    calc
      (t.toNat - t.toNat / unit * unit) * 2 ^ 15 < unit * 2 ^ 15 :=
        Nat.mul_lt_mul_of_pos_right hlost (by decide)
      _ = 2 ^ 15 * unit := Nat.mul_comm _ _
      _ ≤ t.toNat / unit * unit := Nat.mul_le_mul_right _ hunit
      _ ≤ t.toNat := Nat.div_mul_le_self _ _

/-- A word stands for at most 23 bits, moved by whole bytes. -/
theorem magnitude_eq_moved (c : CompactTarget) :
    ∃ digits n, c.magnitude = digits * 256 ^ n ∧ digits < 2 ^ 23 := by
  have hm := mantissa_lt c
  unfold magnitude placed
  split
  · refine ⟨c.mantissa / 256 ^ (3 - c.exponent), 0, by rw [Nat.pow_zero, Nat.mul_one], ?_⟩
    exact Nat.lt_of_le_of_lt (Nat.div_le_self _ _) hm
  · exact ⟨c.mantissa, c.exponent - 3, rfl, hm⟩

/-- No word stands for a number between a target and what is written for it. -/
theorem le_magnitude_ofTarget {c : CompactTarget} {t : Target} (h : c.magnitude ≤ t.toNat) :
    c.magnitude ≤ (ofTarget t).magnitude := by
  obtain ⟨digits, n, hc, hdigits⟩ := magnitude_eq_moved c
  obtain ⟨k, hmag, hk⟩ := magnitude_ofTarget_eq t
  rw [hmag]
  rcases Nat.lt_or_ge n k with hn | hn
  · -- fewer bytes behind the digits than were dropped: the digits are too few to come near
    have hq : 2 ^ 15 ≤ t.toNat / 256 ^ k := by
      rcases hk with rfl | hk
      · exact absurd hn (Nat.not_lt_zero n)
      · exact hk
    calc
      c.magnitude = digits * 256 ^ n := hc
      _ ≤ 2 ^ 15 * 256 * 256 ^ n := Nat.mul_le_mul_right _ (by omega)
      _ = 2 ^ 15 * 256 ^ (n + 1) := by rw [Nat.mul_assoc, ← Nat.pow_succ']
      _ ≤ 2 ^ 15 * 256 ^ k := Nat.mul_le_mul_left _ (Nat.pow_le_pow_right (by decide) hn)
      _ ≤ t.toNat / 256 ^ k * 256 ^ k := Nat.mul_le_mul_right _ hq
  · have hdvd : 256 ^ k ∣ c.magnitude := by
      rw [hc]
      exact Nat.dvd_mul_left_of_dvd (Nat.pow_dvd_pow 256 hn) digits
    rw [← Nat.div_mul_cancel hdvd]
    exact Nat.mul_le_mul_right _ (Nat.div_le_div_right h)

theorem magnitude_ofTarget_lt (t : Target) : (ofTarget t).magnitude < 2 ^ 256 :=
  Nat.lt_of_le_of_lt (magnitude_ofTarget_le t) (Target.toNat_lt t)

theorem decode_ofTarget_negative (t : Target) : (ofTarget t).decode.negative = false :=
  decode_negative_of_signBit (signBit_ofTarget t)

theorem decode_ofTarget_overflow (t : Target) : (ofTarget t).decode.overflow = false := by
  rw [← Bool.not_eq_true, decode_overflow]
  exact Nat.not_le.2 (magnitude_ofTarget_lt t)

theorem toNat_decode_ofTarget (t : Target) :
    (ofTarget t).decode.target.toNat = (ofTarget t).magnitude := by
  rw [toNat_decode_target, Nat.mod_eq_of_lt (magnitude_ofTarget_lt t)]

theorem decode_ofTarget_le (t : Target) : (ofTarget t).decode.target ≤ t := by
  rw [BitVec.le_def, toNat_decode_ofTarget]
  exact magnitude_ofTarget_le t

/-- What a word stands for, if that is not above a target, is not above what is read back for the
target either. -/
theorem le_decode_ofTarget {c : CompactTarget} (hfits : c.decode.overflow = false) {t : Target}
    (h : c.decode.target ≤ t) : c.decode.target ≤ (ofTarget t).decode.target := by
  have hmag : c.decode.target.toNat = c.magnitude := by
    rw [← Bool.not_eq_true, decode_overflow, Nat.not_le] at hfits
    rw [toNat_decode_target, Nat.mod_eq_of_lt hfits]
  rw [BitVec.le_def, hmag] at h ⊢
  rw [toNat_decode_ofTarget]
  exact le_magnitude_ofTarget h

/-- A higher target is not read back as a lower one. -/
theorem decode_ofTarget_mono {t u : Target} (h : t ≤ u) :
    (ofTarget t).decode.target ≤ (ofTarget u).decode.target :=
  le_decode_ofTarget (decode_ofTarget_overflow t) (BitVec.le_trans (decode_ofTarget_le t) h)

theorem toNat_le_decode_ofTarget (t : Target) :
    t.toNat * (2 ^ 15 - 1) ≤ (ofTarget t).decode.target.toNat * 2 ^ 15 := by
  rw [toNat_decode_ofTarget]
  by_cases h : t = 0
  · subst t
    exact Nat.zero_le _
  · have := loss_ofTarget_lt h
    omega

theorem decode_ofTarget_ne_zero {t : Target} (h : t ≠ 0) : (ofTarget t).decode.target ≠ 0 := by
  have hpos := Target.toNat_pos.2 h
  have hle := toNat_le_decode_ofTarget t
  rw [← Target.toNat_pos]
  omega

/-- What is lost in writing does not make up for a half. -/
theorem ofTarget_ne_of_half {t u : Target} (hpos : 0 < u.toNat) (h : 2 * t.toNat ≤ u.toNat) :
    ofTarget t ≠ ofTarget u := by
  intro hsame
  have hlow := BitVec.le_def.1 (decode_ofTarget_le t)
  have hhigh := toNat_le_decode_ofTarget u
  rw [hsame] at hlow
  omega

end SporkNode.Work.CompactTarget
