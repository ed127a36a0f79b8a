import SporkNode.Proofs.Work.Walk

/-!
Averages and scalings as numbers. As long as nothing passes 256 bits an average lies between the
bounds of what is averaged, and a scaling is a product and a quotient rounded down. As a time is
taken for a second at least, a scaling divides by no more than the expected time.
-/

namespace SporkNode.Work

/-! ## Averages -/

theorem toNat_runningAverage {average next : Target} {n : Nat} (hn : n < 2 ^ 256)
    (h : average.toNat * (n - 1) + next.toNat < 2 ^ 256) :
    (runningAverage average n next).toNat = (average.toNat * (n - 1) + next.toNat) / n := by
  have hproduct : average.toNat * (n - 1) < 2 ^ 256 := by omega
  rw [runningAverage, Target.toNat_divide, BitVec.toNat_add, Target.toNat_scale,
    Nat.mod_eq_of_lt hproduct, Nat.mod_eq_of_lt h, Nat.mod_eq_of_lt hn]

/-- A sum that wraps only comes out smaller. -/
theorem runningAverage_le {average next : Target} {n high : Nat} (hpos : 0 < n) (hn : n < 2 ^ 256)
    (haverage : average.toNat ≤ high) (hnext : next.toNat ≤ high) :
    (runningAverage average n next).toNat ≤ high := by
  rw [runningAverage, Target.toNat_divide, BitVec.toNat_add, Target.toNat_scale, Nat.mod_add_mod,
    Nat.mod_eq_of_lt hn]
  apply Nat.div_le_of_le_mul
  calc
    (average.toNat * (n - 1) + next.toNat) % 2 ^ 256 ≤ average.toNat * (n - 1) + next.toNat :=
      Nat.mod_le _ _
    _ ≤ high * (n - 1) + high := Nat.add_le_add (Nat.mul_le_mul_right _ haverage) hnext
    _ = n * high := by
      rw [← Nat.mul_succ, Nat.succ_eq_add_one, Nat.sub_add_cancel hpos, Nat.mul_comm]

/-- If there is anything to average, the average lies between the bounds. -/
def Series.Within (low high : Nat) (s : Series) : Prop :=
  0 < s.count → low ≤ s.average.toNat ∧ s.average.toNat ≤ high

/-- The sum behind the next average. -/
theorem Series.Within.sum_bounds {low high : Nat} {s : Series} (h : s.Within low high) {t : Target}
    (ht : low ≤ t.toNat ∧ t.toNat ≤ high) :
    low * (s.count + 1) ≤ s.average.toNat * s.count + t.toNat ∧
      s.average.toNat * s.count + t.toNat ≤ high * (s.count + 1) := by
  have hbefore : low * s.count ≤ s.average.toNat * s.count ∧
      s.average.toNat * s.count ≤ high * s.count := by
    rcases Nat.eq_zero_or_pos s.count with hzero | hpos
    · rw [hzero]
      exact ⟨Nat.le_refl _, Nat.le_refl _⟩
    · exact ⟨Nat.mul_le_mul_right _ (h hpos).1, Nat.mul_le_mul_right _ (h hpos).2⟩
  rw [Nat.mul_succ, Nat.mul_succ]
  omega

/-- As long as there is room for the sum, nothing is cut. A count that no word holds leaves room for
nothing but zeros, and their average is zero whatever it is divided by. -/
theorem Series.Within.toNat_push {low high : Nat} {s : Series} (h : s.Within low high) (b : Block)
    {t : Target} (ht : low ≤ t.toNat ∧ t.toNat ≤ high) (hroom : high * (s.count + 1) < 2 ^ 256) :
    (s.push b t).average.toNat = (s.average.toNat * s.count + t.toNat) / (s.count + 1) := by
  have hmost := (h.sum_bounds ht).2
  by_cases hcount : s.count + 1 < 2 ^ 256
  · exact toNat_runningAverage hcount (Nat.lt_of_le_of_lt hmost hroom)
  · have hzero : s.average.toNat * s.count + t.toNat = 0 := by
      rcases Nat.eq_zero_or_pos high with hhigh | hhigh
      · rw [hhigh, Nat.zero_mul] at hmost
        exact Nat.le_zero.1 hmost
      · have hlarge := Nat.le_mul_of_pos_left (s.count + 1) hhigh
        omega
    have havg : (s.push b t).average.toNat =
        (s.average.toNat * s.count % 2 ^ 256 + t.toNat) % 2 ^ 256 / ((s.count + 1) % 2 ^ 256) := by
      simp [Series.push, runningAverage]
    rw [havg, Nat.mod_add_mod, hzero, Nat.zero_mod, Nat.zero_div, Nat.zero_div]

theorem Series.Within.push {low high : Nat} {s : Series} (h : s.Within low high) (b : Block)
    {t : Target} (ht : low ≤ t.toNat ∧ t.toNat ≤ high) (hroom : high * (s.count + 1) < 2 ^ 256) :
    (s.push b t).Within low high := by
  intro _
  obtain ⟨hleast, hmost⟩ := h.sum_bounds ht
  rw [h.toNat_push b ht hroom]
  constructor
  · rw [Nat.le_div_iff_mul_le (Nat.succ_pos _)]
    exact hleast
  · apply Nat.div_le_of_le_mul
    rw [Nat.mul_comm _ high]
    exact hmost

/-! ## Scalings -/

theorem clampedTime_pos (actual expected : Int) : 1 ≤ clampedTime actual expected := by
  unfold clampedTime
  omega

theorem clampedTime_le (actual : Int) {expected : Int} (h : 0 < expected) :
    clampedTime actual expected ≤ 2 * expected := by
  unfold clampedTime
  omega

theorem clamp_bounds {n low high m : Int} (h : clamp n low high = .ok m) : low ≤ m ∧ m ≤ high := by
  unfold clamp at h
  split at h
  · cases h
  · cases h
    omega

theorem clamp_le {n low high m : Int} (h : clamp n low high = .ok m) : m ≤ max low n := by
  unfold clamp at h
  split at h
  · cases h
  · cases h
    omega

theorem unsignedWord_of_lt {n : Int} (h0 : 0 ≤ n) (h : n < signedSize) :
    unsignedWord n = n.toNat := by
  rw [signedSize_eq] at h
  rw [unsignedWord, natCast_wordSize, Int.emod_eq_of_lt h0 (by omega)]

/-- The product of a scaling, which is what can pass 256 bits. -/
def timeProduct (t : Target) (actual expected : Int) : Nat :=
  t.toNat * (clampedTime actual expected).toNat

theorem timeProduct_le {t : Target} {actual expected most : Int} {high : Nat}
    (hpos : 0 < expected) (hle : expected ≤ most) (ht : t.toNat ≤ high) :
    timeProduct t actual expected ≤ high * (2 * most.toNat) := by
  have hlow := clampedTime_pos actual expected
  have hhigh := clampedTime_le actual hpos
  exact Nat.mul_le_mul ht (by omega)

theorem toNat_timeScaled {t : Target} {actual expected : Int} (hpos : 0 < expected)
    (hfits : 2 * expected < signedSize) (hproduct : timeProduct t actual expected < 2 ^ 256) :
    (timeScaled t actual expected).toNat =
      timeProduct t actual expected / expected.toNat := by
  have hlow := clampedTime_pos actual expected
  have hhigh := clampedTime_le actual hpos
  rw [timeScaled, Target.toNat_divide, Target.toNat_scale,
    unsignedWord_of_lt (by omega) (by omega), unsignedWord_of_lt (by omega) (by omega)]
  rw [timeProduct] at hproduct ⊢
  rw [signedSize_eq] at hfits
  rw [Nat.mod_eq_of_lt hproduct, Nat.mod_eq_of_lt (by omega)]

theorem le_timeScaled {t : Target} {actual expected : Int} (hpos : 0 < expected)
    (hfits : 2 * expected < signedSize) (hproduct : timeProduct t actual expected < 2 ^ 256) :
    t.toNat / expected.toNat ≤ (timeScaled t actual expected).toNat := by
  have hlow := clampedTime_pos actual expected
  rw [toNat_timeScaled hpos hfits hproduct, timeProduct]
  exact Nat.div_le_div_right (Nat.le_mul_of_pos_right _ (by omega))

/-- A chain that is no faster than it should be eases, as long as nothing wraps. -/
theorem le_timeScaled_of_le {t : Target} {actual expected : Int} (hpos : 0 < expected)
    (hfits : 2 * expected < signedSize) (hproduct : timeProduct t actual expected < 2 ^ 256)
    (hslow : expected ≤ actual) : t ≤ timeScaled t actual expected := by
  rw [BitVec.le_def, toNat_timeScaled hpos hfits hproduct, Nat.le_div_iff_mul_le (by omega)]
  apply Nat.mul_le_mul_left
  unfold clampedTime
  omega

theorem unsignedWord_lt (n : Int) : unsignedWord n < 2 ^ 256 := by
  rw [unsignedWord, natCast_wordSize]
  omega

/-- Whatever becomes of overflows, a time that was brought into its range is at most twice the word
that it is divided by: the end of the range and that double are the same but for multiples of the
size of a word, and the end is less than this size. -/
theorem unsignedWord_le {actual expected most : Int} {o : Overflow}
    (hmost : o.signed (2 * expected) = .ok most) (hlow : 1 ≤ actual) (hhigh : actual ≤ most) :
    unsignedWord actual ≤ 2 * unsignedWord expected := by
  have hfitsMost := Overflow.fits_of_signed hmost
  have hcongr := Overflow.emod_of_signed hmost
  unfold FitsSigned at hfitsMost
  unfold unsignedWord
  rw [signedSize_eq] at hfitsMost
  rw [natCast_wordSize] at hcongr ⊢
  omega

/-- A scaling at most doubles: what wraps in the product makes it smaller. -/
theorem scaleByTime_le {t u : Target} {actual expected : Int} {o : Overflow}
    (h : scaleByTime t actual expected o = .ok u) :
    u.toNat ≤ 2 * t.toNat := by
  obtain ⟨most, hmost, h⟩ := bind_eq_ok.1 h
  obtain ⟨time, htime, h⟩ := bind_eq_ok.1 h
  cases h
  obtain ⟨hlow, hhigh⟩ := clamp_bounds htime
  have hword := unsignedWord_le hmost hlow hhigh
  rw [Target.toNat_divide, Target.toNat_scale, Nat.mod_eq_of_lt (unsignedWord_lt expected)]
  apply Nat.div_le_of_le_mul
  calc
    t.toNat * unsignedWord time % 2 ^ 256
      ≤ t.toNat * unsignedWord time := Nat.mod_le _ _
    _ ≤ t.toNat * (2 * unsignedWord expected) := Nat.mul_le_mul_left _ hword
    _ = unsignedWord expected * (2 * t.toNat) := by
      rw [Nat.mul_left_comm, Nat.mul_comm t.toNat, Nat.mul_left_comm]

end SporkNode.Work
