import Mathlib.Data.Nat.Order.Lemmas
import SporkNode.Proofs.Work.Average
import SporkNode.Proofs.Work.Interval
import SporkNode.Proofs.Work.NormalForm

/-!
The end of an interval on numbers without a bound. The target is multiplied by the time that the
interval took and divided by the time that it should have taken, and one about as wide as the limit
is halved before and doubled after. One bit makes room for a factor of two only: as soon as some
time within the bounds has a product or a result of more than 256 bits, some time is answered
wrongly, and as long as none has, all are answered rightly.
-/

namespace SporkNode.Work.Interval

variable {params : ChainParams} {t : Target} {time : Int}

/-- About as wide as the limit. -/
def Wide (params : ChainParams) (t : Target) : Prop := params.powLimit.bitLength - 1 < t.bitLength

instance decidableWide (params : ChainParams) (t : Target) : Decidable (Wide params t) :=
  inferInstanceAs (Decidable (params.powLimit.bitLength - 1 < t.bitLength))

/-! ## Without a bound -/

/-- What is multiplied by the time. -/
def multiplied (params : ChainParams) (t : Target) : Nat :=
  if Wide params t then t.toNat / 2 else t.toNat

/-- The result for a quotient. -/
def restored (params : ChainParams) (t : Target) (quotient : Nat) : Nat :=
  if Wide params t then 2 * quotient else quotient

/-- The target moved by `time`, with no bound on any number. -/
def unbounded (params : ChainParams) (t : Target) (time : Int) : Nat :=
  restored params t (multiplied params t * time.toNat / params.timespan.toNat)

/-- The bits of the moved target, or those of the limit if that is less. -/
def exactBits (params : ChainParams) (t : Target) (time : Int) : CompactTarget :=
  .ofTarget (.ofNat (min params.powLimit.toNat (unbounded params t time)))

/-- Neither the product nor the result passes 256 bits. -/
structure Fits (params : ChainParams) (t : Target) (time : Int) : Prop where
  product : multiplied params t * time.toNat < 2 ^ 256
  result : unbounded params t time < 2 ^ 256

/-- The target moved by `time` where the product and the result are cut to 256 bits. -/
def wrapped (params : ChainParams) (t : Target) (time : Int) : Nat :=
  restored params t (multiplied params t * time.toNat % 2 ^ 256 / params.timespan.toNat) % 2 ^ 256

theorem restored_mono (params : ChainParams) (t : Target) {q q' : Nat} (h : q ≤ q') :
    restored params t q ≤ restored params t q' := by
  unfold restored
  split
  · exact Nat.mul_le_mul_left 2 h
  · exact h

theorem restored_add (params : ChainParams) (t : Target) (q q' : Nat) :
    restored params t (q + q') = restored params t q + restored params t q' := by
  unfold restored
  split
  · exact Nat.mul_add 2 q q'
  · rfl

theorem two_mul_restored_le (params : ChainParams) (t : Target) {q q' : Nat} (h : 2 * q ≤ q') :
    2 * restored params t q ≤ restored params t q' := by
  unfold restored
  split <;> omega

theorem restored_multiplied_le (params : ChainParams) (t : Target) :
    restored params t (multiplied params t) ≤ t.toNat := by
  unfold restored multiplied
  split <;> omega

theorem restored_lt {q : Nat} (h : q < multiplied params t) : restored params t q < t.toNat := by
  unfold multiplied at h
  unfold restored
  split
  · rename_i hwide
    rw [if_pos hwide] at h
    omega
  · rename_i hnarrow
    rw [if_neg hnarrow] at h
    exact h

theorem unbounded_mono (params : ChainParams) (t : Target) {time' : Int} (h : time ≤ time') :
    unbounded params t time ≤ unbounded params t time' := by
  apply restored_mono
  exact Nat.div_le_div_right (Nat.mul_le_mul_left _ (Int.toNat_le_toNat h))

theorem Fits.anti {time' : Int} (h : Fits params t time') (hle : time ≤ time') :
    Fits params t time where
  product := Nat.lt_of_le_of_lt (Nat.mul_le_mul_left _ (Int.toNat_le_toNat hle)) h.product
  result := Nat.lt_of_le_of_lt (unbounded_mono params t hle) h.result

theorem wrapped_of_product (h : multiplied params t * time.toNat < 2 ^ 256) :
    wrapped params t time = unbounded params t time % 2 ^ 256 := by
  rw [wrapped, Nat.mod_eq_of_lt h]
  rfl

theorem Fits.wrapped_eq (h : Fits params t time) :
    wrapped params t time = unbounded params t time := by
  rw [wrapped_of_product h.product, Nat.mod_eq_of_lt h.result]

/-! ## What is computed -/

theorem toNat_capped (limit target : Target) :
    (if limit < target then limit else target).toNat = min limit.toNat target.toNat := by
  split
  · rename_i hlt
    exact (Nat.min_eq_left (Nat.le_of_lt (BitVec.lt_def.1 hlt))).symm
  · rename_i hge
    exact (Nat.min_eq_right (BitVec.le_def.1 (BitVec.not_lt.1 hge))).symm

section

variable (hspan : 0 < params.timespan ∧ params.timespan < signedSize)
  (htime : 0 ≤ time ∧ time < signedSize)

include hspan htime

theorem toNat_scaled :
    (scaled params t time).toNat = min params.powLimit.toNat (wrapped params t time) := by
  have hsize : params.timespan.toNat < 2 ^ 256 := by
    have hsigned : signedSize = 2 ^ 63 := rfl
    omega
  have hmoved : (if Wide params t then
        (((t.shiftRight 1).scale (unsignedWord time)).divide
          (unsignedWord params.timespan)).shiftLeft 1
      else (t.scale (unsignedWord time)).divide (unsignedWord params.timespan)).toNat =
        wrapped params t time := by
    unfold wrapped restored multiplied
    rw [unsignedWord_of_lt htime.1 htime.2, unsignedWord_of_lt (Int.le_of_lt hspan.1) hspan.2]
    split
    · rw [Target.toNat_shiftLeft, Target.toNat_divide, Target.toNat_scale, Target.toNat_shiftRight,
        Nat.mod_eq_of_lt hsize, Nat.pow_one, Nat.mul_comm _ 2]
    · rw [Target.toNat_divide, Target.toNat_scale, Nat.mod_eq_of_lt hsize]
      refine (Nat.mod_eq_of_lt (Nat.lt_of_le_of_lt (Nat.div_le_self _ _) ?_)).symm
      exact Nat.mod_lt _ (by decide)
  rw [← hmoved]
  exact toNat_capped _ _

theorem Fits.ofTarget_scaled (h : Fits params t time) :
    CompactTarget.ofTarget (scaled params t time) = exactBits params t time := by
  unfold exactBits
  congr 1
  apply BitVec.eq_of_toNat_eq
  have hmin : min params.powLimit.toNat (unbounded params t time) < 2 ^ 256 :=
    Nat.lt_of_le_of_lt (Nat.min_le_left _ _) (Target.toNat_lt _)
  rw [toNat_scaled hspan htime, h.wrapped_eq, Target.toNat_ofNat, Nat.mod_eq_of_lt hmin]

end

/-! ## Where the guard fails -/

/-- Of a product that passes 256 bits at least half is cut. -/
theorem two_mul_wrapped_le (h : 2 ^ 256 ≤ multiplied params t * time.toNat) :
    2 * wrapped params t time ≤ unbounded params t time := by
  have hquotient : 2 * (multiplied params t * time.toNat % 2 ^ 256 / params.timespan.toNat) ≤
      multiplied params t * time.toNat / params.timespan.toNat := by
    refine Nat.le_trans (Nat.mul_div_le_mul_div_assoc _ _ _) (Nat.div_le_div_right ?_)
    omega
  exact Nat.le_trans (Nat.mul_le_mul_left 2 (Nat.mod_le _ _))
    (two_mul_restored_le params t hquotient)

/-- By the time that the interval should have taken the target is not eased, so that nothing but the
product can pass 256 bits. -/
theorem ofTarget_scaled_timespan_ne
    (hspan : 0 < params.timespan ∧ params.timespan < signedSize) (hle : t ≤ params.powLimit)
    (hnot : ¬ Fits params t params.timespan) :
    CompactTarget.ofTarget (scaled params t params.timespan) ≠
      exactBits params t params.timespan := by
  have hlimit := Target.toNat_lt params.powLimit
  have hkept := restored_multiplied_le params t
  rw [BitVec.le_def] at hle
  have hexact : unbounded params t params.timespan = restored params t (multiplied params t) := by
    rw [unbounded, Nat.mul_div_cancel _ (Int.lt_toNat.2 hspan.1)]
  have hproduct : 2 ^ 256 ≤ multiplied params t * params.timespan.toNat := by
    by_contra hfits
    exact hnot ⟨Nat.not_le.1 hfits, by omega⟩
  have hsome : 0 < unbounded params t params.timespan := by
    have hmultiplied : 0 < multiplied params t :=
      Nat.pos_of_mul_pos_right (Nat.lt_of_lt_of_le (by decide) hproduct)
    rw [hexact]
    unfold restored
    split <;> omega
  have hwritten : (Target.ofNat (min params.powLimit.toNat
      (unbounded params t params.timespan))).toNat = unbounded params t params.timespan := by
    rw [Target.toNat_ofNat]
    omega
  have hhalf := two_mul_wrapped_le hproduct
  apply CompactTarget.ofTarget_ne_of_half
  · rw [hwritten]
    exact hsome
  · rw [hwritten, toNat_scaled hspan ⟨Int.le_of_lt hspan.1, hspan.2⟩]
    omega

theorem multiplied_mul_succ (params : ChainParams) (t : Target) (htime : 0 ≤ time) :
    multiplied params t * (time + 1).toNat =
      multiplied params t * time.toNat + multiplied params t := by
  rw [← Nat.mul_succ]
  congr 1
  omega

/-- Cut, the first product to pass 256 bits is less than what a second adds to it. -/
theorem wrapped_lt_of_product (htime : 0 ≤ time)
    (hbefore : multiplied params t * time.toNat < 2 ^ 256)
    (h : 2 ^ 256 ≤ multiplied params t * (time + 1).toNat) :
    wrapped params t (time + 1) < t.toNat := by
  have hcut : multiplied params t * (time + 1).toNat % 2 ^ 256 < multiplied params t := by
    have ht := Target.toNat_lt t
    have hless : multiplied params t ≤ t.toNat := by
      unfold multiplied
      split <;> omega
    rw [multiplied_mul_succ params t htime] at h ⊢
    omega
  refine Nat.lt_of_le_of_lt (Nat.mod_le _ _) (restored_lt ?_)
  exact Nat.lt_of_le_of_lt (Nat.div_le_self _ _) hcut

theorem add_div_le (n m k : Nat) : (n + m) / k ≤ n / k + m := by
  rcases Nat.eq_zero_or_pos k with rfl | hk
  · simp
  · rw [← Nat.lt_succ_iff, Nat.div_lt_iff_lt_mul hk, Nat.succ_mul, Nat.add_mul]
    have hsplit := Nat.div_add_mod' n k
    have hrest := Nat.mod_lt n hk
    have hmul := Nat.le_mul_of_pos_right m hk
    omega

/-- A second more adds the target at most. -/
theorem unbounded_succ_le (params : ChainParams) (t : Target) (htime : 0 ≤ time) :
    unbounded params t (time + 1) ≤ unbounded params t time + t.toNat := by
  have hgrown := add_div_le (multiplied params t * time.toNat) (multiplied params t)
    params.timespan.toNat
  rw [← multiplied_mul_succ params t htime] at hgrown
  calc
    unbounded params t (time + 1)
      ≤ restored params t (multiplied params t * time.toNat / params.timespan.toNat +
          multiplied params t) := restored_mono params t hgrown
    _ = unbounded params t time + restored params t (multiplied params t) :=
      restored_add params t _ _
    _ ≤ unbounded params t time + t.toNat :=
      Nat.add_le_add_left (restored_multiplied_le params t) _

theorem wrapped_lt_of_first (htime : 0 ≤ time) (hfits : Fits params t time)
    (hnot : ¬ Fits params t (time + 1)) : wrapped params t (time + 1) < t.toNat := by
  by_cases hproduct : multiplied params t * (time + 1).toNat < 2 ^ 256
  · have hresult : 2 ^ 256 ≤ unbounded params t (time + 1) := by
      by_contra hless
      exact hnot ⟨hproduct, Nat.not_le.1 hless⟩
    have hbefore := hfits.result
    have hgrown := unbounded_succ_le params t htime
    have ht := Target.toNat_lt t
    rw [wrapped_of_product hproduct]
    omega
  · exact wrapped_lt_of_product htime hfits.product (Nat.not_lt.1 hproduct)

theorem le_unbounded_of_first (hspan : 0 < params.timespan) (hlow : params.timespan ≤ time)
    (hhigh : time + 1 < signedSize) (hnot : ¬ Fits params t (time + 1)) :
    t.toNat ≤ unbounded params t (time + 1) := by
  have hsigned : signedSize = 2 ^ 63 := rfl
  have hlarge : params.timespan.toNat ≤ multiplied params t := by
    by_contra hsmall
    have hproduct : multiplied params t * (time + 1).toNat ≤ 2 ^ 63 * 2 ^ 63 :=
      Nat.mul_le_mul (by omega) (by omega)
    have hquotient := Nat.div_le_self (multiplied params t * (time + 1).toNat)
      params.timespan.toNat
    refine hnot ⟨by omega, ?_⟩
    unfold unbounded restored
    split <;> omega
  have hquotient : multiplied params t + 1 ≤
      multiplied params t * (time + 1).toNat / params.timespan.toNat := by
    rw [Nat.le_div_iff_mul_le (by omega), Nat.succ_mul]
    calc
      multiplied params t * params.timespan.toNat + params.timespan.toNat ≤
          multiplied params t * params.timespan.toNat + multiplied params t :=
        Nat.add_le_add_left hlarge _
      _ = multiplied params t * (params.timespan.toNat + 1) := (Nat.mul_succ _ _).symm
      _ ≤ multiplied params t * (time + 1).toNat := Nat.mul_le_mul_left _ (by omega)
  refine Nat.le_trans ?_ (restored_mono params t hquotient)
  unfold restored multiplied
  split <;> omega

/-- Above the time that the interval should have taken the target lies between what is computed for
the first time that does not fit and what should be. -/
theorem ofTarget_scaled_first_ne (hspan : 0 < params.timespan)
    (hread : CompactTarget.Readable t) (hle : t ≤ params.powLimit)
    (hlow : params.timespan ≤ time) (hhigh : time + 1 < signedSize) (hfits : Fits params t time)
    (hnot : ¬ Fits params t (time + 1)) :
    CompactTarget.ofTarget (scaled params t (time + 1)) ≠ exactBits params t (time + 1) := by
  have hcut := wrapped_lt_of_first (by omega) hfits hnot
  have hexact := le_unbounded_of_first hspan hlow hhigh hnot
  have hlimit := Target.toNat_lt params.powLimit
  rw [BitVec.le_def] at hle
  apply hread.ofTarget_ne
  · rw [BitVec.lt_def, toNat_scaled ⟨hspan, by omega⟩ ⟨by omega, hhigh⟩]
    omega
  · rw [BitVec.le_def, Target.toNat_ofNat]
    omega

theorem exists_last_fit {least most : Int} (hfits : Fits params t least)
    (hnot : ¬ Fits params t most) (hle : least ≤ most) :
    ∃ time, least ≤ time ∧ time + 1 ≤ most ∧ Fits params t time ∧ ¬ Fits params t (time + 1) := by
  obtain ⟨n, hbefore, hfails, hbound⟩ := Nat.exists_not_and_succ_of_not_zero_of_exists
    (p := fun n => ¬ Fits params t (least + n) ∧ least + n ≤ most)
    (fun h => h.1 (by simpa using hfits))
    ⟨(most - least).toNat, by
      have hend : least + ((most - least).toNat : Int) = most := by omega
      rw [hend]
      exact ⟨hnot, Int.le_refl _⟩⟩
  have hlast : Fits params t (least + n) := by
    by_contra hfails'
    exact hbefore ⟨hfails', by omega⟩
  rw [Int.natCast_succ, ← Int.add_assoc] at hfails hbound
  exact ⟨least + n, by omega, hbound, hlast, hfails⟩

/-- Some time between that which the interval should have taken and `most` is answered wrongly. -/
theorem exists_ofTarget_scaled_ne {most : Int} (hspan : 0 < params.timespan)
    (hread : CompactTarget.Readable t) (hle : t ≤ params.powLimit)
    (hmost : params.timespan ≤ most) (hsize : most < signedSize) (hnot : ¬ Fits params t most) :
    ∃ time, params.timespan ≤ time ∧ time ≤ most ∧
      CompactTarget.ofTarget (scaled params t time) ≠ exactBits params t time := by
  by_cases hfits : Fits params t params.timespan
  · obtain ⟨time, hlow, hhigh, hlast, hfirst⟩ := exists_last_fit hfits hnot hmost
    exact ⟨time + 1, by omega, hhigh,
      ofTarget_scaled_first_ne hspan hread hle hlow (by omega) hlast hfirst⟩
  · exact ⟨_, Int.le_refl _, hmost, ofTarget_scaled_timespan_ne ⟨hspan, by omega⟩ hle hfits⟩

theorem boundedTime_mem (h : params.Sound) (elapsed : Int) :
    0 < boundedTime params elapsed ∧
      boundedTime params elapsed ≤ params.timespan * params.maxAdjustUp := by
  have hpos := h.lowerBound
  obtain ⟨hlow, hhigh⟩ := h.range
  unfold boundedTime
  omega

theorem boundedTime_of_mem (h : params.Sound) (hlow : params.timespan ≤ time)
    (hhigh : time ≤ params.timespan * params.maxAdjustUp) : boundedTime params time = time := by
  have hdown := h.range.1
  unfold boundedTime
  omega

/-- For sound parameters, times that fit in 64 bits and bits that are read as a target within the
limit: the adjustment is exact for every interval whose product and result fit in 256 bits, and it
is exact for all intervals just if it is for the longest. -/
theorem adjusted_exact_iff (hv : params.validate = .ok ()) (hr : params.noRetargeting = false)
    (hsize : params.timespan * params.maxAdjustUp < signedSize) {bits : CompactTarget}
    (hle : bits.toTarget ≤ params.powLimit) :
    (∀ (tip : Block) (firstTime : Int), tip.bits = bits → FitsSigned (tip.time - firstTime) →
      Fits params bits.toTarget (boundedTime params (tip.time - firstTime)) →
      ∀ o, adjusted params tip firstTime o =
        .ok (exactBits params bits.toTarget (boundedTime params (tip.time - firstTime)))) ∧
    ((∀ (tip : Block) (firstTime : Int), tip.bits = bits → FitsSigned (tip.time - firstTime) →
        ∀ o, adjusted params tip firstTime o =
          .ok (exactBits params bits.toTarget (boundedTime params (tip.time - firstTime)))) ↔
      Fits params bits.toTarget (params.timespan * params.maxAdjustUp)) := by
  have hs := ChainParams.sound_of_validate hv
  have hpos := hs.timespan_pos
  obtain ⟨-, hup⟩ := hs.range
  have hanswer : ∀ (tip : Block) (firstTime : Int), tip.bits = bits →
      FitsSigned (tip.time - firstTime) → ∀ o,
      adjusted params tip firstTime o =
        .ok (.ofTarget (scaled params bits.toTarget
          (boundedTime params (tip.time - firstTime)))) := by
    rintro tip firstTime rfl helapsed o
    exact adjusted_eq hs hr hsize (Overflow.signed_of_fits helapsed o)
  have hexact : ∀ (tip : Block) (firstTime : Int), tip.bits = bits →
      FitsSigned (tip.time - firstTime) →
      Fits params bits.toTarget (boundedTime params (tip.time - firstTime)) →
      ∀ o, adjusted params tip firstTime o =
        .ok (exactBits params bits.toTarget (boundedTime params (tip.time - firstTime))) := by
    intro tip firstTime hbits helapsed hfits o
    obtain ⟨hlow, hhigh⟩ := boundedTime_mem hs (tip.time - firstTime)
    rw [hanswer tip firstTime hbits helapsed o,
      hfits.ofTarget_scaled ⟨hpos, by omega⟩ ⟨Int.le_of_lt hlow, by omega⟩]
  refine ⟨hexact, fun hall => ?_, fun hfits tip firstTime hbits helapsed o => ?_⟩
  · by_contra hnot
    obtain ⟨time, hlow, hhigh, hne⟩ := exists_ofTarget_scaled_ne hpos
      (CompactTarget.readable_toTarget bits) hle hup hsize hnot
    have helapsed : FitsSigned (time - 0) := fitsSigned_of_pos (by omega) (by omega)
    have hsame := hall ⟨.zero, none, 0, 0, time, bits⟩ 0 rfl helapsed .faults
    rw [hanswer _ _ rfl helapsed, Int.sub_zero, boundedTime_of_mem hs hlow hhigh] at hsame
    exact hne (Except.ok.inj hsame)
  · exact hexact tip firstTime hbits helapsed (hfits.anti (boundedTime_mem hs _).2) o

/-- A limit whose product with the longest time fits has room for every target. -/
theorem Fits.of_limit (hle : t ≤ params.powLimit)
    (hroom : params.powLimit.toNat * time.toNat < 2 ^ 256) : Fits params t time := by
  have hless : t.toNat * time.toNat ≤ params.powLimit.toNat * time.toNat :=
    Nat.mul_le_mul_right _ (BitVec.le_def.1 hle)
  have hproduct : multiplied params t * time.toNat ≤
      restored params t (multiplied params t * time.toNat) := by
    unfold restored
    split <;> omega
  have hrestored : restored params t (multiplied params t * time.toNat) ≤
      t.toNat * time.toNat := by
    unfold restored multiplied
    split
    · rw [← Nat.mul_assoc]
      exact Nat.mul_le_mul_right _ (Nat.mul_div_le _ 2)
    · exact Nat.le_refl _
  have hresult : unbounded params t time ≤
      restored params t (multiplied params t * time.toNat) :=
    restored_mono params t (Nat.div_le_self _ _)
  exact ⟨by omega, by omega⟩

theorem adjusted_exact_iff_main :
    ChainParams.main.validate = .ok () ∧ ChainParams.main.noRetargeting = false ∧
    ChainParams.main.timespan * ChainParams.main.maxAdjustUp < signedSize ∧
    ChainParams.main.limitBits.toTarget ≤ ChainParams.main.powLimit ∧
    ∀ (tip : Block) (firstTime : Int), tip.bits = ChainParams.main.limitBits →
      FitsSigned (tip.time - firstTime) →
      ∀ o, adjusted .main tip firstTime o =
        .ok (exactBits .main ChainParams.main.limitBits.toTarget
          (boundedTime .main (tip.time - firstTime))) := by
  have hv : ChainParams.main.validate = .ok () := by decide
  have hsize : ChainParams.main.timespan * ChainParams.main.maxAdjustUp < signedSize := by decide
  have hle : ChainParams.main.limitBits.toTarget ≤ ChainParams.main.powLimit := by decide
  have hfits : Fits .main ChainParams.main.limitBits.toTarget
      (ChainParams.main.timespan * ChainParams.main.maxAdjustUp) :=
    .of_limit hle (by decide)
  exact ⟨hv, rfl, hsize, hle, (adjusted_exact_iff hv rfl hsize hle).2.2 hfits⟩

/-- Every target is within the limit, and an interval is to last four seconds. -/
def brimfulParams : ChainParams :=
  { ChainParams.main with
    powLimit := BitVec.allOnes 256
    spacing := 4
    timespan := 4
    maxAdjustDown := 2 }

def brimfulBlock : Block := ⟨.zero, none, 9, 0, 1000000, ⟨0x2100ffff⟩⟩

/-- It lasts four seconds, so the target should stay, and comes down to less than half. -/
theorem adjusted_halves_brimful :
    brimfulParams.validate = .ok () ∧ brimfulParams.noRetargeting = false ∧
    brimfulBlock.bits.toTarget ≤ brimfulParams.powLimit ∧
    exactBits brimfulParams brimfulBlock.bits.toTarget
        (boundedTime brimfulParams (brimfulBlock.time - 999996)) =
      ⟨0x2100ffff⟩ ∧
    adjusted brimfulParams brimfulBlock 999996 = .ok ⟨0x207fff00⟩ := by
  decide

end SporkNode.Work.Interval
