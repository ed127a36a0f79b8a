import SporkNode.Proofs.Work.Adjustment

/-!
What the end of an interval makes of the time that has elapsed. Each stage keeps the order of its
results: the bounds on the time, the product, the quotient, the limit and the writing. So a slower
interval is followed by a target that is no harder, up to where the time meets a bound.
-/

namespace SporkNode.Work.Interval

variable {params : ChainParams} {t : Target} {time time' elapsed elapsed' firstTime : Int}

/-! ## The time -/

theorem boundedTime_mono (params : ChainParams) (h : elapsed ≤ elapsed') :
    boundedTime params elapsed ≤ boundedTime params elapsed' := by
  unfold boundedTime
  omega

theorem boundedTime_of_le (h : elapsed ≤ params.timespan.tdiv params.maxAdjustDown) :
    boundedTime params elapsed = params.timespan.tdiv params.maxAdjustDown := by
  unfold boundedTime
  omega

theorem boundedTime_of_ge (hs : params.Sound)
    (h : params.timespan * params.maxAdjustUp ≤ elapsed) :
    boundedTime params elapsed = params.timespan * params.maxAdjustUp := by
  obtain ⟨hlow, hhigh⟩ := hs.range
  unfold boundedTime
  omega

theorem boundedTime_le_timespan (hs : params.Sound) (h : elapsed ≤ params.timespan) :
    boundedTime params elapsed ≤ params.timespan := by
  have hlow := hs.range.1
  unfold boundedTime
  omega

/-! ## The target -/

theorem restored_mul (params : ChainParams) (t : Target) (q n : Nat) :
    restored params t (q * n) = restored params t q * n := by
  unfold restored
  split
  · exact (Nat.mul_assoc 2 q n).symm
  · rfl

/-- A time that is `factor` times what it should be moves the target by no more than that. -/
theorem unbounded_le_mul (hspan : 0 < params.timespan) (t : Target) {factor : Nat}
    (h : time ≤ params.timespan * factor) : unbounded params t time ≤ t.toNat * factor := by
  have htime : time.toNat ≤ params.timespan.toNat * factor := by
    rw [Int.toNat_le, Int.natCast_mul, Int.toNat_of_nonneg (Int.le_of_lt hspan)]
    exact h
  have hquotient :
      multiplied params t * time.toNat / params.timespan.toNat ≤ multiplied params t * factor := by
    apply Nat.div_le_of_le_mul
    calc
      multiplied params t * time.toNat ≤ multiplied params t * (params.timespan.toNat * factor) :=
        Nat.mul_le_mul_left _ htime
      _ = params.timespan.toNat * (multiplied params t * factor) := Nat.mul_left_comm _ _ _
  calc
    unbounded params t time ≤ restored params t (multiplied params t * factor) :=
      restored_mono params t hquotient
    _ = restored params t (multiplied params t) * factor := restored_mul params t _ factor
    _ ≤ t.toNat * factor := Nat.mul_le_mul_right factor (restored_multiplied_le params t)

theorem toNat_ofNat_min (limit : Target) (n : Nat) :
    (Target.ofNat (min limit.toNat n)).toNat = min limit.toNat n := by
  rw [Target.toNat_ofNat]
  exact Nat.mod_eq_of_lt (Nat.lt_of_le_of_lt (Nat.min_le_left _ _) (Target.toNat_lt limit))

theorem toTarget_exactBits_mono (params : ChainParams) (t : Target) (h : time ≤ time') :
    (exactBits params t time).toTarget ≤ (exactBits params t time').toTarget := by
  have hmoved := unbounded_mono params t h
  apply CompactTarget.decode_ofTarget_mono
  rw [BitVec.le_def, toNat_ofNat_min, toNat_ofNat_min]
  omega

theorem toTarget_exactBits_le (params : ChainParams) (t : Target) (time : Int) :
    (exactBits params t time).toTarget.toNat ≤
      min params.powLimit.toNat (unbounded params t time) := by
  rw [← toNat_ofNat_min]
  exact BitVec.le_def.1 (CompactTarget.decode_ofTarget_le _)

theorem toTarget_exactBits_le_mul (hspan : 0 < params.timespan) (t : Target) {factor : Nat}
    (h : time ≤ params.timespan * factor) :
    (exactBits params t time).toTarget.toNat ≤ min params.powLimit.toNat (t.toNat * factor) := by
  have hanswer := toTarget_exactBits_le params t time
  have hmoved := unbounded_le_mul hspan t h
  omega

theorem adjusted_of_fits (hs : params.Sound) (hr : params.noRetargeting = false)
    (hsize : params.timespan * params.maxAdjustUp < signedSize) {tip : Block}
    (helapsed : FitsSigned (tip.time - firstTime))
    (hfits : Fits params tip.bits.toTarget (boundedTime params (tip.time - firstTime)))
    (o : Overflow) :
    adjusted params tip firstTime o =
      .ok (exactBits params tip.bits.toTarget (boundedTime params (tip.time - firstTime))) := by
  obtain ⟨hlow, hhigh⟩ := boundedTime_mem hs (tip.time - firstTime)
  have hspan := hs.range.2
  rw [adjusted_eq hs hr hsize (Overflow.signed_of_fits helapsed o), hfits.ofTarget_scaled
    ⟨hs.timespan_pos, by omega⟩ ⟨Int.le_of_lt hlow, by omega⟩]

/-- For sound parameters whose longest time fits in 64 bits, a limit that has room for its product
with that time, and a tip within the limit: the adjustment answers whenever the interval began, as
far as the time elapsed fits in 64 bits, the later the harder, within the limit and the greatest
ratio. All intervals at or below the shortest time are answered alike, and so are all at or above
the longest; one that was no longer than it should be does not ease the target. -/
theorem adjusted_by_elapsed (hv : params.validate = .ok ()) (hr : params.noRetargeting = false)
    (hsize : params.timespan * params.maxAdjustUp < signedSize)
    (hroom : params.powLimit.toNat * params.timespan * params.maxAdjustUp < 2 ^ 256) {tip : Block}
    (hle : tip.bits.toTarget ≤ params.powLimit) :
    ∃ answer : Int → CompactTarget,
      (∀ firstTime, FitsSigned (tip.time - firstTime) →
        ∀ o, adjusted params tip firstTime o = .ok (answer firstTime)) ∧
      (∀ firstTime laterTime, firstTime ≤ laterTime →
        (answer laterTime).toTarget ≤ (answer firstTime).toTarget) ∧
      ∀ firstTime,
        (answer firstTime).toTarget.toNat ≤
          min params.powLimit.toNat (tip.bits.toTarget.toNat * params.maxAdjustUp.toNat) ∧
        (tip.time - firstTime ≤ params.timespan →
          (answer firstTime).toTarget ≤ tip.bits.toTarget) ∧
        ∀ otherTime,
          (tip.time - firstTime ≤ params.timespan.tdiv params.maxAdjustDown →
            tip.time - otherTime ≤ params.timespan.tdiv params.maxAdjustDown →
            answer firstTime = answer otherTime) ∧
          (params.timespan * params.maxAdjustUp ≤ tip.time - firstTime →
            params.timespan * params.maxAdjustUp ≤ tip.time - otherTime →
            answer firstTime = answer otherTime) := by
  have hs := ChainParams.sound_of_validate hv
  have hup := hs.adjustUp
  have hlongest : Fits params tip.bits.toTarget (params.timespan * params.maxAdjustUp) := by
    have hnonneg : 0 ≤ params.timespan * params.maxAdjustUp :=
      Int.mul_nonneg (Int.le_of_lt hs.timespan_pos) (by omega)
    apply Fits.of_limit hle
    rw [← Int.ofNat_lt, Int.natCast_mul, Int.toNat_of_nonneg hnonneg, ← Int.mul_assoc]
    exact hroom
  refine ⟨fun firstTime =>
    exactBits params tip.bits.toTarget (boundedTime params (tip.time - firstTime)), ?_, ?_, ?_⟩
  · intro firstTime helapsed
    exact adjusted_of_fits hs hr hsize helapsed (hlongest.anti (boundedTime_mem hs _).2)
  · intro firstTime laterTime hlater
    exact toTarget_exactBits_mono _ _ (boundedTime_mono params (by omega))
  · intro firstTime
    refine ⟨?_, ?_, ?_⟩
    · apply toTarget_exactBits_le_mul hs.timespan_pos
      rw [Int.toNat_of_nonneg (by omega)]
      exact (boundedTime_mem hs _).2
    · intro hfast
      have honce : boundedTime params (tip.time - firstTime) ≤ params.timespan * (1 : Nat) := by
        rw [Int.natCast_one, Int.mul_one]
        exact boundedTime_le_timespan hs hfast
      have hanswer := toTarget_exactBits_le_mul hs.timespan_pos tip.bits.toTarget honce
      rw [BitVec.le_def]
      dsimp only
      omega
    · intro otherTime
      constructor
      · intro hfirst hother
        dsimp only
        rw [boundedTime_of_le hfirst, boundedTime_of_le hother]
      · intro hfirst hother
        dsimp only
        rw [boundedTime_of_ge hs hfirst, boundedTime_of_ge hs hother]

/-- An interval moves the target down to a half at the most, and up to eight times. -/
def lopsidedParams : ChainParams :=
  { ChainParams.main with timespan := 1200, maxAdjustDown := 2, maxAdjustUp := 8 }

def lopsidedTip : Block := ⟨.zero, none, 9, 0, 100000, ⟨0x1d00ffff⟩⟩

theorem adjusted_by_elapsed_lopsided :
    lopsidedParams.validate = .ok () ∧ lopsidedParams.noRetargeting = false ∧
    lopsidedParams.timespan * lopsidedParams.maxAdjustUp < signedSize ∧
    lopsidedParams.powLimit.toNat * lopsidedParams.timespan * lopsidedParams.maxAdjustUp <
      2 ^ 256 ∧
    lopsidedTip.bits.toTarget ≤ lopsidedParams.powLimit ∧
    adjusted lopsidedParams lopsidedTip 0 .wraps = .ok ⟨0x1d07fff8⟩ ∧
    adjusted lopsidedParams lopsidedTip 100001 .wraps = .ok ⟨0x1c7fff80⟩ := by
  have hv : lopsidedParams.validate = .ok () := by decide
  have hsize : lopsidedParams.timespan * lopsidedParams.maxAdjustUp < signedSize := by decide
  have hroom : lopsidedParams.powLimit.toNat * lopsidedParams.timespan *
      lopsidedParams.maxAdjustUp < 2 ^ 256 := by decide
  have hle : lopsidedTip.bits.toTarget ≤ lopsidedParams.powLimit := by decide
  obtain ⟨answer, hanswer, -, hbounds⟩ := adjusted_by_elapsed hv rfl hsize hroom hle
  -- The longest time is 9600 seconds and the shortest 600.
  have hlongest : adjusted lopsidedParams lopsidedTip 90400 .wraps = .ok ⟨0x1d07fff8⟩ := by decide
  have hshortest : adjusted lopsidedParams lopsidedTip 99400 .wraps = .ok ⟨0x1c7fff80⟩ := by decide
  refine ⟨hv, rfl, hsize, hroom, hle, ?_, ?_⟩
  · rw [hanswer 0 (by decide), ((hbounds 0).2.2 90400).2 (by decide) (by decide),
      ← hanswer 90400 (by decide) .wraps, hlongest]
  · rw [hanswer 100001 (by decide), ((hbounds 100001).2.2 99400).1 (by decide) (by decide),
      ← hanswer 99400 (by decide) .wraps, hshortest]

/-- The least limit, and an interval that is to last so long that four times that is the size of a
word. -/
def vastParams : ChainParams :=
  { ChainParams.main with powLimit := 1, timespan := 0x4000000000000000, maxAdjustUp := 4 }

def vastTip : Block := ⟨.zero, none, 9, 0, vastParams.timespan, ⟨0x01010000⟩⟩

/-- Where the longest time overflows there is no answer for an interval that lasted as it should.
Where the time elapsed does there is none, or one as if it were the longest: the interval began as
late as times go, and the target is sixteen times as easy as for one that took no time at all. -/
theorem adjusted_overflows :
    (vastParams.validate = .ok () ∧ vastParams.noRetargeting = false ∧
      vastParams.powLimit.toNat * vastParams.timespan * vastParams.maxAdjustUp < 2 ^ 256 ∧
      vastTip.bits.toTarget ≤ vastParams.powLimit ∧
      adjusted vastParams vastTip 0 .faults = .error (.undefined .overflow) ∧
      adjusted vastParams vastTip 0 .wraps = .error (.undefined .emptyRange)) ∧
    let earlyTip := { lopsidedTip with time := -10 }
    adjusted lopsidedParams earlyTip (signedSize - 1) .faults = .error (.undefined .overflow) ∧
    adjusted lopsidedParams earlyTip (signedSize - 1) .wraps = .ok ⟨0x1d07fff8⟩ ∧
    ∀ o, adjusted lopsidedParams earlyTip (-10) o = .ok ⟨0x1c7fff80⟩ := by
  refine ⟨⟨by decide, rfl, by decide, by decide, by decide, by decide⟩, by decide, by decide, ?_⟩
  intro o
  cases o <;> decide

end SporkNode.Work.Interval
