import Mathlib.Data.List.Induction
import SporkNode.Proofs.Numerals
import SporkNode.Proofs.Work.Average
import SporkNode.Proofs.Work.Coverage

/-!
Whether any hash proves the work required. Every stage of the wave rounds down: each scaling
divides by at most the time that a full window should take, the handbrake by its force. So targets
no less than the product of the three never come down to zero while nothing wraps. Smaller ones may
be rounded away and wider ones may wrap away, and no decay brings a target back from zero.
-/

namespace SporkNode.Work

/-- By induction from the tip on, the order in which a walk averages. -/
theorem Series.ofBlocks_within {low high : Nat} (tip : Block) {blocks : List Block}
    (hbits : ∀ b ∈ blocks, low ≤ b.bits.toTarget.toNat ∧ b.bits.toTarget.toNat ≤ high)
    (hroom : high * blocks.length < 2 ^ 256) : (ofBlocks tip blocks).Within low high := by
  induction blocks using List.reverseRecOn with
  | nil => exact fun hpos => absurd hpos (Nat.lt_irrefl 0)
  | append_singleton blocks b ih =>
    have hb := hbits b (List.mem_append_right _ List.mem_cons_self)
    rw [List.length_append, List.length_singleton] at hroom
    have hbefore := ih (fun b' hb' => hbits b' (List.mem_append_left _ hb'))
      (Nat.lt_of_le_of_lt (Nat.mul_le_mul_left _ (Nat.le_succ _)) hroom)
    rw [ofBlocks_append_singleton]
    exact hbefore.push b hb hroom

/-! ## What a hash can meet -/

theorem checkProof_zero_iff {bits : CompactTarget} {params : ChainParams} :
    checkProof .zero bits params = true ↔
      bits.decode.isValid = true ∧ bits.decode.target ≤ params.powLimit := by
  simp [checkProof, Hash.toNat_zero]

namespace CompactTarget

/-- Of the bits that the rules write, all but zero can be met. -/
theorem Under.met_iff {params : ChainParams} {c : CompactTarget} (h : c.Under params.powLimit) :
    checkProof .zero c params = true ↔ c.decode.target ≠ 0 := by
  obtain ⟨hneg, hover, hle⟩ := h.decode
  rw [checkProof_zero_iff]
  simp [DecodedTarget.isValid, hneg, hover, hle]

end CompactTarget

namespace Decay

variable {params : ChainParams} {fixed : Bool} {tip : Block} {candidate : Candidate}

/-- The count of halvings is given where overflows wrap: doubled, no spacing comes to zero. -/
theorem halvings_wraps (hspacing : 0 < params.spacing) (hsize : params.spacing < signedSize) :
    ∃ n, halvings params fixed tip candidate .wraps = .ok n := by
  obtain ⟨gap, hgap⟩ := Overflow.wraps_signed (candidate.time - tip.time)
  obtain ⟨double, hdouble⟩ := Overflow.wraps_signed (2 * params.spacing)
  have hne : double ≠ 0 := by
    have hcongr := Overflow.emod_of_signed hdouble
    rw [natCast_wordSize] at hcongr
    rw [signedSize_eq] at hsize
    omega
  exact ⟨gap.tdiv double - interleave fixed + 1,
    bind_eq_ok.2 ⟨gap, hgap, bind_eq_ok.2 ⟨double, hdouble, if_neg hne⟩⟩⟩

theorem eased_under {bits : CompactTarget} (h : bits.Under params.powLimit) (n : Int) :
    (eased params n bits).Under params.powLimit := by
  unfold eased
  split
  · exact h
  · exact ⟨_, relaxed_le params bits.toTarget n.toNat, rfl⟩

/-- Where late blocks may not be found at the limit, zero stays zero. -/
theorem relaxed_zero (hmin : ¬ params.allowMinDifficulty = true) (n : Nat) :
    relaxed params 0 n = 0 := by
  apply BitVec.eq_of_toNat_eq
  rw [toNat_relaxed, if_neg hmin]
  simp

/-- No halving brings a target back from zero, except where late blocks may be found at the
limit. -/
theorem eased_ne_zero_iff (hlimit : params.powLimit ≠ 0) {bits : CompactTarget} (n : Int) :
    (eased params n bits).decode.target ≠ 0 ↔
      bits.decode.target ≠ 0 ∨ params.allowMinDifficulty = true ∧ 0 < n := by
  by_cases hbits : bits.decode.target = 0
  · rw [or_iff_right (not_not_intro hbits)]
    by_cases hn : n ≤ 0
    · rw [eased, if_pos hn]
      exact iff_of_false (not_not_intro hbits) fun h => Int.not_le.2 h.2 hn
    · rw [eased, if_neg hn]
      by_cases hmin : params.allowMinDifficulty = true
      · have hrelaxed : relaxed params bits.toTarget n.toNat = params.powLimit := if_pos (.inl hmin)
        rw [hrelaxed]
        exact iff_of_true (CompactTarget.decode_ofTarget_ne_zero hlimit) ⟨hmin, Int.not_le.1 hn⟩
      · rw [CompactTarget.toTarget, hbits, relaxed_zero hmin]
        have hzero := BitVec.le_zero_iff.1 (CompactTarget.decode_ofTarget_le 0)
        exact iff_of_false (not_not_intro hzero) fun h => hmin h.1
  · exact iff_of_true (eased_ne_zero hlimit hbits n) (.inl hbits)

end Decay

namespace Wave

variable {params : ChainParams} {network : NetworkParameters} {tip : Block}
  {history : List Block} {candidate : Candidate} {w : Window} {s : Survey} {low high : Nat}
  {factor : Int} {o : Overflow}

theorem le_limited {powLimit target : Target} {n : Nat} (hlimit : n ≤ powLimit.toNat)
    (h : n ≤ target.toNat) (version : Int32) (height : Nat) :
    n ≤ (limited powLimit target (efficiencyOf version height)).toNat := by
  rw [limited_eq]
  split
  · exact h
  · exact hlimit

theorem Surveyed.ownDefended_within (hs : Surveyed w s)
    (h : s.own.Within low high ∧ s.ownFast.Within low high) (hown : 1 < s.own.count)
    (gap round : Int) :
    low ≤ (s.ownDefended gap round).average.toNat ∧
      (s.ownDefended gap round).average.toNat ≤ high := by
  have hpos := (hs.ownDefended_count hown gap round).1
  revert hpos
  unfold Survey.ownDefended
  split
  · exact h.2
  · exact h.1

/-- The averages keep to the bounds of the targets met. -/
theorem survey_within (hp : plan params network tip = .average w)
    (h : survey params w tip history candidate o = .ok s)
    (hbits : ∀ b ∈ met params network tip history candidate,
      low ≤ b.bits.toTarget.toNat ∧ b.bits.toTarget.toNat ≤ high)
    (hroom : high * (met params network tip history candidate).length < 2 ^ 256) :
    s.own.Within low high ∧ s.ownFast.Within low high := by
  obtain ⟨hown, hownFast⟩ := survey_series hp h
  rw [hown, hownFast]
  refine ⟨Series.ofBlocks_within tip hbits hroom, Series.ofBlocks_within tip ?_ ?_⟩
  · intro b hb
    exact hbits b (List.mem_of_mem_take hb)
  · exact Nat.lt_of_le_of_lt (Nat.mul_le_mul_left _ (List.length_take_le' _ _)) hroom

/-- Neither scaling of a survey passes 256 bits. -/
structure Unwrapped (params : ChainParams) (factor : Int) (tip : Block) (s : Survey)
    (o : Overflow) : Prop where
  own : 1 < s.own.count → ∀ gap round actual,
    o.signed (tip.time - s.ownFast.earliest.time) = .ok gap →
    o.signed (params.spacing * factor) = .ok round →
    o.signed (tip.time - (s.ownDefended gap round).earliest.time) = .ok actual →
    timeProduct (s.ownDefended gap round).average actual
      ((s.ownDefended gap round).count * params.spacing * factor) < 2 ^ 256
  chain : ∀ own actual, ownTarget params factor tip s o = .ok own →
    o.signed (tip.time - s.cursor.time) = .ok actual →
    timeProduct own actual (s.chain.count * params.spacing) < 2 ^ 256

/-- A quotient by at most the expected time. -/
theorem le_of_scaled {t : Target} {actual expected most : Int} {n : Nat} (hpos : 0 < expected)
    (hle : expected ≤ most) (hfits : 2 * most < signedSize)
    (hproduct : timeProduct t actual expected < 2 ^ 256) (h : n * most.toNat ≤ t.toNat) :
    n ≤ (timeScaled t actual expected).toNat := by
  refine Nat.le_trans ?_ (le_timeScaled hpos (by omega) hproduct)
  rw [Nat.le_div_iff_mul_le (by omega)]
  exact Nat.le_trans (Nat.mul_le_mul_left n (by omega)) h

/-- What the scaling of the chain and the handbrake cannot bring down to zero. -/
def leastTarget (params : ChainParams) (network : NetworkParameters) (tip : Block)
    (candidate : Candidate) (w : Window) : Nat :=
  (handbrakeForce candidate.version (tip.height + 1) params network).toNat *
    (w.time params).toNat

/-- Targets that are not so small as to be rounded away, nor so wide as to wrap. Those of the
candidate's algorithm matter only where the walk has met two of its blocks or more. -/
structure Roomy (params : ChainParams) (network : NetworkParameters) (tip : Block)
    (history : List Block) (candidate : Candidate) (w : Window) (o : Overflow) : Prop where
  times : w.TimesFit params (interleave (fixActive tip.height params network))
  limit : leastTarget params network tip candidate w ≤ params.powLimit.toNat
  targets : 1 < (met params network tip history candidate).length →
    ∀ b ∈ met params network tip history candidate,
      leastTarget params network tip candidate w *
          (w.ownTime params (interleave (fixActive tip.height params network))).toNat ≤
        b.bits.toTarget.toNat ∧
      b.bits.toTarget.toNat * (met params network tip history candidate).length < 2 ^ 256
  unwrapped : ∀ s, survey params w tip history candidate o = .ok s →
    Unwrapped params (interleave (fixActive tip.height params network)) tip s o

theorem le_ownTarget {own : Target} {n : Nat} (hs : Surveyed w s) (hspacing : 0 < params.spacing)
    (hfactor : 0 < factor) (htimes : w.TimesFit params factor)
    (hunwrapped : Unwrapped params factor tip s o)
    (hwithin : 1 < s.own.count →
      s.own.Within (n * (w.ownTime params factor).toNat) high ∧
        s.ownFast.Within (n * (w.ownTime params factor).toNat) high)
    (hlimit : n ≤ params.powLimit.toNat) (h : ownTarget params factor tip s o = .ok own) :
    n ≤ own.toNat := by
  by_cases hown : 1 < s.own.count
  · obtain ⟨gap, round, actual, hgap, hround, hactual, rfl⟩ :=
      ownTarget_scaled hs hspacing hfactor htimes hown h
    obtain ⟨hpos, hle⟩ := ownExpected_bounds hs hown hspacing hfactor gap round
    exact le_of_scaled hpos hle htimes.own
      (hunwrapped.own hown gap round actual hgap hround hactual)
      (hs.ownDefended_within (hwithin hown) hown gap round).1
  · rw [ownTarget_few _ _ _ _ hown] at h
    cases h
    exact hlimit

theorem Roomy.within (h : Roomy params network tip history candidate w o)
    (hp : plan params network tip = .average w)
    (hs : survey params w tip history candidate o = .ok s) (hown : 1 < s.own.count) :
    let low := leastTarget params network tip candidate w *
      (w.ownTime params (interleave (fixActive tip.height params network))).toNat
    let high := (2 ^ 256 - 1) / (met params network tip history candidate).length
    s.own.Within low high ∧ s.ownFast.Within low high := by
  have hcount : s.own.count = (met params network tip history candidate).length := by
    rw [(survey_series hp hs).1]
    rfl
  rw [hcount] at hown
  apply survey_within hp hs
  · intro b hb
    obtain ⟨hlow, hhigh⟩ := h.targets hown b hb
    refine ⟨hlow, ?_⟩
    rw [Nat.le_div_iff_mul_le (by omega)]
    omega
  · have hmost := Nat.div_mul_le_self (2 ^ 256 - 1)
      (met params network tip history candidate).length
    omega

/-- Each stage takes its factor off the least target: the algorithm's window, the whole window and
last the force, which leaves one. -/
theorem targetOf_pos {t : Target} (hp : plan params network tip = .average w)
    (hspacing : 0 < params.spacing) (hpos : 0 < params.powLimit.toNat)
    (h : Roomy params network tip history candidate w o)
    (hs : survey params w tip history candidate o = .ok s)
    (ht : targetOf params network tip candidate s o = .ok t) : 0 < t.toNat := by
  have hsurveyed := survey_surveyed hp hs
  have hfactor := Int.natCast_pos.2 (interleave_pos (fixActive tip.height params network))
  obtain ⟨own, actual, hown, hactual, rfl⟩ := targetOf_scaled hsurveyed hspacing h.times ht
  obtain ⟨hexpected, hexpected_le⟩ := expected_bounds hsurveyed hspacing
  have hunwrapped := h.unwrapped s hs
  have hown_least : leastTarget params network tip candidate w ≤ own.toNat :=
    le_ownTarget hsurveyed hspacing hfactor h.times hunwrapped (h.within hp hs) h.limit hown
  have hscaled_least := le_of_scaled hexpected hexpected_le h.times.chain
    (hunwrapped.chain own actual hown hactual) hown_least
  have htime : 0 < (w.time params).toNat :=
    Int.lt_toNat.2 (expected_pos (window_of_plan hp).1 hspacing)
  have hlimit := Nat.le_trans (Nat.le_mul_of_pos_right _ htime) h.limit
  exact applyHandbrake_pos hpos (le_limited hlimit hscaled_least _ _)

theorem nextTarget_ne_zero {bits : CompactTarget} (hr : params.noRetargeting = false)
    (hspacing : 0 < params.spacing) (hlimit : params.powLimit ≠ 0)
    (hroomy : ∀ w, plan params network tip = .average w →
      Roomy params network tip history candidate w o)
    (h : nextTarget params network tip history candidate o = .ok bits) :
    bits.decode.target ≠ 0 := by
  unfold nextTarget at h
  cases hp : plan params network tip with
  | keep => exact absurd hp (plan_ne_keep hr)
  | bootstrap =>
    rw [hp] at h
    cases h
    exact CompactTarget.decode_ofTarget_ne_zero hlimit
  | average w =>
    rw [hp] at h
    obtain ⟨s, hs, h⟩ := bind_eq_ok.1 h
    obtain ⟨t, ht, h⟩ := bind_eq_ok.1 h
    cases h
    have hpos := targetOf_pos hp hspacing (Target.toNat_pos.2 hlimit) (hroomy w hp) hs ht
    exact CompactTarget.decode_ofTarget_ne_zero (Target.toNat_pos.1 hpos)

/-- However the product wraps, the first scaling at most doubles the average. -/
theorem ownTarget_le {own : Target} (hown : 1 < s.own.count)
    (havg : ∀ gap round, (s.ownDefended gap round).average.toNat ≤ high)
    (h : ownTarget params factor tip s o = .ok own) : own.toNat ≤ 2 * high := by
  obtain ⟨gap, round, share, expected, actual, -, -, -, -, -, hscaled⟩ := ownTarget_eq_ok hown h
  exact Nat.le_trans (scaleByTime_le hscaled) (Nat.mul_le_mul_left 2 (havg gap round))

/-- With one block of its own or none an algorithm starts from the limit, else from an average that
one scaling can double. -/
theorem ownTarget_le_limit {own : Target}
    (havg : 1 < s.own.count →
      ∀ gap round, (s.ownDefended gap round).average.toNat ≤ params.powLimit.toNat)
    (h : ownTarget params factor tip s o = .ok own) : own.toNat ≤ 2 * params.powLimit.toNat := by
  by_cases hown : 1 < s.own.count
  · exact ownTarget_le hown (havg hown) h
  · rw [ownTarget_few _ _ _ _ hown] at h
    cases h
    exact Nat.le_mul_of_pos_left _ (by decide)

/-- A limit with room for every scaling of a target within it rules out all wrapping. -/
theorem Unwrapped.of_limit (hs : Surveyed w s)
    (hwithin : s.own.Within 0 params.powLimit.toNat ∧ s.ownFast.Within 0 params.powLimit.toNat)
    (hspacing : 0 < params.spacing) (hfactor : 0 < factor)
    (hown : params.powLimit.toNat * (2 * (w.ownTime params factor).toNat) < 2 ^ 256)
    (hchain : params.powLimit.toNat * (4 * (w.time params).toNat) < 2 ^ 256) :
    Unwrapped params factor tip s o := by
  have havg : 1 < s.own.count →
      ∀ gap round, (s.ownDefended gap round).average.toNat ≤ params.powLimit.toNat :=
    fun hcount gap round => (hs.ownDefended_within hwithin hcount gap round).2
  constructor
  · intro hcount gap round actual _ _ _
    obtain ⟨hpos, hle⟩ := ownExpected_bounds hs hcount hspacing hfactor gap round
    exact Nat.lt_of_le_of_lt (timeProduct_le hpos hle (havg hcount gap round)) hown
  · intro own actual h _
    have hdouble := ownTarget_le_limit havg h
    obtain ⟨hpos, hle⟩ := expected_bounds hs hspacing
    refine Nat.lt_of_le_of_lt (timeProduct_le hpos hle hdouble) ?_
    calc
      2 * params.powLimit.toNat * (2 * (w.time params).toNat)
        = params.powLimit.toNat * (4 * (w.time params).toNat) := by
          rw [Nat.mul_comm 2, Nat.mul_assoc, ← Nat.mul_assoc 2]
      _ < 2 ^ 256 := hchain

end Wave

/-- Whether the zero hash proves the work required, for sound parameters, a complete chain and any
candidate and network. Short of an overflow there is an answer. An answer, whatever becomes of
overflows, is met unless the wave came down to zero and no late block may be found at the limit. As
long as there is room where targets are averaged the wave does not come down to zero. -/
theorem nextWork_met_by_zero {params : ChainParams} {network : NetworkParameters} {tip : Block}
    {history : List Block} {candidate : Candidate} (hv : params.validate = .ok ())
    (hr : params.noRetargeting = false) (hc : Complete tip history) :
    Settles (nextWork params network tip history candidate ·) (fun _ => True) ∧
    (∀ o bits, nextWork params network tip history candidate o = .ok bits →
      ∃ waved n, Wave.nextTarget params network tip history candidate o = .ok waved ∧
        Decay.halvings params (fixActive tip.height params network) tip candidate o = .ok n ∧
        (checkProof .zero bits params = true ↔
          waved.decode.target ≠ 0 ∨ params.allowMinDifficulty = true ∧ 0 < n)) ∧
    (params.spacing < signedSize →
      (∀ w, Wave.plan params network tip = .average w →
        Wave.Roomy params network tip history candidate w .wraps) →
      Answers (nextWork params network tip history candidate ·)
        fun bits => checkProof .zero bits params = true) := by
  have hspacing := ChainParams.spacing_pos hv
  have hlimit := ChainParams.powLimit_ne_zero hv
  have hsettles := nextWork_settles network candidate hspacing hc
  have hmet : ∀ {o waved n}, Wave.nextTarget params network tip history candidate o = .ok waved →
      (checkProof .zero (Decay.eased params n waved) params = true ↔
        waved.decode.target ≠ 0 ∨ params.allowMinDifficulty = true ∧ 0 < n) := by
    intro o waved n hw
    rw [(Decay.eased_under (Wave.nextTarget_under hr hw) n).met_iff, Decay.eased_ne_zero_iff hlimit]
  refine ⟨hsettles, fun o bits h => ?_, fun hsize hroomy => ?_⟩
  · obtain ⟨waved, hw, h⟩ := bind_eq_ok.1 h
    obtain ⟨n, hn, -⟩ := bind_eq_ok.1 h
    obtain rfl := eq_of_ok h (Decay.apply_of_halvings hn waved)
    exact ⟨waved, n, hw, hn, hmet hw⟩
  · obtain ⟨waved, hw⟩ := Wave.nextTarget_wraps network candidate hspacing hc
      fun w hp => (hroomy w hp).times
    obtain ⟨n, hn⟩ : ∃ n, Decay.halvings params (fixActive tip.height params network) tip candidate
        .wraps = .ok n := Decay.halvings_wraps hspacing hsize
    have hne := Wave.nextTarget_ne_zero hr hspacing hlimit hroomy hw
    exact hsettles.answers (bind_eq_ok.2 ⟨waved, hw, Decay.apply_of_halvings hn waved⟩)
      ((hmet hw).2 (.inl hne))

/-! ## Targets worn away and targets wrapped away -/

/-- A chain that finds a block at the limit every two minutes. -/
def plainBlock (height : Nat) : Block :=
  ⟨.zero, none, height, 0x100, 120 * height, ChainParams.main.limitBits⟩

theorem plan_plain :
    Wave.plan .main (fixSet true) (plainBlock 11) = .average ⟨11, 10⟩ := by decide

theorem roomy_plain :
    Wave.Roomy .main (fixSet true) (plainBlock 11) (below plainBlock 11) ⟨0x100, 1440⟩
      ⟨11, 10⟩ .wraps where
  times := ⟨by decide, by decide⟩
  limit := by decide
  targets := by decide +kernel
  unwrapped := by
    intro s hs
    have hwithin : s.own.Within 0 ChainParams.main.powLimit.toNat ∧
        s.ownFast.Within 0 ChainParams.main.powLimit.toNat :=
      Wave.survey_within plan_plain hs (by decide +kernel) (by decide +kernel)
    exact .of_limit (Wave.survey_surveyed plan_plain hs) hwithin (by decide) (by decide)
      (by decide) (by decide)

theorem nextWork_met_by_zero_plain :
    ChainParams.main.validate = .ok () ∧ ChainParams.main.noRetargeting = false ∧
    Complete (plainBlock 11) (below plainBlock 11) ∧
    Wave.Roomy .main (fixSet true) (plainBlock 11) (below plainBlock 11) ⟨0x100, 1440⟩
      ⟨11, 10⟩ .wraps ∧
    nextWork .main (fixSet true) (plainBlock 11) (below plainBlock 11) ⟨0x100, 1440⟩ .faults =
      .ok ⟨0x1e073332⟩ ∧
    checkProof .zero ⟨0x1e073332⟩ .main = true := by
  have hv : ChainParams.main.validate = .ok () := by decide
  have hc : Complete (plainBlock 11) (below plainBlock 11) := complete_below (fun _ => rfl) 11
  have hanswer : nextWork .main (fixSet true) (plainBlock 11) (below plainBlock 11)
      ⟨0x100, 1440⟩ .faults = .ok ⟨0x1e073332⟩ := by decide +kernel
  have hroomy : ∀ w, Wave.plan .main (fixSet true) (plainBlock 11) = .average w →
      Wave.Roomy .main (fixSet true) (plainBlock 11) (below plainBlock 11) ⟨0x100, 1440⟩ w
        .wraps := by
    intro w hw
    rw [plan_plain] at hw
    cases hw
    exact roomy_plain
  have hmet := (nextWork_met_by_zero hv rfl hc).2.2 (by decide) hroomy
  exact ⟨hv, rfl, hc, roomy_plain, hanswer, hmet.of_faults hanswer⟩

/-- Sound parameters and a complete chain of legal bits require work that no hash can prove, however
late the candidate. -/
structure Unattainable (params : ChainParams) (network : NetworkParameters) (tip : Block)
    (history : List Block) (version : Int32) : Prop where
  sound : params.validate = .ok ()
  retargets : params.noRetargeting = false
  complete : Complete tip history
  legal : ∀ b ∈ tip :: history,
    b.bits.decode.isValid = true ∧ b.bits.decode.target ≤ params.powLimit
  stalled : ∀ o time, FitsSigned (time - tip.time) →
    nextWork params network tip history ⟨version, time⟩ o = .ok ⟨0⟩
  unmet : checkProof .zero ⟨0⟩ params = false

/-- From zero no decay leads back. -/
theorem nextWork_stalled {params : ChainParams} {network : NetworkParameters} {tip : Block}
    {history : List Block} {version : Int32} {time : Int} {o : Overflow}
    (hspacing : 0 < params.spacing) (hdouble : 2 * params.spacing < signedSize)
    (hmin : ¬ params.allowMinDifficulty = true)
    (h : Wave.nextTarget params network tip history ⟨version, 0⟩ o = .ok ⟨0⟩)
    (hfits : FitsSigned (time - tip.time)) :
    nextWork params network tip history ⟨version, time⟩ o = .ok ⟨0⟩ := by
  rw [Wave.nextTarget_time version 0 time] at h
  rw [nextWork_eq_ok hspacing hdouble h (Overflow.signed_of_fits hfits o), Decay.eased]
  split
  · rfl
  · have hzero : CompactTarget.toTarget ⟨0⟩ = 0 := by decide
    rw [hzero, Decay.relaxed_zero hmin]
    decide

/-- Targets one short of 2400 times 1320, the times of the two windows, on a chain whose newest and
oldest blocks bear the same time. -/
def wornBlock (height : Nat) : Block :=
  ⟨.zero, none, height, if height = 6 then 0 else 0x100,
    if 1 < height ∧ height < 11 then 880 else 1000, ⟨0x033056ff⟩⟩

/-- A limit of half the range of targets. -/
def wideParams : ChainParams := { ChainParams.main with powLimit := .ofNat (2 ^ 255) }

/-- A chain with two blocks of one algorithm on top of ten of the other. -/
def wideBlock (bits : CompactTarget) (height : Nat) : Block :=
  ⟨.zero, none, height, if height < 10 then 0 else 0x100, 120 * height, bits⟩

/-- Work that is worn away by rounding; that wraps in the sum of an average; and that wraps in a
scaling. -/
theorem unattainable_worn_and_wide :
    Unattainable .main (fixSet true) (wornBlock 11) (below wornBlock 11) 0x100 ∧
    Unattainable wideParams (fixSet true) (wideBlock ⟨0x21008000⟩ 11)
      (below (wideBlock ⟨0x21008000⟩) 11) 0x100 ∧
    Unattainable wideParams (fixSet true) (wideBlock ⟨0x21004000⟩ 11)
      (below (wideBlock ⟨0x21004000⟩) 11) 0x100 := by
  have hworn : ∀ o, Wave.nextTarget .main (fixSet true) (wornBlock 11) (below wornBlock 11)
      ⟨0x100, 0⟩ o = .ok ⟨0⟩ := by
    intro o
    cases o <;> decide +kernel
  have hsum : ∀ o, Wave.nextTarget wideParams (fixSet true) (wideBlock ⟨0x21008000⟩ 11)
      (below (wideBlock ⟨0x21008000⟩) 11) ⟨0x100, 0⟩ o = .ok ⟨0⟩ := by
    intro o
    cases o <;> decide +kernel
  have hproduct : ∀ o, Wave.nextTarget wideParams (fixSet true) (wideBlock ⟨0x21004000⟩ 11)
      (below (wideBlock ⟨0x21004000⟩) 11) ⟨0x100, 0⟩ o = .ok ⟨0⟩ := by
    intro o
    cases o <;> decide +kernel
  refine ⟨⟨?_, rfl, ?_, ?_, fun o _ => nextWork_stalled ?_ ?_ ?_ (hworn o), ?_⟩,
    ⟨?_, rfl, ?_, ?_, fun o _ => nextWork_stalled ?_ ?_ ?_ (hsum o), ?_⟩,
    ⟨?_, rfl, ?_, ?_, fun o _ => nextWork_stalled ?_ ?_ ?_ (hproduct o), ?_⟩⟩
  all_goals decide +kernel

end SporkNode.Work
