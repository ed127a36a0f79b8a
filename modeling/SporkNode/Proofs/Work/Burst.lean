import SporkNode.Proofs.Work.Easing

/-!
Bursts. When the ten newest blocks came in less than half a spacing, nothing older is looked at for
the speed of the chain: ten blocks are set against ten spacings, and what they took counts for half
a spacing at most. That divides by twenty, and all that was gained before is a factor of two, so the
next target is a tenth of the limit at most, and a tenth of the easiest target of its algorithm. For
this the burst must be measured as one, and ten spacings must fit in a word.
-/

namespace SporkNode.Work

/-- A sixty-four-bit word is the same for a number and for what it wraps to. -/
theorem unsignedWord_of_signed {n m : Int} {o : Overflow} (h : o.signed n = .ok m) :
    unsignedWord m = unsignedWord n := by
  unfold unsignedWord
  rw [Overflow.emod_of_signed h]

/-- To multiply by `a` and to divide by twenty times as much. -/
theorem div_twentieth {product t a e : Nat} (hshort : 20 * a ≤ e) (hpos : 0 < a)
    (hproduct : product ≤ t * a) : 20 * (product / e) ≤ t := by
  apply Nat.le_of_mul_le_mul_right _ hpos
  calc
    20 * (product / e) * a = product / e * (20 * a) := by rw [Nat.mul_comm 20, Nat.mul_assoc]
    _ ≤ product / e * e := Nat.mul_le_mul_left _ hshort
    _ ≤ product := Nat.div_mul_le_self _ _
    _ ≤ t * a := hproduct

/-- Ten blocks in less than half the spacing of one, scaled. -/
theorem scaleByTime_burst {t u : Target} {actual expected spacing : Int} {o : Overflow}
    (hspacing : 2 ≤ spacing) (hword : Wave.fastBlocks * spacing < UInt64.size)
    (hexpected : o.signed (Wave.fastBlocks * spacing) = .ok expected)
    (hburst : actual < spacing.tdiv 2) (h : scaleByTime t actual expected o = .ok u) :
    20 * u.toNat ≤ t.toNat := by
  have hhalf : spacing.tdiv 2 = spacing / 2 := Int.tdiv_eq_ediv_of_nonneg (by omega)
  have hten : Wave.fastBlocks * spacing = 10 * spacing := rfl
  rw [hten, natCast_wordSize] at hword
  rw [hten] at hexpected
  obtain ⟨most, -, h⟩ := bind_eq_ok.1 h
  obtain ⟨time, htime, h⟩ := bind_eq_ok.1 h
  cases h
  have hlow := (clamp_bounds htime).1
  -- a time before the oldest of the ten is taken for a second, which is no more than half of two
  have hhigh := clamp_le htime
  have hword_time : unsignedWord time = time.toNat := by
    rw [unsignedWord, natCast_wordSize, Int.emod_eq_of_lt (by omega) (by omega)]
  have hword_expected : unsignedWord expected = (10 * spacing).toNat := by
    rw [unsignedWord_of_signed hexpected, unsignedWord, natCast_wordSize,
      Int.emod_eq_of_lt (by omega) (by omega)]
  have hshort : 20 * unsignedWord time ≤ unsignedWord expected := by
    rw [hword_time, hword_expected]
    omega
  rw [Target.toNat_divide, Target.toNat_scale, Nat.mod_eq_of_lt (unsignedWord_lt expected)]
  exact div_twentieth hshort (by omega) (Nat.mod_le _ _)

namespace Wave

variable {params : ChainParams} {network : NetworkParameters} {tip tenth : Block}
  {history : List Block} {candidate : Candidate} {s : Survey} {own t : Target} {o : Overflow}

theorem targetOf_burst {gap : Int} (hspacing : 2 ≤ params.spacing)
    (hword : fastBlocks * params.spacing < UInt64.size)
    (hforce : handbrakeForce candidate.version (tip.height + 1) params network = 1)
    (hcount : s.chain.count = fastBlocks) (hgap : o.signed (tip.time - s.cursor.time) = .ok gap)
    (hburst : gap < params.spacing.tdiv 2)
    (h : targetOf params network tip candidate s o = .ok t) :
    ∃ own, ownTarget params (interleave (fixActive tip.height params network)) tip s o = .ok own ∧
      20 * t.toNat ≤ own.toNat := by
  obtain ⟨own, expected, actual, scaled, hown, hexpected, hactual, hscaled, hle⟩ :=
    targetOf_le_scaled hforce h
  rw [hcount] at hexpected
  obtain rfl := eq_of_ok hgap hactual
  have htwentieth := scaleByTime_burst hspacing hword hexpected hburst hscaled
  rw [BitVec.le_def] at hle
  exact ⟨own, hown, by omega⟩

/-- A burst that was measured cuts the survey down to its ten blocks, and what the algorithm's own
blocks make of it is divided by twenty. -/
theorem nextTarget_burst_eq_ok {gap : Int} {bits : CompactTarget} (hspacing : 2 ≤ params.spacing)
    (hword : fastBlocks * params.spacing < UInt64.size) (hr : params.noRetargeting = false)
    (hc : Complete tip history) (hpast : (window params network tip).own ≤ tip.height)
    (hforce : handbrakeForce candidate.version (tip.height + 1) params network = 1)
    (htenth : (tip :: history)[9]? = some tenth)
    (hgap : o.signed (tip.time - tenth.time) = .ok gap) (hburst : gap < params.spacing.tdiv 2)
    (h : nextTarget params network tip history candidate o = .ok bits) :
    ∃ s own t, survey params (window params network tip) tip history candidate o = .ok s ∧
      ownTarget params (interleave (fixActive tip.height params network)) tip s o = .ok own ∧
      bits = .ofTarget t ∧ 20 * t.toNat ≤ own.toNat := by
  have hp := plan_window hr hpast
  obtain ⟨hleast, hmost⟩ := reach_bounds hc (algorithmTag candidate.version) hpast
  obtain ⟨s, hwalk⟩ := walk_ok candidate hp hc
  have hs := Survey.walk_covers (window_of_plan hp).1 (own_bounds_of_plan hp).1 hwalk
  have hlast : ((tip :: history).take fastBlocks).getLastD tip = tenth :=
    getLastD_take (by decide : 0 < fastBlocks) htenth tip
  have hearliest : s.chainFast.earliest = tenth := by
    rw [chainFast_of_covers hs hleast]
    exact hlast
  rw [← hearliest] at hgap
  obtain ⟨measured, t, hmeasured, ht, rfl⟩ := nextTarget_eq_ok hp hwalk h
  obtain rfl := eq_of_ok hgap hmeasured
  have hcount := defended_count hs hleast hmost gap params.spacing
  have hage := defended_age hs hleast gap params.spacing
  rw [if_pos hburst] at hcount hage
  rw [age, hlast, ← hearliest] at hage
  obtain ⟨own, hown, htwentieth⟩ :=
    targetOf_burst hspacing hword hforce hcount (hage ▸ hgap) hburst ht
  exact ⟨_, own, t, survey_of_walk hwalk hgap, hown, rfl, htwentieth⟩

/-- For sound parameters with a spacing of two seconds or more of which ten fit in a word, a
complete chain with targets within the limit and a tip past the first blocks: there is an answer,
unless a time overflows. Whatever becomes of that, if the ten newest blocks were measured to have
taken less than half a spacing, the target of an unbraked block is a tenth of the limit at most, and
where two blocks of its algorithm or more were met a tenth of the easiest of their targets. -/
theorem nextTarget_burst (hv : params.validate = .ok ()) (hr : params.noRetargeting = false)
    (hspacing : 2 ≤ params.spacing) (hword : fastBlocks * params.spacing < UInt64.size)
    (hc : Complete tip history) (hpast : (window params network tip).own ≤ tip.height)
    (hforce : handbrakeForce candidate.version (tip.height + 1) params network = 1)
    (hbits : ∀ b ∈ walked params network tip history candidate,
      b.bits.decode.target ≤ params.powLimit)
    (htenth : (tip :: history)[9]? = some tenth) :
    Settles (nextTarget params network tip history candidate ·) (fun _ => True) ∧
    ∀ o gap bits, o.signed (tip.time - tenth.time) = .ok gap → gap < params.spacing.tdiv 2 →
      nextTarget params network tip history candidate o = .ok bits →
      10 * bits.decode.target.toNat ≤ params.powLimit.toNat ∧
      (2 ≤ (met params network tip history candidate).length →
        ∃ easiest ∈ met params network tip history candidate,
          (∀ b ∈ met params network tip history candidate,
            b.bits.decode.target.toNat ≤ easiest.bits.decode.target.toNat) ∧
          10 * bits.decode.target.toNat ≤ easiest.bits.decode.target.toNat) := by
  have hp := plan_window hr hpast
  refine ⟨nextTarget_settles network candidate (ChainParams.spacing_pos hv) hc,
    fun o gap bits hgap hburst hanswer => ?_⟩
  obtain ⟨s, own, t, hsurvey, hown, rfl, htwentieth⟩ :=
    nextTarget_burst_eq_ok hspacing hword hr hc hpast hforce htenth hgap hburst hanswer
  have hread := BitVec.le_def.1 (CompactTarget.decode_ofTarget_le t)
  constructor
  · have hmet : ∀ b ∈ met params network tip history candidate,
        b.bits.toTarget.toNat ≤ params.powLimit.toNat :=
      fun b hb => BitVec.le_def.1 (hbits b (List.mem_of_mem_filter hb))
    have hlimit := ownTarget_le_limit (fun _ => survey_average_le hp hsurvey hmet) hown
    omega
  · intro hmany
    obtain ⟨easiest, hmem, hmost⟩ := exists_easiest (Nat.lt_of_lt_of_le Nat.two_pos hmany)
    have htwo : 1 < s.own.count := by
      rw [(survey_series hp hsurvey).1]
      exact hmany
    have hdouble := ownTarget_le htwo (survey_average_le hp hsurvey hmost) hown
    refine ⟨easiest, hmem, hmost, ?_⟩
    have heasiest : own.toNat ≤ 2 * easiest.bits.decode.target.toNat := hdouble
    omega

/-- A slow chain of one algorithm at the limit, and on top of it ten blocks of another that took
less than a minute. -/
def rushedBlock (height : Nat) : Block :=
  if height ≤ 10 then ⟨.zero, none, height, 0x100, 1200 * height, ChainParams.main.limitBits⟩
  else ⟨.zero, none, height, 0, 12000 + 6 * height, ChainParams.main.limitBits⟩

def rushedCandidate : Candidate := ⟨0x100, 12300⟩

/-- The algorithm has waited and gains all that it can; the burst leaves it less than a tenth. -/
theorem nextTarget_burst_rushed :
    ChainParams.main.validate = .ok () ∧ ChainParams.main.noRetargeting = false ∧
    2 ≤ ChainParams.main.spacing ∧ fastBlocks * ChainParams.main.spacing < UInt64.size ∧
    Complete (rushedBlock 20) (below rushedBlock 20) ∧
    (window .main (fixSet true) (rushedBlock 20)).own ≤ (rushedBlock 20).height ∧
    handbrakeForce rushedCandidate.version 21 .main (fixSet true) = 1 ∧
    (∀ b ∈ walked .main (fixSet true) (rushedBlock 20) (below rushedBlock 20) rushedCandidate,
      b.bits.decode.target ≤ ChainParams.main.powLimit) ∧
    (rushedBlock 20 :: below rushedBlock 20)[9]? = some (rushedBlock 11) ∧
    Overflow.faults.signed ((rushedBlock 20).time - (rushedBlock 11).time) = .ok 54 ∧
    54 < ChainParams.main.spacing.tdiv 2 ∧
    nextTarget .main (fixSet true) (rushedBlock 20) (below rushedBlock 20) rushedCandidate .faults =
      .ok ⟨0x1e0170a3⟩ ∧
    10 * (⟨0x1e0170a3⟩ : CompactTarget).decode.target.toNat ≤ ChainParams.main.powLimit.toNat ∧
    (met .main (fixSet true) (rushedBlock 20) (below rushedBlock 20)
      rushedCandidate).length = 10 ∧
    ∃ easiest ∈ met .main (fixSet true) (rushedBlock 20) (below rushedBlock 20) rushedCandidate,
      10 * (⟨0x1e0170a3⟩ : CompactTarget).decode.target.toNat ≤
        easiest.bits.decode.target.toNat := by
  have hv : ChainParams.main.validate = .ok () := by decide
  have hspacing : 2 ≤ ChainParams.main.spacing := by decide
  have hword : fastBlocks * ChainParams.main.spacing < UInt64.size := by decide
  have hc : Complete (rushedBlock 20) (below rushedBlock 20) := by decide
  have hpast : (window .main (fixSet true) (rushedBlock 20)).own ≤ (rushedBlock 20).height := by
    decide
  have hforce : handbrakeForce rushedCandidate.version 21 .main (fixSet true) = 1 := by decide
  have hbits : ∀ b ∈ walked .main (fixSet true) (rushedBlock 20) (below rushedBlock 20)
      rushedCandidate, b.bits.decode.target ≤ ChainParams.main.powLimit := by decide +kernel
  have htenth : (rushedBlock 20 :: below rushedBlock 20)[9]? = some (rushedBlock 11) := by
    decide +kernel
  have hgap : Overflow.faults.signed ((rushedBlock 20).time - (rushedBlock 11).time) = .ok 54 := by
    decide
  have hburst : 54 < ChainParams.main.spacing.tdiv 2 := by decide
  have hmet : (met .main (fixSet true) (rushedBlock 20) (below rushedBlock 20)
      rushedCandidate).length = 10 := by decide +kernel
  have hanswer : nextTarget .main (fixSet true) (rushedBlock 20) (below rushedBlock 20)
      rushedCandidate .faults = .ok ⟨0x1e0170a3⟩ := by decide +kernel
  obtain ⟨-, hall⟩ := nextTarget_burst hv rfl hspacing hword hc hpast hforce hbits htenth
  obtain ⟨htenfold, heasier⟩ := hall .faults 54 _ hgap hburst hanswer
  obtain ⟨easiest, hmem, -, hle⟩ := heasier (by rw [hmet]; decide)
  exact ⟨hv, rfl, hspacing, hword, hc, hpast, hforce, hbits, htenth, hgap, hburst, hanswer,
    htenfold, hmet, easiest, hmem, hle⟩

/-- A burst that does not bite: where overflows wrap an unbraked block is found at the limit after
it, and where they are faults there is no answer. -/
structure Unbitten (params : ChainParams) (network : NetworkParameters) (tip tenth : Block)
    (history : List Block) (candidate : Candidate) : Prop where
  sound : params.validate = .ok ()
  retargets : params.noRetargeting = false
  spacing : 2 ≤ params.spacing
  complete : Complete tip history
  past : (window params network tip).own ≤ tip.height
  unbraked : handbrakeForce candidate.version (tip.height + 1) params network = 1
  within : ∀ b ∈ walked params network tip history candidate,
    b.bits.decode.target ≤ params.powLimit
  oldest : (tip :: history)[9]? = some tenth
  burst : tip.time - tenth.time < params.spacing.tdiv 2
  wrapped : nextTarget params network tip history candidate .wraps = .ok params.limitBits
  faulted : nextTarget params network tip history candidate .faults =
    .error (.undefined .overflow)
  above : ¬ 10 * params.limitBits.decode.target.toNat ≤ params.powLimit.toNat

/-- A chain whose tip bears a time so long before those of its other blocks that the difference does
not fit. -/
def sunkenBlock (height : Nat) : Block :=
  ⟨.zero, none, height, 0,
    if height = 20 then 10 - signedSize else if height = 19 then 0 else 1000 + height,
    ChainParams.main.limitBits⟩

/-- Ten spacings of this length come to four more than the size of a word. -/
def longSpacing : ChainParams :=
  { ChainParams.main with spacing := 1844674407370955162, timespan := 1844674407370955162 }

/-- A chain that finds a block every second. -/
def swiftBlock (height : Nat) : Block :=
  ⟨.zero, none, height, 0, height, ChainParams.main.limitBits⟩

/-- A tip before its ancestors is taken for one long after them, and ten long spacings for four
seconds. -/
theorem burst_unnoticed :
    Unbitten .main (fixSet true) (sunkenBlock 20) (sunkenBlock 11) (below sunkenBlock 20)
      ⟨0x100, 0⟩ ∧
    Unbitten longSpacing (fixSet true) (swiftBlock 20) (swiftBlock 11) (below swiftBlock 20)
      ⟨0x100, 0⟩ := by
  constructor
  all_goals constructor
  all_goals decide +kernel

end Wave

end SporkNode.Work
