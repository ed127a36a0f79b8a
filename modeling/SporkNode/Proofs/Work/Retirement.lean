import SporkNode.Proofs.Work.Walk

/-!
The brake on a retired algorithm. Its force divides whatever the wave makes of the chain, and no
clamp undoes that: the limit times the force wraps, but to more than the limit. The decay comes
after the brake and knows nothing of it. So a block of the retired algorithm is held to its bound
exactly while no halving is owed, and after a long silence it may be found at the limit.
-/

namespace SporkNode.Work

variable {params : ChainParams} {network : NetworkParameters} {tip : Block}
  {history : List Block} {candidate : Candidate} {o : Overflow}

namespace Wave

theorem plan_average (network : NetworkParameters) (hr : params.noRetargeting = false)
    (h : 25 ≤ tip.height) : ∃ w, plan params network tip = .average w := by
  have hown : fastOwn * interleave (fixActive tip.height params network) ≤ 25 := by
    cases fixActive tip.height params network <;> decide
  unfold plan
  rw [hr, if_neg Bool.false_ne_true]
  dsimp only
  generalize fastOwn * interleave (fixActive tip.height params network) = own at hown ⊢
  generalize (if fixActive tip.height params network = true then 576
    else fastBlocks * interleave (fixActive tip.height params network) * 100) = full
  split
  · rw [if_neg (by omega)]
    exact ⟨_, rfl⟩
  · exact ⟨_, rfl⟩

theorem targetOf_retired {s : Survey} {t : Target} {a : Algorithm} {r : Retirement}
    (htag : algorithmTag candidate.version = a.tag) (hr : params.retirement? a = some r)
    (hheight : r.afterHeight ≤ tip.height) (hforce : r.force ≠ 0)
    (hwide : params.powLimit ≤ params.powLimit.scale r.force.toNat)
    (h : targetOf params network tip candidate s o = .ok t) :
    t ≤ params.powLimit.divide r.force.toNat := by
  obtain ⟨own, expected, actual, scaled, -, -, -, -, rfl⟩ := targetOf_eq_ok h
  have hlimited := limited_le params.powLimit scaled candidate.version (tip.height + 1)
  rw [handbrakeForce_retired htag hr (Nat.lt_succ_of_le hheight),
    applyHandbrake_of_le hforce hwide hlimited]
  exact Target.divide_mono hlimited _

end Wave

/-! ## The main and the test network -/

/-- What an algorithm's targets are held to once it is retired. -/
def retiredBound (params : ChainParams) : Target := params.powLimit.divide 4070908800

/-- A block of the retired algorithm is to be found on a chain past the height of retirement,
`gap` seconds after its tip. -/
structure AfterRetirement (params : ChainParams) (fixed : Bool) (gap : Int)
    (network : NetworkParameters) (tip : Block) (history : List Block) (candidate : Candidate) :
    Prop where
  complete : Complete tip history
  height : 97610 ≤ tip.height
  spacingFix : fixActive tip.height params network = fixed
  algorithm : algorithmTag candidate.version = Algorithm.timeTravel.tag
  late : candidate.time - tip.time = gap

section

variable {fixed : Bool} {gap : Int} (hp : params = .main ∨ params = .test)

include hp

theorem retirement_params :
    params.noRetargeting = false ∧ params.allowMinDifficulty = false ∧ params.spacing = 120 ∧
      params.retirement? .timeTravel = some ⟨.timeTravel, 97610, 4070908800⟩ ∧
      params.powLimit ≤ params.powLimit.scale 4070908800 := by
  rcases hp with rfl | rfl <;> decide

theorem spacing_of_preset : 0 < params.spacing ∧ 2 * params.spacing < signedSize := by
  rcases hp with rfl | rfl <;> decide

theorem timesFit_of_preset {w : Window} (hw : Wave.plan params network tip = .average w) :
    w.TimesFit params (interleave (fixActive tip.height params network)) := by
  obtain ⟨-, -, hs, -⟩ := retirement_params hp
  have hsigned := signedSize_eq
  have hsizes : ∀ fixed, Wave.fullBlocks fixed ≤ 5000 ∧
      Wave.fastOwn * interleave fixed * interleave fixed ≤ 125 := by decide
  obtain ⟨hfull, hshare⟩ := hsizes (fixActive tip.height params network)
  obtain ⟨hblocks, hown, -⟩ := Wave.blocks_of_plan hw
  rw [← hown] at hshare
  constructor
  · rw [Window.ownTime, hs, Int.mul_right_comm]
    omega
  · rw [Window.time, hs]
    omega

/-- The wave's bits are within the bound, and the decay doubles them once for each halving. -/
theorem AfterRetirement.nextWork_eq
    (h : AfterRetirement params fixed gap network tip history candidate) (hgap : FitsSigned gap) :
    ∃ bits : CompactTarget, bits.decode.target ≤ retiredBound params ∧
      nextWork params network tip history candidate .wraps =
        .ok (Decay.eased params (Decay.owed params fixed gap) bits) := by
  obtain ⟨hr, -, -, hretired, hwide⟩ := retirement_params hp
  obtain ⟨hspacing, hdouble⟩ := spacing_of_preset hp
  have hheight := h.height
  obtain ⟨bits, hbits⟩ := Wave.nextTarget_wraps network candidate hspacing h.complete
    fun w hw => timesFit_of_preset hp hw
  refine ⟨bits, ?_, ?_⟩
  · obtain ⟨w, hw⟩ := Wave.plan_average network hr (by omega : 25 ≤ tip.height)
    unfold Wave.nextTarget at hbits
    rw [hw] at hbits
    obtain ⟨s, -, hbits⟩ := bind_eq_ok.1 hbits
    obtain ⟨t, ht, hbits⟩ := bind_eq_ok.1 hbits
    cases hbits
    exact BitVec.le_trans (CompactTarget.decode_ofTarget_le t)
      (Wave.targetOf_retired h.algorithm hretired h.height (by decide) hwide ht)
  · rw [← h.late] at hgap ⊢
    rw [nextWork_eq_ok hspacing hdouble hbits (Overflow.signed_of_fits hgap .wraps), h.spacingFix]

/-- However late the candidate: one doubling of the bound for each halving owed. -/
theorem AfterRetirement.nextWork_le
    (h : AfterRetirement params fixed gap network tip history candidate) (hgap : FitsSigned gap) :
    Answers (nextWork params network tip history candidate ·) fun bits =>
      bits.decode.target.toNat ≤
        (retiredBound params).toNat * 2 ^ (Decay.owed params fixed gap).toNat := by
  obtain ⟨bits, hbound, hnext⟩ := h.nextWork_eq hp hgap
  obtain ⟨-, hmin, -⟩ := retirement_params hp
  apply (nextWork_settles network candidate (spacing_of_preset hp).1 h.complete).answers hnext
  refine Nat.le_trans (Decay.toNat_decode_eased_le hmin _ bits) ?_
  exact Nat.mul_le_mul_right _ (BitVec.le_def.1 hbound)

end

/-! ## A chain that waits -/

/-- The block at a height of a chain that finds a block at the limit every twenty minutes, all of
the algorithm that is retired. -/
def slowBlock (height : Nat) : Block :=
  ⟨.zero, none, height, 0, 1200 * (height + 1), ChainParams.main.limitBits⟩

def slowHistory : List Block := below slowBlock 97610

def lateCandidate (gap : Int) : Candidate := ⟨0, (slowBlock 97610).time + gap⟩

theorem afterRetirement_slow (params : ChainParams) (fixed : Bool) (gap : Int) :
    AfterRetirement params fixed gap (fixSet fixed) (slowBlock 97610) slowHistory
      (lateCandidate gap) where
  complete := complete_below (fun _ => rfl) 97610
  height := Nat.le_refl _
  spacingFix := by
    show decide ((if fixed then 0 else disabledHeight) ≤ signedHeight 97610) = fixed
    cases fixed <;> decide
  algorithm := by
    show algorithmTag 0 = Algorithm.timeTravel.tag
    decide
  late := by
    show (slowBlock 97610).time + gap - (slowBlock 97610).time = gap
    omega

/-- The slow chain brings the wave up to the limit, so that the brake is all that is left. -/
theorem nextTarget_slow (hp : params = .main ∨ params = .test) (fixed : Bool) (gap : Int)
    (o : Overflow) :
    Wave.nextTarget params (fixSet fixed) (slowBlock 97610) slowHistory
      (lateCandidate gap) o = .ok (.ofTarget (retiredBound params)) := by
  rw [lateCandidate, Wave.nextTarget_time _ _ 0]
  rcases hp with rfl | rfl <;> cases fixed <;> cases o <;> decide +kernel

theorem nextWork_slow (hp : params = .main ∨ params = .test) (fixed : Bool) {gap : Int}
    (hgap : FitsSigned gap) (o : Overflow) :
    nextWork params (fixSet fixed) (slowBlock 97610) slowHistory (lateCandidate gap) o =
      .ok (Decay.eased params (Decay.owed params fixed gap) (.ofTarget (retiredBound params))) := by
  have h := afterRetirement_slow params fixed gap
  obtain ⟨hspacing, hdouble⟩ := spacing_of_preset hp
  have hmeasured : o.signed ((lateCandidate gap).time - (slowBlock 97610).time) = .ok gap := by
    rw [h.late]
    exact Overflow.signed_of_fits hgap o
  rw [nextWork_eq_ok hspacing hdouble (nextTarget_slow hp fixed gap o) hmeasured, h.spacingFix]

/-- In every state of the chain and of the network, whatever the handbrake: the retired algorithm
is held to its bound, doubled for each halving that the gap owes. The bound itself holds for all
chains exactly for the gaps that owe none. -/
theorem retired_within_bound_iff (hp : params = .main ∨ params = .test) (fixed : Bool)
    {gap : Int} (hgap : FitsSigned gap) :
    (∀ network tip history candidate,
      AfterRetirement params fixed gap network tip history candidate →
      Answers (nextWork params network tip history candidate ·) fun bits =>
        bits.decode.target.toNat ≤
          (retiredBound params).toNat * 2 ^ (Decay.owed params fixed gap).toNat) ∧
    ((∀ network tip history candidate,
      AfterRetirement params fixed gap network tip history candidate →
      Answers (nextWork params network tip history candidate ·) fun bits =>
        bits.decode.target ≤ retiredBound params) ↔
      gap < 2 * params.spacing * interleave fixed) := by
  rw [← Decay.owed_nonpos_iff (spacing_of_preset hp).1]
  refine ⟨fun network tip history candidate h => h.nextWork_le hp hgap, ?_, ?_⟩
  · intro hall
    have hle := (hall _ _ _ _ (afterRetirement_slow params fixed gap)).of_faults
      (nextWork_slow hp fixed hgap .faults)
    apply Int.not_lt.1
    intro howed
    obtain ⟨hpos, hroom⟩ : 0 < (retiredBound params).toNat ∧
        2 * (retiredBound params).toNat ≤ params.powLimit.toNat := by
      rcases hp with rfl | rfl <;> decide
    exact absurd (Decay.lt_decode_eased hpos hroom howed) (BitVec.not_lt.2 hle)
  · intro hnone network tip history candidate h
    apply (h.nextWork_le hp hgap).imp
    intro bits hle
    rw [Int.toNat_of_nonpos hnone, Nat.pow_zero, Nat.mul_one] at hle
    exact BitVec.le_def.2 hle

/-- With the spacing fix, a second before the first halving. -/
theorem retired_within_bound_iff_slow :
    (ChainParams.main = .main ∨ ChainParams.main = .test) ∧ FitsSigned 479 ∧
    AfterRetirement .main true 479 (fixSet true) (slowBlock 97610) slowHistory
      (lateCandidate 479) ∧
    Answers (nextWork .main (fixSet true) (slowBlock 97610) slowHistory (lateCandidate 479) ·)
      fun bits => bits.decode.target ≤ retiredBound .main := by
  have hgap : FitsSigned 479 := by decide
  have h := afterRetirement_slow .main true 479
  exact ⟨.inl rfl, hgap, h,
    (retired_within_bound_iff (.inl rfl) true hgap).2.2 (by decide) _ _ _ _ h⟩

/-- After a day of silence a block of the retired algorithm may be found at the limit. -/
theorem retired_at_limit_after_day :
    AfterRetirement .main false 86400 (fixSet false) (slowBlock 97610) slowHistory
      (lateCandidate 86400) ∧
    nextWork .main (fixSet false) (slowBlock 97610) slowHistory (lateCandidate 86400) =
      .ok ⟨0x1e0fffff⟩ ∧
    ¬ (⟨0x1e0fffff⟩ : CompactTarget).decode.target ≤ retiredBound .main := by
  refine ⟨afterRetirement_slow .main false 86400, ?_, by decide⟩
  rw [nextWork_slow (.inl rfl) false (by decide) .faults]
  decide

end SporkNode.Work
