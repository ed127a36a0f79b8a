import Mathlib.Data.List.MinMax
import SporkNode.Proofs.Work.Attainable

/-!
How far one block can ease. An average is no higher than the highest of its targets, and each of the
two scalings at most doubles. Where a sum, a product or a time wraps it only comes out smaller, so
this holds of any targets and times whatever: the next target is at most four times the easiest of
those that the walk has met for the candidate's algorithm.
-/

namespace SporkNode.Work

/-- By induction on the targets averaged before the last one. -/
theorem averageOf_le {high : Nat} {targets : List Target} (hlength : targets.length < 2 ^ 256)
    (h : ∀ t ∈ targets, t.toNat ≤ high) : (averageOf targets).toNat ≤ high := by
  induction targets using List.reverseRecOn with
  | nil => exact Nat.zero_le _
  | append_singleton targets t ih =>
    rw [List.length_append, List.length_singleton] at hlength
    have hbefore := ih (Nat.lt_of_succ_lt hlength) (fun u hu => h u (List.mem_append_left _ hu))
    have hlast := h t (List.mem_append_right _ List.mem_cons_self)
    rw [averageOf_append_singleton]
    exact runningAverage_le (Nat.succ_pos _) hlength hbefore hlast

/-! ## The bound -/

namespace Wave

variable {params : ChainParams} {network : NetworkParameters} {tip : Block}
  {history : List Block} {candidate : Candidate} {w : Window} {s : Survey} {t : Target}
  {high : Nat} {o : Overflow}

/-- Whether or not the newest few take the place of all, what is averaged are blocks met. -/
theorem survey_average_le (hp : plan params network tip = .average w)
    (h : survey params w tip history candidate o = .ok s)
    (hbits : ∀ b ∈ met params network tip history candidate, b.bits.toTarget.toNat ≤ high)
    (gap round : Int) : (s.ownDefended gap round).average.toNat ≤ high := by
  obtain ⟨hown, hownFast⟩ := survey_series hp h
  have hsub := heeded_sublist fastOwn gap round (met params network tip history candidate)
  have hfew : (met params network tip history candidate).length ≤ w.own := by
    have hcount := (survey_surveyed hp h).own_le
    rw [hown] at hcount
    exact hcount
  rw [ownDefended_ofBlocks hown hownFast]
  apply averageOf_le
  · rw [List.length_map]
    have hless := hsub.length_le
    have hmost := (own_bounds_of_plan hp).2
    omega
  · intro t ht
    obtain ⟨b, hb, rfl⟩ := List.mem_map.1 ht
    exact hbits b (hsub.subset hb)

theorem limited_le_target (powLimit target : Target) (version : Int32) (height : Nat) :
    limited powLimit target (efficiencyOf version height) ≤ target := by
  rw [limited_eq]
  split
  · exact BitVec.le_refl _
  · exact BitVec.not_lt.1 ‹_›

/-- Without a brake the target is at most what the two scalings give. -/
theorem targetOf_le_scaled
    (hforce : handbrakeForce candidate.version (tip.height + 1) params network = 1)
    (h : targetOf params network tip candidate s o = .ok t) :
    ∃ own expected actual scaled,
      ownTarget params (interleave (fixActive tip.height params network)) tip s o = .ok own ∧
      o.signed (s.chain.count * params.spacing) = .ok expected ∧
      o.signed (tip.time - s.cursor.time) = .ok actual ∧
      scaleByTime own actual expected o = .ok scaled ∧ t ≤ scaled := by
  obtain ⟨own, expected, actual, scaled, hown, hexpected, hactual, hscaled, rfl⟩ :=
    targetOf_eq_ok h
  refine ⟨own, expected, actual, scaled, hown, hexpected, hactual, hscaled, ?_⟩
  rw [hforce, applyHandbrake_one (limited_le _ _ _ _)]
  exact limited_le_target _ _ _ _

theorem targetOf_eased (hown : 1 < s.own.count)
    (hforce : handbrakeForce candidate.version (tip.height + 1) params network = 1)
    (havg : ∀ gap round, (s.ownDefended gap round).average.toNat ≤ high)
    (h : targetOf params network tip candidate s o = .ok t) : t.toNat ≤ 4 * high := by
  obtain ⟨own, expected, actual, scaled, hlead, -, -, hscaled, hle⟩ := targetOf_le_scaled hforce h
  have hfirst := ownTarget_le hown havg hlead
  have hsecond := scaleByTime_le hscaled
  rw [BitVec.le_def] at hle
  omega

theorem exists_easiest {blocks : List Block} (h : 0 < blocks.length) :
    ∃ easiest ∈ blocks, ∀ b ∈ blocks, b.bits.toTarget.toNat ≤ easiest.bits.toTarget.toNat := by
  cases heasiest : blocks.argmax fun b => b.bits.toTarget.toNat with
  | none =>
    rw [List.argmax_eq_none.1 heasiest] at h
    exact absurd h (Nat.lt_irrefl 0)
  | some easiest =>
    refine ⟨easiest, List.argmax_mem heasiest, fun b hb => ?_⟩
    exact List.le_of_mem_argmax (f := fun b => b.bits.toTarget.toNat) hb heasiest

/-- For sound parameters and a walk that has met two blocks of the candidate's algorithm or more,
with any bits and times: there is an answer, unless a time overflows, and where overflows wrap there
is one in any case if the times of a full window fit. Whatever becomes of overflows, the target of an
unbraked block is at most four times the easiest of the targets met. -/
theorem nextTarget_eased (hv : params.validate = .ok ()) (hr : params.noRetargeting = false)
    (hpast : (window params network tip).own ≤ tip.height)
    (hforce : handbrakeForce candidate.version (tip.height + 1) params network = 1)
    (hwalk : Survey.walk (window params network tip) (algorithmTag candidate.version) history
      (.start tip) = .ok s)
    (hmet : 2 ≤ (met params network tip history candidate).length) :
    Settles (nextTarget params network tip history candidate ·) (fun _ => True) ∧
    ((window params network tip).TimesFit params
        (interleave (fixActive tip.height params network)) →
      ∃ bits, nextTarget params network tip history candidate .wraps = .ok bits) ∧
    ∃ easiest ∈ met params network tip history candidate,
      (∀ b ∈ met params network tip history candidate,
        b.bits.decode.target.toNat ≤ easiest.bits.decode.target.toNat) ∧
      ∀ o bits, nextTarget params network tip history candidate o = .ok bits →
        bits.decode.target.toNat ≤ 4 * easiest.bits.decode.target.toNat := by
  have hp := plan_window hr hpast
  obtain ⟨easiest, hmem, hmost⟩ := exists_easiest (Nat.lt_of_lt_of_le Nat.two_pos hmet)
  have hspacing := ChainParams.spacing_pos hv
  refine ⟨nextTarget_settles_of_walk hspacing hp hwalk,
    fun htimes => nextTarget_wraps_of_walk hspacing hp htimes hwalk, easiest, hmem, hmost,
    fun o bits hanswer => ?_⟩
  obtain ⟨gap, t, hgap, ht, rfl⟩ := nextTarget_eq_ok hp hwalk hanswer
  have hsurvey : survey params (window params network tip) tip history candidate o =
      .ok (s.defended gap params.spacing) := survey_of_walk hwalk hgap
  have havg := survey_average_le hp hsurvey hmost
  have hown : 1 < (s.defended gap params.spacing).own.count := by
    rw [(survey_series hp hsurvey).1]
    exact hmet
  exact Nat.le_trans (BitVec.le_def.1 (CompactTarget.decode_ofTarget_le t))
    (targetOf_eased hown hforce havg ht)

/-- A chain of one algorithm that finds a block every twenty minutes. -/
def idleBlock (height : Nat) : Block := ⟨.zero, none, height, 0x100, 1200 * height, ⟨0x1d00ffff⟩⟩

def idleCandidate : Candidate := ⟨0x100, 14400⟩

/-- Both scalings double, and the bound is met. -/
theorem nextTarget_eased_idle :
    ChainParams.main.validate = .ok () ∧ ChainParams.main.noRetargeting = false ∧
    (window .main (fixSet true) (idleBlock 11)).own ≤ (idleBlock 11).height ∧
    handbrakeForce idleCandidate.version 12 .main (fixSet true) = 1 ∧
    (∃ s, Survey.walk (window .main (fixSet true) (idleBlock 11))
      (algorithmTag idleCandidate.version) (below idleBlock 11) (.start (idleBlock 11)) = .ok s) ∧
    (met .main (fixSet true) (idleBlock 11) (below idleBlock 11) idleCandidate).length = 10 ∧
    nextTarget .main (fixSet true) (idleBlock 11) (below idleBlock 11) idleCandidate .faults =
      .ok ⟨0x1d03fffc⟩ ∧
    (⟨0x1d03fffc⟩ : CompactTarget).decode.target.toNat =
      4 * (⟨0x1d00ffff⟩ : CompactTarget).decode.target.toNat ∧
    ∃ easiest ∈ met .main (fixSet true) (idleBlock 11) (below idleBlock 11) idleCandidate,
      (⟨0x1d03fffc⟩ : CompactTarget).decode.target.toNat ≤
        4 * easiest.bits.decode.target.toNat := by
  have hv : ChainParams.main.validate = .ok () := by decide
  have hpast : (window .main (fixSet true) (idleBlock 11)).own ≤ (idleBlock 11).height := by decide
  have hforce : handbrakeForce idleCandidate.version 12 .main (fixSet true) = 1 := by decide
  obtain ⟨s, hwalk⟩ : ∃ s, Survey.walk (window .main (fixSet true) (idleBlock 11))
      (algorithmTag idleCandidate.version) (below idleBlock 11) (.start (idleBlock 11)) = .ok s :=
    Survey.walk_ok _ (by decide)
  have hmet : (met .main (fixSet true) (idleBlock 11) (below idleBlock 11)
      idleCandidate).length = 10 := by decide +kernel
  have hanswer : nextTarget .main (fixSet true) (idleBlock 11) (below idleBlock 11)
      idleCandidate .faults = .ok ⟨0x1d03fffc⟩ := by decide +kernel
  obtain ⟨-, -, easiest, hmem, -, hle⟩ :=
    nextTarget_eased hv rfl hpast hforce hwalk (by rw [hmet]; decide)
  exact ⟨hv, rfl, hpast, hforce, ⟨s, hwalk⟩, hmet, hanswer, by decide, easiest, hmem,
    hle .faults _ hanswer⟩

end Wave

end SporkNode.Work
