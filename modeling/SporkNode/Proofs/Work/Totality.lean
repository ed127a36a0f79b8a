import SporkNode.Proofs.Work.Attainable
import SporkNode.Work.Checked

/-!
That the rules end in an answer. Every quotient of the wave is by a number that is not zero: a
count, the efficiency, a force, or an expected time of which the double is at least a second. So the
rules end as those do that check their divisions. For sound parameters and a complete chain they end
in an answer, unless a time overflows, and no block below the second one has a part in it.
-/

namespace SporkNode.Work

namespace Checked

theorem quotient_eq {n : Nat} (hpos : 0 < n) (hfits : n < 2 ^ 256) (t : Target) :
    quotient t n = .ok (t.divide n) := by
  have hne : Target.ofNat n ≠ 0 := by
    rw [← Target.toNat_pos, Target.toNat_ofNat, Nat.mod_eq_of_lt hfits]
    exact hpos
  unfold quotient
  rw [if_neg hne]

theorem efficiency_quotient_eq (version : Int32) (height : Nat) (t : Target) :
    quotient t (efficiencyOf version height) = .ok (t.divide (efficiencyOf version height)) := by
  rw [efficiencyOf_eq]
  exact quotient_eq (by decide) (by decide) t

theorem push_eq {s : Series} (hcount : s.count + 1 < 2 ^ 256) (block : Block) (target : Target) :
    push s block target = .ok (s.push block target) := by
  unfold push
  dsimp only
  rw [quotient_eq (Nat.succ_pos _) hcount]
  rfl

/-- A window that can be counted in 256 bits. -/
def Countable (w : Window) : Prop := w.blocks < 2 ^ 256 ∧ w.own < 2 ^ 256

theorem visit_eq {w : Window} (hw : Countable w) {s : Survey} (hgo : s.goesOn w = true)
    (tag : Int32) : visit s tag = .ok (s.visit tag) := by
  obtain ⟨hblocks, hown⟩ := Survey.goesOn_iff.1 hgo
  have hchain := push_eq (Nat.lt_of_le_of_lt hblocks hw.1) s.cursor
  have hown := push_eq (Nat.lt_of_le_of_lt hown hw.2) s.cursor
  unfold visit Survey.visit
  dsimp only
  rw [efficiency_quotient_eq, ok_bind]
  split
  · rw [hown, ok_bind, hchain, ok_bind]
    rfl
  · rw [hchain]
    rfl

theorem walk_eq {w : Window} (hw : Countable w) (tag : Int32) (history : List Block) (s : Survey) :
    walk w tag history s = Survey.walk w tag history s := by
  induction history generalizing s with
  | nil =>
    unfold walk Survey.walk
    split
    · rw [visit_eq hw ‹_›, ok_bind]
      rfl
    · rfl
  | cons older rest ih =>
    unfold walk Survey.walk
    split
    · rw [visit_eq hw ‹_›, ok_bind]
      dsimp only
      rw [ih]
      rfl
    · rfl

variable {params : ChainParams} {network : NetworkParameters} {tip : Block}
  {history : List Block} {candidate : Candidate}

/-- The range of the clamp is empty unless something is expected. -/
theorem scaleByTime_eq (t : Target) (actual expected : Int) (o : Overflow) :
    scaleByTime t actual expected o = Work.scaleByTime t actual expected o := by
  unfold scaleByTime Work.scaleByTime
  apply bind_congr_of_ok
  intro most hmost
  apply bind_congr_of_ok
  intro time htime
  obtain ⟨hlow, hhigh⟩ := clamp_bounds htime
  have hword := unsignedWord_le hmost hlow hhigh
  have hpos : 0 < unsignedWord time := by
    rw [unsignedWord_of_lt (by omega) (Int.lt_of_le_of_lt hhigh (Overflow.fits_of_signed hmost).2)]
    omega
  exact quotient_eq (by omega) (unsignedWord_lt expected) _

theorem ownTarget_eq (params : ChainParams) (factor : Int) (tip : Block) (s : Survey)
    (o : Overflow) : ownTarget params factor tip s o = Wave.ownTarget params factor tip s o := by
  unfold ownTarget Wave.ownTarget
  simp only [scaleByTime_eq]
  rfl

theorem limited_eq (powLimit target : Target) (version : Int32) (height : Nat) :
    limited powLimit target (efficiencyOf version height) =
      .ok (Wave.limited powLimit target (efficiencyOf version height)) := by
  unfold limited
  rw [efficiency_quotient_eq]
  rfl

/-- A force that would divide by zero is passed over. -/
theorem applyHandbrake_eq (target : Target) (force : UInt32) (powLimit : Target) :
    applyHandbrake target force powLimit = .ok (Work.applyHandbrake target force powLimit) := by
  unfold applyHandbrake Work.applyHandbrake
  split
  · rfl
  · rename_i hbrake
    apply quotient_eq
    · apply Nat.pos_of_ne_zero
      intro h0
      exact hbrake (.inr (UInt32.toNat_inj.1 h0))
    · have := force.toNat_lt
      omega

theorem targetOf_eq (params : ChainParams) (network : NetworkParameters) (tip : Block)
    (candidate : Candidate) (s : Survey) (o : Overflow) :
    targetOf params network tip candidate s o = Wave.targetOf params network tip candidate s o := by
  unfold targetOf Wave.targetOf
  simp only [ownTarget_eq, scaleByTime_eq, limited_eq, applyHandbrake_eq, ok_bind]
  rfl

theorem countable_of_plan {w : Window} (h : Wave.plan params network tip = .average w) :
    Countable w := by
  obtain ⟨hblocks, -, hle⟩ := Wave.blocks_of_plan h
  have hfull : Wave.fullBlocks (fixActive tip.height params network) ≤ 5000 := by
    cases fixActive tip.height params network <;> decide
  exact ⟨by omega, by omega⟩

theorem nextTarget_eq (params : ChainParams) (network : NetworkParameters) (tip : Block)
    (history : List Block) (candidate : Candidate) (o : Overflow) :
    nextTarget params network tip history candidate o =
      Wave.nextTarget params network tip history candidate o := by
  unfold nextTarget Wave.nextTarget
  cases hp : Wave.plan params network tip with
  | keep => rfl
  | bootstrap => rfl
  | average w =>
    unfold survey Wave.survey
    simp only [walk_eq (countable_of_plan hp), targetOf_eq]

/-- No division of the rules is by zero. -/
theorem nextWork_eq (params : ChainParams) (network : NetworkParameters) (tip : Block)
    (history : List Block) (candidate : Candidate) (o : Overflow) :
    nextWork params network tip history candidate o =
      Work.nextWork params network tip history candidate o := by
  unfold nextWork Work.nextWork
  rw [nextTarget_eq]

end Checked

/-! ## Answers -/

section Deeper

variable {params : ChainParams} {network : NetworkParameters} {tip : Block}
  {history : List Block} {candidate : Candidate}

/-- A walk that has come to its end takes no notice of what lies deeper. -/
theorem Survey.walk_append {w : Window} {tag : Int32} {s s' : Survey}
    (h : walk w tag history s = .ok s') (deeper : List Block) :
    walk w tag (history ++ deeper) s = .ok s' := by
  induction history generalizing s with
  | nil =>
    rw [walk_nil] at h
    split at h
    · cases h
    · cases h
      exact walk_of_not_asks (Bool.eq_false_iff.2 ‹_›) deeper
  | cons older rest ih =>
    rw [walk_cons] at h
    rw [List.cons_append, walk_cons]
    split at h
    · rw [if_pos ‹_›]
      exact ih h
    · rw [if_neg ‹_›]
      exact h

theorem Wave.nextTarget_append (network : NetworkParameters) (candidate : Candidate)
    (hc : Complete tip history) (deeper : List Block) (o : Overflow) :
    nextTarget params network tip (history ++ deeper) candidate o =
      nextTarget params network tip history candidate o := by
  cases hp : plan params network tip with
  | keep =>
    unfold nextTarget
    rw [hp]
  | bootstrap =>
    unfold nextTarget
    rw [hp]
  | average w =>
    obtain ⟨s, hwalk⟩ := walk_ok candidate hp hc
    rw [nextTarget_of_walk hp (Survey.walk_append hwalk deeper), nextTarget_of_walk hp hwalk]

/-- For sound parameters and a complete chain there is one answer, unless a time overflows; it is
the same whatever lies below the chain, and where divisions are checked. -/
theorem nextWork_total (hv : params.validate = .ok ()) (hc : Complete tip history)
    (network : NetworkParameters) (candidate : Candidate) :
    Settles (nextWork params network tip history candidate ·) (fun _ => True) ∧
    ∀ deeper o,
      nextWork params network tip (history ++ deeper) candidate o =
        nextWork params network tip history candidate o ∧
      Checked.nextWork params network tip (history ++ deeper) candidate o =
        nextWork params network tip history candidate o := by
  have hsame : ∀ deeper o, nextWork params network tip (history ++ deeper) candidate o =
      nextWork params network tip history candidate o := by
    intro deeper o
    unfold nextWork
    rw [Wave.nextTarget_append network candidate hc]
  refine ⟨nextWork_settles network candidate (ChainParams.spacing_pos hv) hc, fun deeper o => ?_⟩
  rw [Checked.nextWork_eq]
  exact ⟨hsame deeper o, hsame deeper o⟩

/-- A walk over all but the first block of a chain, with none of the candidate's algorithm. -/
theorem nextWork_total_plain :
    ChainParams.main.validate = .ok () ∧
    Complete (plainBlock 11) ((below plainBlock 11).take 10) ∧
    nextWork .main (fixSet true) (plainBlock 11) ((below plainBlock 11).take 10) ⟨0, 1440⟩
      .faults = .ok ⟨0x1e0e8ba2⟩ ∧
    ∀ deeper,
      nextWork .main (fixSet true) (plainBlock 11) ((below plainBlock 11).take 10 ++ deeper)
        ⟨0, 1440⟩ .faults = .ok ⟨0x1e0e8ba2⟩ ∧
      Checked.nextWork .main (fixSet true) (plainBlock 11)
        ((below plainBlock 11).take 10 ++ deeper) ⟨0, 1440⟩ .faults = .ok ⟨0x1e0e8ba2⟩ := by
  have hv : ChainParams.main.validate = .ok () := by decide
  have hc : Complete (plainBlock 11) ((below plainBlock 11).take 10) := by decide
  have hanswer : nextWork .main (fixSet true) (plainBlock 11) ((below plainBlock 11).take 10)
      ⟨0, 1440⟩ .faults = .ok ⟨0x1e0e8ba2⟩ := by decide +kernel
  refine ⟨hv, hc, hanswer, fun deeper => ?_⟩
  rw [← hanswer]
  exact (nextWork_total hv hc (fixSet true) ⟨0, 1440⟩).2 deeper .faults

end Deeper

end SporkNode.Work
