import SporkNode.Proofs.Work.Attainable

/-!
Waiting. The time of a candidate enters the work required through the halvings that it is owed and
through nothing else, and more halvings never give a lower target, though the target is rounded
when it is written and a target that owes nothing is handed on as it stands. So to wait never makes
mining harder, as long as the gap and the double spacing fit; and as no target but zero can be
doubled 256 times within the limit, it ends there. Each halving is a doubling of the target, exact
up to the limit, for counts that no shift amount can say as for those that it can.
-/

namespace SporkNode.Work

namespace Decay

variable {params : ChainParams} {fixed : Bool} {gap later : Int}

theorem owed_mono (hspacing : 0 < params.spacing) (fixed : Bool) (h : gap ≤ later) :
    owed params fixed gap ≤ owed params fixed later := by
  have hquotient : gap.tdiv (2 * params.spacing) ≤ later.tdiv (2 * params.spacing) :=
    Int.tdiv_le_tdiv (by omega) h
  unfold owed
  omega

/-- As many halvings are owed as there are double spacings in the gap, but for the interleave. -/
theorem le_owed (hspacing : 0 < params.spacing) {n : Nat}
    (h : 2 * params.spacing * (n + interleave fixed) ≤ gap) :
    n + 1 ≤ owed params fixed gap := by
  have hs : 0 < 2 * params.spacing := by omega
  have hnonneg : 0 ≤ 2 * params.spacing * (n + interleave fixed) :=
    Int.mul_nonneg (by omega) (by omega)
  have hquotient : (n + interleave fixed : Int) ≤ gap.tdiv (2 * params.spacing) := by
    rw [Int.tdiv_eq_ediv_of_nonneg (by omega), Int.le_ediv_iff_mul_le hs, Int.mul_comm]
    exact h
  unfold owed
  omega

theorem le_relaxed {target : Target} (h : target ≤ params.powLimit) (n : Nat) :
    target ≤ relaxed params target n := by
  have hdoubled : target.toNat * 1 ≤ target.toNat * 2 ^ n :=
    Nat.mul_le_mul_left _ (Nat.two_pow_pos n)
  rw [BitVec.le_def] at h ⊢
  rw [toNat_relaxed]
  split
  · exact h
  · exact Nat.le_min.2 ⟨h, by omega⟩

theorem relaxed_mono (target : Target) {n m : Nat} (h : n ≤ m) :
    relaxed params target n ≤ relaxed params target m := by
  have hdoubled : target.toNat * 2 ^ n ≤ target.toNat * 2 ^ m :=
    Nat.mul_le_mul_left _ (Nat.pow_le_pow_right (by decide) h)
  rw [BitVec.le_def, toNat_relaxed, toNat_relaxed]
  split
  · exact Nat.le_refl _
  · omega

/-- After as many halvings as a target has bits the limit is all that is left. -/
theorem relaxed_eq_limit {target : Target} (h : target ≠ 0) {n : Nat} (hn : 256 ≤ n) :
    relaxed params target n = params.powLimit := by
  have hlimit := Target.toNat_lt params.powLimit
  have hpast : 1 * 2 ^ 256 ≤ target.toNat * 2 ^ n :=
    Nat.mul_le_mul (Target.toNat_pos.2 h) (Nat.pow_le_pow_right (by decide) hn)
  apply BitVec.eq_of_toNat_eq
  rw [toNat_relaxed]
  split
  · rfl
  · omega

/-- Between two counts either nothing is owed at both, or the larger is the first to owe, or both
owe. -/
theorem eased_mono {bits : CompactTarget} (hbits : bits.Under params.powLimit) {n m : Int}
    (h : n ≤ m) : (eased params n bits).decode.target ≤ (eased params m bits).decode.target := by
  obtain ⟨-, hfits, hlimit⟩ := hbits.decode
  unfold eased
  split
  · split
    · exact BitVec.le_refl _
    · exact CompactTarget.le_decode_ofTarget hfits (le_relaxed hlimit _)
  · rw [if_neg (by omega)]
    exact CompactTarget.decode_ofTarget_mono (relaxed_mono _ (Int.toNat_le_toNat h))

theorem eased_eq_limit {bits : CompactTarget} (hbits : bits.decode.target ≠ 0) {n : Int}
    (h : 256 ≤ n) : eased params n bits = params.limitBits := by
  have hrelaxed : relaxed params bits.toTarget n.toNat = params.powLimit :=
    relaxed_eq_limit hbits (by omega)
  unfold eased
  rw [if_neg (by omega), hrelaxed]
  rfl

/-- For a positive spacing and any bits, tip and candidate: the halvings owed are given, unless a
time overflows. Whatever becomes of that, where they are given the eased bits are given, and where
any are owed the target is doubled exactly, however often, and cut to the limit after that only. -/
theorem apply_doubles (hspacing : 0 < params.spacing) (fixed : Bool) (tip : Block)
    (candidate : Candidate) (bits : CompactTarget) :
    Settles (halvings params fixed tip candidate ·) (fun _ => True) ∧
    ∀ o n, halvings params fixed tip candidate o = .ok n →
      ∃ eased, apply params fixed tip candidate bits o = .ok eased ∧
        (n ≤ 0 → eased = bits) ∧
        (0 < n → ∃ t : Target, eased = .ofTarget t ∧
          t.toNat = if params.allowMinDifficulty then params.powLimit.toNat
            else min params.powLimit.toNat (bits.toTarget.toNat * 2 ^ n.toNat)) := by
  refine ⟨(halvings_settles hspacing fixed tip candidate).imp fun _ _ => trivial,
    fun o n hn => ⟨_, apply_of_halvings hn bits, ?_, ?_⟩⟩
  · intro hnone
    exact if_pos hnone
  · intro howed
    exact ⟨_, if_neg (Int.not_le.2 howed), toNat_relaxed params bits.toTarget _⟩

/-- More halvings than a shift amount can say: the least of targets is eased to the limit. -/
theorem apply_doubles_silence :
    0 < ChainParams.main.spacing ∧
    halvings .main true (plainBlock 0) ⟨0x100, 4398046511104⟩ .faults = .ok 18325193795 ∧
    (UInt32.size : Int) < 18325193795 ∧
    (⟨0x01010000⟩ : CompactTarget).toTarget.toNat = 1 ∧
    apply .main true (plainBlock 0) ⟨0x100, 4398046511104⟩ ⟨0x01010000⟩ .faults =
      .ok ChainParams.main.limitBits := by
  have hspacing : 0 < ChainParams.main.spacing := by decide
  have hhalvings : halvings .main true (plainBlock 0) ⟨0x100, 4398046511104⟩ .faults =
      .ok 18325193795 := by decide +kernel
  have hone : (⟨0x01010000⟩ : CompactTarget).toTarget.toNat = 1 := by decide
  obtain ⟨-, hall⟩ :=
    apply_doubles hspacing true (plainBlock 0) ⟨0x100, 4398046511104⟩ ⟨0x01010000⟩
  obtain ⟨eased, hdecay, -, hdoubled⟩ := hall .faults _ hhalvings
  obtain ⟨t, rfl, ht⟩ := hdoubled (by decide)
  -- the power itself is far too large to be written out
  obtain ⟨n, hn⟩ : ∃ n, n = (18325193795 : Int).toNat := ⟨_, rfl⟩
  rw [← hn] at ht
  have hpow : 2 ^ 256 ≤ 2 ^ n := Nat.pow_le_pow_right (by decide) (by omega)
  have hlimit := Target.toNat_lt ChainParams.main.powLimit
  have hmost : t = ChainParams.main.powLimit := by
    apply BitVec.eq_of_toNat_eq
    rw [ht, if_neg (by decide), hone, Nat.one_mul]
    exact Nat.min_eq_left (by omega)
  rw [hmost] at hdecay
  exact ⟨hspacing, hhalvings, by decide, hone, hdecay⟩

end Decay

/-- For sound parameters that retarget and a spacing of which the double fits, wherever the wave has
an answer: there is a function of the candidate's time whose target never falls, and unless the
wave's target is zero it is the limit once 255 double spacings have passed beyond the interleave. As
long as the gap fits it is the work required. -/
theorem nextWork_eases {params : ChainParams} (hv : params.validate = .ok ())
    (hr : params.noRetargeting = false) (hdouble : 2 * params.spacing < signedSize)
    {network : NetworkParameters} {tip : Block} {history : List Block} {version : Int32}
    {asked : Int} {o : Overflow} {waved : CompactTarget}
    (hw : Wave.nextTarget params network tip history ⟨version, asked⟩ o = .ok waved) :
    ∃ work : Int → CompactTarget,
      (∀ time, FitsSigned (time - tip.time) →
        nextWork params network tip history ⟨version, time⟩ o = .ok (work time)) ∧
      (∀ time later, time ≤ later →
        (work time).decode.target ≤ (work later).decode.target) ∧
      (waved.decode.target ≠ 0 → ∀ time,
        tip.time + 2 * params.spacing *
          (255 + interleave (fixActive tip.height params network)) ≤ time →
        work time = params.limitBits) := by
  have hspacing := ChainParams.spacing_pos hv
  refine ⟨fun time => Decay.eased params
    (Decay.owed params (fixActive tip.height params network) (time - tip.time)) waved, ?_, ?_, ?_⟩
  · intro time hfits
    rw [Wave.nextTarget_time version asked time] at hw
    exact nextWork_eq_ok hspacing hdouble hw (Overflow.signed_of_fits hfits o)
  · intro time later h
    exact Decay.eased_mono (Wave.nextTarget_under hr hw) (Decay.owed_mono hspacing _ (by omega))
  · intro hpos time h
    have hgap : 2 * params.spacing *
        (255 + interleave (fixActive tip.height params network)) ≤ time - tip.time := by omega
    have howed : (255 : Nat) + 1 ≤
        Decay.owed params (fixActive tip.height params network) (time - tip.time) :=
      Decay.le_owed hspacing hgap
    exact Decay.eased_eq_limit hpos (by omega)

/-- Two minutes after the tip, and 257 times four minutes after it. -/
theorem nextWork_eases_plain :
    ChainParams.main.validate = .ok () ∧ ChainParams.main.noRetargeting = false ∧
    2 * ChainParams.main.spacing < signedSize ∧
    Wave.nextTarget .main (fixSet true) (plainBlock 11) (below plainBlock 11) ⟨0x100, 1440⟩
      .faults = .ok ⟨0x1e073332⟩ ∧
    (⟨0x1e073332⟩ : CompactTarget).decode.target ≠ 0 ∧
    ∃ early late : CompactTarget,
      nextWork .main (fixSet true) (plainBlock 11) (below plainBlock 11) ⟨0x100, 1440⟩ .faults =
        .ok early ∧
      nextWork .main (fixSet true) (plainBlock 11) (below plainBlock 11) ⟨0x100, 63000⟩ .faults =
        .ok late ∧
      early.decode.target ≤ late.decode.target ∧ late = ChainParams.main.limitBits := by
  have hv : ChainParams.main.validate = .ok () := by decide
  have hdouble : 2 * ChainParams.main.spacing < signedSize := by decide
  have hw : Wave.nextTarget .main (fixSet true) (plainBlock 11) (below plainBlock 11)
      ⟨0x100, 1440⟩ .faults = .ok ⟨0x1e073332⟩ := by decide +kernel
  have hpos : (⟨0x1e073332⟩ : CompactTarget).decode.target ≠ 0 := by decide
  obtain ⟨work, hwork, hmono, hlimit⟩ := nextWork_eases hv rfl hdouble hw
  exact ⟨hv, rfl, hdouble, hw, hpos, _, _, hwork 1440 (by decide), hwork 63000 (by decide),
    hmono 1440 63000 (by decide), hlimit hpos 63000 (by decide)⟩

/-- Twice this spacing does not fit, and ten times it comes to six more than a multiple of the size
of a word. -/
def hugeSpacing : ChainParams :=
  { ChainParams.main with spacing := 7378697629483820647, timespan := 7378697629483820647 }

/-- A chain that finds three blocks a second. -/
def hastyBlock (height : Nat) : Block :=
  ⟨.zero, none, height, 0, height / 3, ChainParams.main.limitBits⟩

/-- A candidate so long before the tip that the gap does not fit is owed halvings where overflows
wrap, and so is one before the tip by the whole range where the double spacing does not fit: later
ones have less of a target. -/
theorem waiting_hardens :
    (ChainParams.main.validate = .ok () ∧ ChainParams.main.noRetargeting = false ∧
      nextWork .main (fixSet true) (plainBlock 11) (below plainBlock 11) ⟨0x100, -signedSize⟩
        .wraps = .ok ChainParams.main.limitBits ∧
      nextWork .main (fixSet true) (plainBlock 11) (below plainBlock 11) ⟨0x100, 1440⟩ .wraps =
        .ok ⟨0x1e073332⟩ ∧
      (⟨0x1e073332⟩ : CompactTarget).decode.target < ChainParams.main.limitBits.decode.target ∧
      nextWork .main (fixSet true) (plainBlock 11) (below plainBlock 11) ⟨0x100, -signedSize⟩
        .faults = .error (.undefined .overflow)) ∧
    (hugeSpacing.validate = .ok () ∧ hugeSpacing.noRetargeting = false ∧
      FitsSigned (3 - signedSize - (hastyBlock 11).time) ∧
      nextWork hugeSpacing (fixSet true) (hastyBlock 11) (below hastyBlock 11)
        ⟨0x100, 3 - signedSize⟩ .wraps = .ok ⟨0x1e0ffffe⟩ ∧
      nextWork hugeSpacing (fixSet true) (hastyBlock 11) (below hastyBlock 11) ⟨0x100, 3⟩ .wraps =
        .ok ⟨0x1e07ffff⟩ ∧
      (⟨0x1e07ffff⟩ : CompactTarget).decode.target <
        (⟨0x1e0ffffe⟩ : CompactTarget).decode.target) := by
  refine ⟨⟨?_, rfl, ?_, ?_, ?_, ?_⟩, ?_, rfl, ?_, ?_, ?_, ?_⟩
  all_goals decide +kernel

end SporkNode.Work
