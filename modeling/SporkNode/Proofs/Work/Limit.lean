import SporkNode.Proofs.Results
import SporkNode.Proofs.Work.CompactTarget
import SporkNode.Proofs.Work.Handbrake
import SporkNode.Work.Required

/-!
The limit on targets. Between the first average and the written word a target passes the scalings,
the handbrake and the decay; each of the last three hands on a target that the limit covers, so
nothing that comes before them needs to be known.
-/

namespace SporkNode.Work

/-- A word that was written for a target under the limit. -/
def CompactTarget.Under (limit : Target) (c : CompactTarget) : Prop :=
  ∃ t : Target, t ≤ limit ∧ c = .ofTarget t

theorem efficiencyOf_eq (version : Int32) (height : Nat) : efficiencyOf version height = 1 := by
  unfold efficiencyOf
  cases Algorithm.ofVersion? version with
  | none => rfl
  | some a => cases a <;> rfl

namespace Wave

/-- Whatever the scalings made of the average, wrapped or not. -/
theorem limited_le (powLimit target : Target) (version : Int32) (height : Nat) :
    limited powLimit target (efficiencyOf version height) ≤ powLimit := by
  rw [efficiencyOf_eq]
  unfold limited
  split
  · rename_i h
    rw [BitVec.lt_def, Target.toNat_divide] at h
    rw [BitVec.le_def, Target.toNat_scale, Nat.mul_one, Nat.mod_eq_of_lt (Target.toNat_lt target)]
    exact Nat.le_of_lt (Nat.lt_of_lt_of_le h (Nat.div_le_self _ _))
  · exact BitVec.le_refl _

variable {params : ChainParams} {network : NetworkParameters} {tip : Block}
  {history : List Block} {candidate : Candidate} {o : Overflow}

/-- Whatever the scalings have come to, the rest cannot fail. -/
theorem targetOf_eq_ok {s : Survey} {t : Target}
    (h : targetOf params network tip candidate s o = .ok t) :
    ∃ own expected actual scaled,
      ownTarget params (interleave (fixActive tip.height params network)) tip s o = .ok own ∧
      o.signed (s.chain.count * params.spacing) = .ok expected ∧
      o.signed (tip.time - s.cursor.time) = .ok actual ∧
      scaleByTime own actual expected o = .ok scaled ∧
      t = applyHandbrake
        (limited params.powLimit scaled (efficiencyOf candidate.version (tip.height + 1)))
        (handbrakeForce candidate.version (tip.height + 1) params network) params.powLimit := by
  obtain ⟨own, hown, h⟩ := bind_eq_ok.1 h
  obtain ⟨expected, hexpected, h⟩ := bind_eq_ok.1 h
  obtain ⟨actual, hactual, h⟩ := bind_eq_ok.1 h
  obtain ⟨scaled, hscaled, h⟩ := bind_eq_ok.1 h
  cases h
  exact ⟨own, expected, actual, scaled, hown, hexpected, hactual, hscaled, rfl⟩

theorem targetOf_le {s : Survey} {t : Target}
    (h : targetOf params network tip candidate s o = .ok t) : t ≤ params.powLimit := by
  obtain ⟨own, expected, actual, scaled, -, -, -, -, rfl⟩ := targetOf_eq_ok h
  exact applyHandbrake_le (limited_le _ _ _ _) _

theorem plan_ne_keep (hr : params.noRetargeting = false) : plan params network tip ≠ .keep := by
  simp only [plan, hr, Bool.false_eq_true, ↓reduceIte]
  repeat' split
  all_goals simp

theorem nextTarget_under {bits : CompactTarget} (hr : params.noRetargeting = false)
    (h : nextTarget params network tip history candidate o = .ok bits) :
    bits.Under params.powLimit := by
  unfold nextTarget at h
  cases hp : plan params network tip with
  | keep =>
    exact absurd hp (plan_ne_keep hr)
  | bootstrap =>
    rw [hp] at h
    cases h
    exact ⟨params.powLimit, BitVec.le_refl _, rfl⟩
  | average w =>
    rw [hp] at h
    obtain ⟨s, -, h⟩ := bind_eq_ok.1 h
    obtain ⟨t, ht, h⟩ := bind_eq_ok.1 h
    cases h
    exact ⟨t, targetOf_le ht, rfl⟩

end Wave

namespace Decay

theorem relaxed_le (params : ChainParams) (target : Target) (n : Nat) :
    relaxed params target n ≤ params.powLimit := by
  unfold relaxed
  split
  · exact BitVec.le_refl _
  · rename_i h
    have hle : target ≤ params.powLimit.shiftRight n := by
      rw [not_or] at h
      exact BitVec.not_lt.1 h.2
    exact Target.shiftLeft_le hle

/-- Bits that owe no decay pass unread, so they have to be good already. -/
theorem apply_under {params : ChainParams} {fixActive : Bool} {tip : Block}
    {candidate : Candidate} {bits bits' : CompactTarget} {o : Overflow}
    (hb : bits.Under params.powLimit)
    (h : apply params fixActive tip candidate bits o = .ok bits') :
    bits'.Under params.powLimit := by
  obtain ⟨n, -, h⟩ := bind_eq_ok.1 h
  split at h
  · cases h
    exact hb
  · cases h
    exact ⟨_, relaxed_le params bits.toTarget (shiftAmount n), rfl⟩

end Decay

theorem CompactTarget.Under.decode {limit : Target} {c : CompactTarget} (h : c.Under limit) :
    c.decode.negative = false ∧ c.decode.overflow = false ∧ c.decode.target ≤ limit := by
  obtain ⟨t, ht, rfl⟩ := h
  exact ⟨decode_ofTarget_negative t, decode_ofTarget_overflow t,
    BitVec.le_trans (decode_ofTarget_le t) ht⟩

/-- For every history, whatever its bits, versions and times and whatever becomes of overflows: work
that is required at all is readable and within the limit. The parameters need not even be sound. -/
theorem nextWork_within_limit {params : ChainParams} {network : NetworkParameters} {tip : Block}
    {history : List Block} {candidate : Candidate} {o : Overflow} {bits : CompactTarget}
    (hr : params.noRetargeting = false)
    (h : nextWork params network tip history candidate o = .ok bits) :
    bits.decode.negative = false ∧ bits.decode.overflow = false ∧
      bits.decode.target ≤ params.powLimit := by
  obtain ⟨waved, hw, hd⟩ := bind_eq_ok.1 h
  exact (Decay.apply_under (Wave.nextTarget_under hr hw) hd).decode

/-- Ten blocks of bits that overflow. -/
private def overflowing : List Block :=
  (List.range 10).reverse.map fun height =>
    ⟨.zero, none, height, 0x100, 1000 + 120 * height, ⟨0xff7fffff⟩⟩

/-- A tip with negative bits on overflowing ones, a force of three and a candidate that comes
late enough for a decay. -/
theorem nextWork_within_limit_overflowing :
    ChainParams.main.noRetargeting = false ∧
    nextWork .main ⟨0, fun _ => 3, some 0⟩ ⟨.zero, none, 10, 0x100, 2200, ⟨0x1d80ffff⟩⟩
      overflowing ⟨0x100, 3300⟩ = .ok ⟨0x1c1ba5c0⟩ ∧
    (⟨0x1c1ba5c0⟩ : CompactTarget).decode.negative = false ∧
    (⟨0x1c1ba5c0⟩ : CompactTarget).decode.overflow = false ∧
    (⟨0x1c1ba5c0⟩ : CompactTarget).decode.target ≤ ChainParams.main.powLimit :=
  have h : nextWork .main ⟨0, fun _ => 3, some 0⟩ ⟨.zero, none, 10, 0x100, 2200, ⟨0x1d80ffff⟩⟩
      overflowing ⟨0x100, 3300⟩ = .ok ⟨0x1c1ba5c0⟩ := by decide +kernel
  ⟨rfl, h, nextWork_within_limit rfl h⟩

end SporkNode.Work
