import SporkNode.Proofs.Work.Walk

/-!
Chains that the interval rules grow. Inside an interval bits are handed on or are those of the
limit, and at its end they are written for a target under the limit, so they are legal as long as
those of the chain are. The interval that ends began at the first block or above it, and its time
is brought into a range that sound parameters leave open, so the rules always have an answer.
-/

namespace SporkNode.Work

/-- Bits that read back without a flag as a target within the limit. -/
def CompactTarget.Legal (limit : Target) (c : CompactTarget) : Prop :=
  c.decode.negative = false ∧ c.decode.overflow = false ∧ c.decode.target ≤ limit

namespace ChainParams

variable {params : ChainParams}

theorem Sound.timespan_pos (h : params.Sound) : 0 < params.timespan :=
  Int.lt_of_lt_of_le h.spacing h.timespan

/-- The range of the time that an interval is taken to have lasted holds the one it should have. -/
theorem Sound.range (h : params.Sound) :
    params.timespan.tdiv params.maxAdjustDown ≤ params.timespan ∧
      params.timespan ≤ params.timespan * params.maxAdjustUp := by
  have hpos := Int.le_of_lt h.timespan_pos
  have hup : params.timespan * 1 ≤ params.timespan * params.maxAdjustUp :=
    Int.mul_le_mul_of_nonneg_left h.adjustUp hpos
  rw [Int.mul_one] at hup
  exact ⟨Int.tdiv_le_self _ hpos, hup⟩

theorem Sound.adjustmentInterval_eq (h : params.Sound) :
    ∃ interval : Nat, 0 < interval ∧ params.adjustmentInterval = .ok (interval : Int) := by
  have hspacing := h.spacing
  have hone : params.spacing.tdiv params.spacing = 1 := Int.tdiv_self (by omega)
  have hquotient := Int.tdiv_le_tdiv hspacing h.timespan
  refine ⟨(params.timespan.tdiv params.spacing).toNat, by omega, ?_⟩
  rw [adjustmentInterval, if_neg (by omega), Int.toNat_of_nonneg (by omega)]

theorem limitBits_legal (params : ChainParams) : params.limitBits.Legal params.powLimit :=
  CompactTarget.Under.decode ⟨params.powLimit, BitVec.le_refl _, rfl⟩

end ChainParams

/-- A block is found at every height from that of some block of the chain up to the tip's. -/
theorem Block.ancestor?_isSome {b lowest : Block} {history : List Block} {height : Nat}
    (hmem : lowest ∈ b :: history) (hlow : lowest.height ≤ height) (hhigh : height ≤ b.height) :
    ∃ first, b.ancestor? history height = some first := by
  unfold Block.ancestor?
  rw [if_neg (Nat.not_lt.2 hhigh)]
  apply Option.isSome_iff_exists.1
  rw [List.find?_isSome]
  exact ⟨lowest, hmem, decide_eq_true hlow⟩

namespace Interval

variable {params : ChainParams} {tip : Block} {history : List Block} {candidate : Candidate}
  {interval : Nat} {bits : CompactTarget} {o : Overflow}

/-! ## The end of an interval -/

/-- The time that an interval took, as the adjustment counts it. -/
def boundedTime (params : ChainParams) (elapsed : Int) : Int :=
  max (params.timespan.tdiv params.maxAdjustDown)
    (min elapsed (params.timespan * params.maxAdjustUp))

theorem actualTime_eq (h : params.Sound)
    (hsize : params.timespan * params.maxAdjustUp < signedSize) {firstTime elapsed : Int}
    (helapsed : o.signed (tip.time - firstTime) = .ok elapsed) :
    actualTime params tip firstTime o = .ok (boundedTime params elapsed) := by
  have hdown := h.adjustDown
  have hpos := h.timespan_pos
  obtain ⟨hlow, hhigh⟩ := h.range
  have hmost := Overflow.signed_of_fits (fitsSigned_of_pos (by omega) hsize) o
  unfold actualTime
  rw [helapsed, ok_bind, if_neg (by omega), hmost]
  exact if_neg (by omega)

theorem actualTime_settles (h : params.Sound) (tip : Block) (firstTime : Int) :
    Settles (actualTime params tip firstTime ·) fun _ => True := by
  have hdown := h.adjustDown
  obtain ⟨hlow, hhigh⟩ := h.range
  apply Settles.signed_bind
  intro _
  simp only [if_neg (by omega : ¬ params.maxAdjustDown = 0)]
  apply Settles.signed_bind
  intro _
  exact .inr ⟨_, trivial, fun _ => if_neg (by omega)⟩

theorem capped_le (limit target : Target) :
    (if limit < target then limit else target) ≤ limit := by
  split
  · exact BitVec.le_refl _
  · exact BitVec.not_lt.1 ‹_›

theorem scaled_le (params : ChainParams) (target : Target) (actual : Int) :
    scaled params target actual ≤ params.powLimit :=
  capped_le _ _

theorem adjusted_eq (h : params.Sound) (hr : params.noRetargeting = false)
    (hsize : params.timespan * params.maxAdjustUp < signedSize) {firstTime elapsed : Int}
    (helapsed : o.signed (tip.time - firstTime) = .ok elapsed) :
    adjusted params tip firstTime o =
      .ok (.ofTarget (scaled params tip.bits.toTarget (boundedTime params elapsed))) := by
  have hpos := h.timespan_pos
  unfold adjusted
  rw [if_neg (Bool.eq_false_iff.1 hr), actualTime_eq h hsize helapsed, ok_bind,
    if_neg (by omega)]
  rfl

theorem adjusted_settles (h : params.Sound) (tip : Block) (firstTime : Int) :
    Settles (adjusted params tip firstTime ·) fun _ => True := by
  have hpos := h.timespan_pos
  unfold adjusted
  split
  · exact .ok trivial
  · apply (actualTime_settles h tip firstTime).bind
    intro actual _
    simp only [if_neg (by omega : ¬ params.timespan = 0)]
    exact .ok trivial

/-- Whatever time was counted, and whatever became of it. -/
theorem adjusted_legal (hbits : tip.bits.Legal params.powLimit) {firstTime : Int}
    (ha : adjusted params tip firstTime o = .ok bits) : bits.Legal params.powLimit := by
  unfold adjusted at ha
  split at ha
  · cases ha
    exact hbits
  · obtain ⟨actual, -, ha⟩ := bind_eq_ok.1 ha
    split at ha
    · cases ha
    · cases ha
      exact CompactTarget.Under.decode ⟨_, scaled_le params _ _, rfl⟩

/-! ## Inside an interval -/

/-- The bits of a block that does not end an interval. -/
def kept (params : ChainParams) (interval : Nat) (tip : Block) (history : List Block)
    (candidate : Candidate) (o : Overflow) : Except WorkError CompactTarget :=
  if !params.allowMinDifficulty then .ok tip.bits
  else do
    if ← late params tip candidate o then return params.limitBits
    else return (lastReal interval params.limitBits tip history).bits

theorem late_of_fits (hdouble : FitsSigned (2 * params.spacing))
    (hdue : FitsSigned (tip.time + 2 * params.spacing)) (candidate : Candidate) (o : Overflow) :
    late params tip candidate o = .ok (tip.time + 2 * params.spacing < candidate.time) :=
  bind_eq_ok.2 ⟨_, Overflow.signed_of_fits hdouble o,
    bind_eq_ok.2 ⟨_, Overflow.signed_of_fits hdue o, rfl⟩⟩

theorem late_settles (params : ChainParams) (tip : Block) (candidate : Candidate) :
    Settles (late params tip candidate ·) fun _ => True := by
  apply (Settles.signed (2 * params.spacing)).bind
  rintro double -
  apply (Settles.signed (tip.time + double)).bind
  rintro due -
  exact .ok trivial

/-- Where late blocks are treated apart. -/
theorem kept_of_late (hlenient : params.allowMinDifficulty = true) {isLate : Bool}
    (h : late params tip candidate o = .ok isLate) (interval : Nat) (history : List Block) :
    kept params interval tip history candidate o =
      .ok (if isLate then params.limitBits
        else (lastReal interval params.limitBits tip history).bits) := by
  unfold kept
  rw [hlenient, if_neg (by decide), h, ok_bind]
  cases isLate with
  | false =>
    rw [if_neg Bool.false_ne_true, if_neg Bool.false_ne_true]
    rfl
  | true =>
    rw [if_pos rfl, if_pos rfl]
    rfl

theorem kept_eq_ok (h : kept params interval tip history candidate o = .ok bits) :
    params.allowMinDifficulty = false ∧ bits = tip.bits ∨
      params.allowMinDifficulty = true ∧ ∃ isLate, late params tip candidate o = .ok isLate ∧
        bits = if isLate then params.limitBits
          else (lastReal interval params.limitBits tip history).bits := by
  cases hlenient : params.allowMinDifficulty with
  | false =>
    unfold kept at h
    rw [hlenient] at h
    cases h
    exact .inl ⟨rfl, rfl⟩
  | true =>
    right
    have h' := h
    unfold kept at h'
    rw [hlenient] at h'
    obtain ⟨isLate, hlate, -⟩ := bind_eq_ok.1 h'
    rw [kept_of_late hlenient hlate] at h
    exact ⟨rfl, isLate, hlate, (Except.ok.inj h).symm⟩

theorem kept_settles (params : ChainParams) (interval : Nat) (tip : Block) (history : List Block)
    (candidate : Candidate) :
    Settles (kept params interval tip history candidate ·) fun _ => True := by
  unfold kept
  split
  · exact .ok trivial
  · apply (late_settles params tip candidate).bind
    intro isLate _
    cases isLate <;> exact .ok trivial

theorem lastReal_mem (interval : Nat) (limit : CompactTarget) (b : Block) (history : List Block) :
    lastReal interval limit b history ∈ b :: history := by
  induction history generalizing b with
  | nil => exact List.mem_cons_self
  | cons older rest ih =>
    unfold lastReal
    split
    · exact List.mem_cons_of_mem _ (ih older)
    · exact List.mem_cons_self

theorem kept_legal (hchain : ∀ b ∈ tip :: history, b.bits.Legal params.powLimit)
    (h : kept params interval tip history candidate o = .ok bits) :
    bits.Legal params.powLimit := by
  obtain ⟨-, rfl⟩ | ⟨-, isLate, -, rfl⟩ := kept_eq_ok h
  · exact hchain tip List.mem_cons_self
  · split
    · exact params.limitBits_legal
    · exact hchain _ (lastReal_mem interval params.limitBits tip history)

/-! ## One block -/

theorem step_eq (hpos : 0 < interval)
    (hinterval : params.adjustmentInterval = .ok (interval : Int)) (o : Overflow) :
    step params tip history candidate o =
      if (tip.height + 1) % interval ≠ 0 then
        .keep <$> kept params interval tip history candidate o
      else
        match tip.ancestor? history (tip.height + 1 - interval) with
        | some first => .ok (.adjust first.time)
        | none => .error (.ancestorMissing (tip.height + 1 - interval)) := by
  unfold step kept
  rw [hinterval]
  show (if (interval : Int) ≤ 0 then _ else _) = _
  rw [if_neg (by omega)]
  dsimp only [Int.toNat_natCast]
  by_cases hinside : (tip.height + 1) % interval ≠ 0
  · rw [if_pos hinside, if_pos hinside]
    split
    · rfl
    · rw [map_bind]
      apply bind_congr
      intro isLate
      cases isLate <;> rfl
  · have hle : interval ≤ tip.height + 1 :=
      Nat.le_of_dvd (Nat.succ_pos _) (Nat.dvd_of_mod_eq_zero (Decidable.not_not.1 hinside))
    rw [if_neg hinside, if_neg hinside, if_neg (Nat.not_lt.2 hle)]
    rfl

theorem nextTarget_eq (hpos : 0 < interval)
    (hinterval : params.adjustmentInterval = .ok (interval : Int)) (o : Overflow) :
    nextTarget params tip history candidate o =
      if (tip.height + 1) % interval ≠ 0 then kept params interval tip history candidate o
      else
        match tip.ancestor? history (tip.height + 1 - interval) with
        | some first => adjusted params tip first.time o
        | none => .error (.ancestorMissing (tip.height + 1 - interval)) := by
  unfold nextTarget
  rw [step_eq hpos hinterval]
  split
  · cases kept params interval tip history candidate o <;> rfl
  · split <;> rfl

/-- Chains of legal bits ask for legal bits. -/
theorem nextTarget_legal (hs : params.Sound)
    (hchain : ∀ b ∈ tip :: history, b.bits.Legal params.powLimit)
    (h : nextTarget params tip history candidate o = .ok bits) : bits.Legal params.powLimit := by
  obtain ⟨interval, hpos, hinterval⟩ := hs.adjustmentInterval_eq
  rw [nextTarget_eq hpos hinterval] at h
  split at h
  · exact kept_legal hchain h
  · split at h
    · exact adjusted_legal (hchain tip List.mem_cons_self) h
    · cases h

/-- On a chain that goes down to height zero nothing is missing. -/
theorem nextTarget_settles (hs : params.Sound) {genesis : Block}
    (hmem : genesis ∈ tip :: history) (hheight : genesis.height = 0) (candidate : Candidate) :
    Settles (nextTarget params tip history candidate ·) fun _ => True := by
  obtain ⟨interval, hpos, hinterval⟩ := hs.adjustmentInterval_eq
  simp only [nextTarget_eq hpos hinterval]
  split
  · exact kept_settles params interval tip history candidate
  · obtain ⟨first, hfirst⟩ : ∃ first, tip.ancestor? history (tip.height + 1 - interval) =
        some first :=
      Block.ancestor?_isSome hmem (by omega) (by omega)
    rw [hfirst]
    exact adjusted_settles hs tip first.time

/-- Where late blocks are not treated apart, bits change only from one interval to the next. -/
theorem nextTarget_of_div_eq (hstrict : params.allowMinDifficulty = false) (hpos : 0 < interval)
    (hinterval : params.adjustmentInterval = .ok (interval : Int))
    (hsame : (tip.height + 1) / interval = tip.height / interval)
    (h : nextTarget params tip history candidate o = .ok bits) : bits = tip.bits := by
  have hinside : (tip.height + 1) % interval ≠ 0 := by
    intro hzero
    have hnext := Nat.div_add_mod (tip.height + 1) interval
    have htip := Nat.div_add_mod tip.height interval
    rw [hsame] at hnext
    omega
  rw [nextTarget_eq hpos hinterval, if_pos hinside] at h
  obtain ⟨-, hkept⟩ | ⟨hlenient, -⟩ := kept_eq_ok h
  · exact hkept
  · rw [hstrict] at hlenient
    cases hlenient

end Interval

/-! ## A chain -/

/-- A chain built on `genesis` by blocks of any version and time that bear the bits the interval
rules ask for. -/
inductive Grown (params : ChainParams) (o : Overflow) (genesis : Block) :
    Block → List Block → Prop
  | genesis : Grown params o genesis genesis []
  | next {tip : Block} {history : List Block} (below : Grown params o genesis tip history)
      (b : Block) (height : b.height = tip.height + 1)
      (bits : nextWorkInterval params tip history ⟨b.version, b.time⟩ o = .ok b.bits) :
      Grown params o genesis b (tip :: history)

namespace Grown

variable {params : ChainParams} {o : Overflow} {genesis tip : Block} {history : List Block}
  {interval : Nat}

theorem genesis_mem (h : Grown params o genesis tip history) : genesis ∈ tip :: history := by
  induction h with
  | genesis => exact List.mem_cons_self
  | next _ b _ _ ih => exact List.mem_cons_of_mem b ih

theorem height_le (h : Grown params o genesis tip history) :
    ∀ b ∈ tip :: history, b.height ≤ tip.height := by
  induction h with
  | genesis =>
    intro b hb
    exact Nat.le_of_eq (congrArg Block.height (List.mem_singleton.1 hb))
  | next _ b hheight _ ih =>
    intro c hc
    rcases List.mem_cons.1 hc with rfl | hc
    · exact Nat.le_refl _
    · have := ih c hc
      omega

theorem legal (hs : params.Sound) (hgenesis : genesis.bits.Legal params.powLimit)
    (h : Grown params o genesis tip history) :
    ∀ b ∈ tip :: history, b.bits.Legal params.powLimit := by
  induction h with
  | genesis =>
    intro b hb
    rw [List.mem_singleton.1 hb]
    exact hgenesis
  | next _ b _ hbits ih =>
    intro c hc
    rcases List.mem_cons.1 hc with rfl | hc
    · exact Interval.nextTarget_legal hs ih hbits
    · exact ih c hc

theorem bits_eq_tip (hstrict : params.allowMinDifficulty = false) (hpos : 0 < interval)
    (hinterval : params.adjustmentInterval = .ok (interval : Int))
    (h : Grown params o genesis tip history) :
    ∀ b ∈ tip :: history, b.height / interval = tip.height / interval → b.bits = tip.bits := by
  induction h with
  | genesis =>
    intro b hb _
    rw [List.mem_singleton.1 hb]
  | @next tip history hgrown b hheight hbits ih =>
    intro c hc hsame
    rcases List.mem_cons.1 hc with rfl | hc
    · rfl
    · -- the block below lies between the two, so it is of their interval too
      have hlow : c.height / interval ≤ tip.height / interval :=
        Nat.div_le_div_right (hgrown.height_le c hc)
      have hhigh : tip.height / interval ≤ b.height / interval :=
        Nat.div_le_div_right (by omega)
      have htip : b.bits = tip.bits :=
        Interval.nextTarget_of_div_eq hstrict hpos hinterval (by rw [← hheight]; omega) hbits
      rw [htip]
      exact ih c hc (by omega)

theorem bits_eq_of_div_eq (hstrict : params.allowMinDifficulty = false) (hpos : 0 < interval)
    (hinterval : params.adjustmentInterval = .ok (interval : Int))
    (h : Grown params o genesis tip history) :
    ∀ b ∈ tip :: history, ∀ c ∈ tip :: history,
      b.height / interval = c.height / interval → b.bits = c.bits := by
  induction h with
  | genesis =>
    intro b hb c hc _
    rw [List.mem_singleton.1 hb, List.mem_singleton.1 hc]
  | next hgrown b hheight hbits ih =>
    have htop := bits_eq_tip hstrict hpos hinterval (.next hgrown b hheight hbits)
    intro c hc d hd hsame
    rcases List.mem_cons.1 hc with rfl | hc'
    · exact (htop d hd hsame.symm).symm
    · rcases List.mem_cons.1 hd with rfl | hd'
      · exact htop c hc hsame
      · exact ih c hc' d hd' hsame

end Grown

/-- For sound parameters and a legal first block, however long the chain grows, whatever becomes of
overflows: short of one the rules have a legal answer for every next block, every block bears legal
bits, and unless the rules let late blocks be found at the limit all blocks of one interval bear the
same. -/
theorem nextWorkInterval_grown {params : ChainParams} (hv : params.validate = .ok ())
    {genesis : Block} (hheight : genesis.height = 0)
    (hbits : genesis.bits.Legal params.powLimit) {o : Overflow} {tip : Block}
    {history : List Block} (h : Grown params o genesis tip history) :
    (∀ candidate, Settles (nextWorkInterval params tip history candidate ·) fun bits =>
      bits.Legal params.powLimit) ∧
    (∀ b ∈ tip :: history, b.bits.Legal params.powLimit) ∧
    ∃ interval : Nat, 0 < interval ∧ params.adjustmentInterval = .ok (interval : Int) ∧
      (params.allowMinDifficulty = false → ∀ b ∈ tip :: history, ∀ c ∈ tip :: history,
        b.height / interval = c.height / interval → b.bits = c.bits) := by
  have hs := ChainParams.sound_of_validate hv
  have hlegal := h.legal hs hbits
  obtain ⟨interval, hpos, hinterval⟩ := hs.adjustmentInterval_eq
  refine ⟨?_, hlegal, interval, hpos, hinterval, ?_⟩
  · intro candidate
    apply (Interval.nextTarget_settles hs h.genesis_mem hheight candidate).of_ok
    intro o bits hnext
    exact Interval.nextTarget_legal hs hlegal hnext
  · intro hstrict
    exact h.bits_eq_of_div_eq hstrict hpos hinterval

/-- Two blocks to an interval. -/
def pairParams : ChainParams := { ChainParams.main with timespan := 240 }

/-- A block of a chain that finds them twice as fast as it should. -/
def fastBlock (bits : CompactTarget) (height : Nat) : Block :=
  ⟨.zero, none, height, 0x100, 60 * height, bits⟩

/-- Below the top of the second interval, which is four times as hard as the first. -/
def fastHistory : List Block :=
  [fastBlock ⟨0x1e03ffff⟩ 2, fastBlock pairParams.limitBits 1, fastBlock pairParams.limitBits 0]

theorem grown_fast :
    Grown pairParams .faults (fastBlock pairParams.limitBits 0) (fastBlock ⟨0x1e03ffff⟩ 3)
      fastHistory := by
  refine .next (.next (.next .genesis _ rfl ?_) _ rfl ?_) _ rfl ?_
  all_goals decide +kernel

theorem nextWorkInterval_grown_fast :
    pairParams.validate = .ok () ∧ (fastBlock pairParams.limitBits 0).height = 0 ∧
    (fastBlock pairParams.limitBits 0).bits.Legal pairParams.powLimit ∧
    Grown pairParams .faults (fastBlock pairParams.limitBits 0) (fastBlock ⟨0x1e03ffff⟩ 3)
      fastHistory ∧
    pairParams.allowMinDifficulty = false ∧
    ∃ interval : Nat, 0 < interval ∧ pairParams.adjustmentInterval = .ok (interval : Int) ∧
      ∀ b ∈ fastBlock ⟨0x1e03ffff⟩ 3 :: fastHistory, ∀ c ∈ fastBlock ⟨0x1e03ffff⟩ 3 :: fastHistory,
        b.height / interval = c.height / interval → b.bits = c.bits := by
  have hv : pairParams.validate = .ok () := by decide
  have hlegal : (fastBlock pairParams.limitBits 0).bits.Legal pairParams.powLimit :=
    pairParams.limitBits_legal
  obtain ⟨-, -, interval, hpos, hinterval, hsame⟩ :=
    nextWorkInterval_grown hv rfl hlegal grown_fast
  exact ⟨hv, rfl, hlegal, grown_fast, rfl, interval, hpos, hinterval, hsame rfl⟩

end SporkNode.Work
