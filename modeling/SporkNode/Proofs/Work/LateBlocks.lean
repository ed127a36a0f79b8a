import SporkNode.Proofs.Work.PrunedInterval

/-!
Late blocks inside an interval. A late block may be found at the limit, and what the next block owes
is looked for behind it. On a chain that the rules have grown the search ends in the interval, with
the bits of its first block: each block since then bears these bits or is passed by. So however many
late blocks there are, those in time go on as the interval began.
-/

namespace SporkNode.Work

namespace Interval

variable {params : ChainParams} {tip first b : Block} {history : List Block}
  {candidate : Candidate} {interval height : Nat} {limit bits : CompactTarget} {o : Overflow}

/-- `first` is at the height at which the interval of `height` begins. -/
structure Opens (interval : Nat) (first : Block) (height : Nat) : Prop where
  starts : first.height % interval = 0
  same : first.height / interval = height / interval

theorem Opens.le (h : Opens interval first height) : first.height ≤ height := by
  have hfirst := Nat.div_add_mod first.height interval
  rw [h.starts, h.same, Nat.add_zero] at hfirst
  rw [← hfirst]
  exact Nat.mul_div_le height interval

theorem Opens.succ (h : Opens interval first height) (hinside : (height + 1) % interval ≠ 0) :
    Opens interval first (height + 1) := by
  refine ⟨h.starts, ?_⟩
  rw [h.same, Nat.succ_div_of_not_dvd]
  intro hdvd
  exact hinside (Nat.mod_eq_zero_of_dvd hdvd)

/-! ## The search -/

theorem lastReal_of_passed (h : Passed interval limit b) (older : Block) (rest : List Block) :
    lastReal interval limit b (older :: rest) = lastReal interval limit older rest :=
  if_pos h

theorem lastReal_of_not_passed (h : ¬ Passed interval limit b) (history : List Block) :
    lastReal interval limit b history = b := by
  cases history with
  | nil => rfl
  | cons older rest => exact if_neg h

theorem kept_of_lenient (hlenient : params.allowMinDifficulty = true)
    (h : kept params interval tip history candidate o = .ok bits) :
    bits = params.limitBits ∨ bits = (lastReal interval params.limitBits tip history).bits := by
  obtain ⟨hstrict, -⟩ | ⟨-, isLate, -, rfl⟩ := kept_eq_ok h
  · rw [hlenient] at hstrict
    cases hstrict
  · split
    · exact .inl rfl
    · exact .inr rfl

/-- Behind `tip` the search ends at `first`, which begins the interval, or above it, and with the
bits of `first`. -/
structure Settled (params : ChainParams) (interval : Nat) (tip : Block) (history : List Block)
    (first : Block) : Prop where
  mem : first ∈ tip :: history
  opens : Opens interval first tip.height
  stops : ¬ Passed interval params.limitBits (lastReal interval params.limitBits tip history)
  above : first.height ≤ (lastReal interval params.limitBits tip history).height
  bits : (lastReal interval params.limitBits tip history).bits = first.bits

namespace Settled

/-- The search does not go beyond the first block of an interval, whatever its bits. -/
theorem start (hstart : b.height % interval = 0) (history : List Block) :
    Settled params interval b history b := by
  have hnot : ¬ Passed interval params.limitBits b := fun h => h.1 hstart
  have hfound := lastReal_of_not_passed hnot history
  refine ⟨List.mem_cons_self, ⟨hstart, rfl⟩, ?_, ?_, ?_⟩
  · rw [hfound]
    exact hnot
  · exact Nat.le_of_eq (congrArg Block.height hfound.symm)
  · exact congrArg Block.bits hfound

/-- A further block of the interval is passed by, or it bears what the search found before. -/
theorem next (h : Settled params interval tip history first) (hheight : b.height = tip.height + 1)
    (hinside : b.height % interval ≠ 0)
    (hbits : b.bits = params.limitBits ∨
      b.bits = (lastReal interval params.limitBits tip history).bits) :
    Settled params interval b (tip :: history) first := by
  have hmem : first ∈ b :: tip :: history := List.mem_cons_of_mem b h.mem
  have hopens : Opens interval first b.height := by
    rw [hheight] at hinside ⊢
    exact h.opens.succ hinside
  by_cases hlimit : b.bits = params.limitBits
  · have hfound := lastReal_of_passed ⟨hinside, hlimit⟩ tip history
    refine ⟨hmem, hopens, ?_, ?_, ?_⟩
    · rw [hfound]
      exact h.stops
    · rw [hfound]
      exact h.above
    · rw [hfound]
      exact h.bits
  · have hnot : ¬ Passed interval params.limitBits b := fun hpassed => hlimit hpassed.2
    have hfound := lastReal_of_not_passed hnot (tip :: history)
    refine ⟨hmem, hopens, ?_, ?_, ?_⟩
    · rw [hfound]
      exact hnot
    · rw [hfound]
      exact hopens.le
    · rw [hfound, hbits.resolve_left hlimit]
      exact h.bits

theorem tip_bits (h : Settled params interval tip history first) :
    tip.bits = params.limitBits ∨ tip.bits = first.bits := by
  by_cases hpassed : Passed interval params.limitBits tip
  · exact .inl hpassed.2
  · right
    rw [← h.bits, lastReal_of_not_passed hpassed]

end Settled

end Interval

/-! ## The chain -/

namespace Grown

variable {params : ChainParams} {o : Overflow} {genesis tip : Block} {history : List Block}
  {interval : Nat}

/-- By induction on the blocks of the chain. -/
theorem settled (hlenient : params.allowMinDifficulty = true) (hpos : 0 < interval)
    (hinterval : params.adjustmentInterval = .ok (interval : Int)) (hheight : genesis.height = 0)
    (h : Grown params o genesis tip history) :
    ∃ first, Interval.Settled params interval tip history first := by
  induction h with
  | genesis =>
    refine ⟨genesis, .start ?_ []⟩
    rw [hheight, Nat.zero_mod]
  | @next tip history _ b hnext hbits ih =>
    by_cases hstart : b.height % interval = 0
    · exact ⟨b, .start hstart _⟩
    · obtain ⟨first, hfirst⟩ := ih
      have hinside : (tip.height + 1) % interval ≠ 0 := by
        rw [← hnext]
        exact hstart
      rw [nextWorkInterval, Interval.nextTarget_eq hpos hinterval, if_pos hinside] at hbits
      exact ⟨first, hfirst.next hnext hstart (Interval.kept_of_lenient hlenient hbits)⟩

/-- Each block of the chain ends a chain that the rules have grown. -/
theorem exists_suffix (h : Grown params o genesis tip history) {b : Block}
    (hb : b ∈ tip :: history) :
    ∃ rest, Grown params o genesis b rest ∧ b :: rest <:+ tip :: history := by
  induction h with
  | genesis =>
    obtain rfl := List.mem_singleton.1 hb
    exact ⟨[], .genesis, List.suffix_refl _⟩
  | next lower c hheight hbits ih =>
    rcases List.mem_cons.1 hb with rfl | hb
    · exact ⟨_, .next lower b hheight hbits, List.suffix_refl _⟩
    · obtain ⟨rest, hrest, hsuffix⟩ := ih hb
      exact ⟨rest, hrest, hsuffix.trans (List.suffix_cons c _)⟩

theorem bits_eq_or (hlenient : params.allowMinDifficulty = true) (hpos : 0 < interval)
    (hinterval : params.adjustmentInterval = .ok (interval : Int)) (hheight : genesis.height = 0)
    (h : Grown params o genesis tip history) :
    ∀ b ∈ tip :: history, ∃ first ∈ tip :: history, Interval.Opens interval first b.height ∧
      (b.bits = params.limitBits ∨ b.bits = first.bits) := by
  intro b hb
  obtain ⟨rest, hrest, hsuffix⟩ := h.exists_suffix hb
  obtain ⟨first, hfirst⟩ := hrest.settled hlenient hpos hinterval hheight
  exact ⟨first, hsuffix.subset hfirst.mem, hfirst.opens, hfirst.tip_bits⟩

end Grown

open SporkNode.Work.Interval in
/-- For sound parameters that let late blocks be found at the limit, and a chain that the rules have
grown from height zero to any length: inside an interval the rules ask of a block that is more than
two spacings late for the bits of the limit, and of any other for those of the first block of the
interval, as long as two spacings after the tip is a time that fits in 64 bits; where it is not, for
one of the two if they ask for any. The search for them ends at the first block or above it, at one
that it does not pass by. All blocks of the chain bear the bits of the limit or those of the first
block of their interval. -/
theorem nextWorkInterval_inside {params : ChainParams} (hv : params.validate = .ok ())
    (hlenient : params.allowMinDifficulty = true) {genesis : Block} (hheight : genesis.height = 0)
    {o : Overflow} {tip : Block} {history : List Block}
    (h : Grown params o genesis tip history) :
    ∃ interval : Nat, 0 < interval ∧ params.adjustmentInterval = .ok (interval : Int) ∧
      ((tip.height + 1) % interval ≠ 0 →
        ∃ first ∈ tip :: history, Opens interval first (tip.height + 1) ∧
          (∀ candidate o',
            (FitsSigned (2 * params.spacing) → FitsSigned (tip.time + 2 * params.spacing) →
              nextWorkInterval params tip history candidate o' =
                .ok (if tip.time + 2 * params.spacing < candidate.time then params.limitBits
                  else first.bits)) ∧
            ∀ bits, nextWorkInterval params tip history candidate o' = .ok bits →
              bits = params.limitBits ∨ bits = first.bits) ∧
          let found := lastReal interval params.limitBits tip history
          found ∈ tip :: history ∧ ¬ Passed interval params.limitBits found ∧
            first.height ≤ found.height) ∧
      ∀ b ∈ tip :: history, ∃ first ∈ tip :: history, Opens interval first b.height ∧
        (b.bits = params.limitBits ∨ b.bits = first.bits) := by
  have hs := ChainParams.sound_of_validate hv
  obtain ⟨interval, hpos, hinterval⟩ := hs.adjustmentInterval_eq
  refine ⟨interval, hpos, hinterval, ?_, h.bits_eq_or hlenient hpos hinterval hheight⟩
  intro hinside
  obtain ⟨first, hfirst⟩ := h.settled hlenient hpos hinterval hheight
  refine ⟨first, hfirst.mem, hfirst.opens.succ hinside, fun candidate o' => ?_,
    lastReal_mem interval params.limitBits tip history, hfirst.stops, hfirst.above⟩
  rw [nextWorkInterval, nextTarget_eq hpos hinterval, if_pos hinside, ← hfirst.bits]
  constructor
  · intro hdouble hdue
    rw [kept_of_late hlenient (late_of_fits hdouble hdue candidate o')]
    simp only [decide_eq_true_eq]
  · exact fun bits => kept_of_lenient hlenient

namespace Interval

/-- A block that is found in time. -/
def timelyBlock (height : Nat) (bits : CompactTarget) : Block :=
  ⟨.zero, none, height, 0, 120 * height, bits⟩

/-- The second block of the second interval, eleven minutes after the first. -/
def lateTip : Block := ⟨.zero, none, 4, 0, 1020, lenientParams.limitBits⟩

/-- The first interval took two thirds of its time, so the target came down to two thirds. -/
def lateHistory : List Block :=
  [timelyBlock 3 ⟨0x1d00aaaa⟩, timelyBlock 2 ⟨0x1d00ffff⟩, timelyBlock 1 ⟨0x1d00ffff⟩,
    timelyBlock 0 ⟨0x1d00ffff⟩]

theorem grown_late :
    Grown lenientParams .faults (timelyBlock 0 ⟨0x1d00ffff⟩) lateTip lateHistory := by
  refine .next (.next (.next (.next .genesis _ rfl ?_) _ rfl ?_) _ rfl ?_) _ rfl ?_
  all_goals decide +kernel

/-- After the late block one in time is as hard as the interval began, and another late one is
not. -/
theorem nextWorkInterval_inside_late :
    lenientParams.validate = .ok () ∧ lenientParams.allowMinDifficulty = true ∧
    (timelyBlock 0 ⟨0x1d00ffff⟩).height = 0 ∧
    Grown lenientParams .faults (timelyBlock 0 ⟨0x1d00ffff⟩) lateTip lateHistory ∧
    (lateTip.height + 1) % 3 ≠ 0 ∧
    FitsSigned (2 * lenientParams.spacing) ∧
    FitsSigned (lateTip.time + 2 * lenientParams.spacing) ∧
    nextWorkInterval lenientParams lateTip lateHistory ⟨0, 1260⟩ .faults = .ok ⟨0x1d00aaaa⟩ ∧
    nextWorkInterval lenientParams lateTip lateHistory ⟨0, 1261⟩ .faults =
      .ok lenientParams.limitBits := by
  have hv : lenientParams.validate = .ok () := by decide
  have hthree : lenientParams.adjustmentInterval = .ok (3 : Nat) := by decide
  have hinside : (lateTip.height + 1) % 3 ≠ 0 := by decide
  have hdouble : FitsSigned (2 * lenientParams.spacing) := by decide
  have hdue : FitsSigned (lateTip.time + 2 * lenientParams.spacing) := by decide
  obtain ⟨interval, -, hinterval, hrules, -⟩ := nextWorkInterval_inside hv rfl rfl grown_late
  obtain rfl : interval = 3 := Int.ofNat.inj (eq_of_ok hinterval hthree)
  obtain ⟨first, hmem, hopens, hbits, -⟩ := hrules hinside
  have hfirst : first.bits = ⟨0x1d00aaaa⟩ := by
    simp only [lateHistory, List.mem_cons, List.not_mem_nil, or_false] at hmem
    obtain rfl | rfl | rfl | rfl | rfl := hmem
    · exact absurd hopens.starts (by decide)
    · rfl
    · exact absurd hopens.starts (by decide)
    · exact absurd hopens.starts (by decide)
    · exact absurd hopens.same (by decide)
  refine ⟨hv, rfl, rfl, grown_late, hinside, hdouble, hdue, ?_, ?_⟩
  · rw [(hbits ⟨0, 1260⟩ .faults).1 hdouble hdue, if_neg (by decide), hfirst]
  · rw [(hbits ⟨0, 1261⟩ .faults).1 hdouble hdue, if_pos (by decide)]

/-- A spacing of which the double just fits, and two blocks to an interval. -/
def sparseParams : ChainParams :=
  { ChainParams.main with
    spacing := 0x3fffffffffffffff
    timespan := 0x7ffffffffffffffe
    allowMinDifficulty := true }

def sparseBlock : Block := ⟨.zero, none, 0, 0, 1000, ⟨0x1d00ffff⟩⟩

/-- A second after the first block the next one is not late. But the time at which it would be
overflows, so the rules have no answer, or the limit. -/
theorem nextWorkInterval_due_overflows :
    sparseParams.validate = .ok () ∧ sparseParams.allowMinDifficulty = true ∧
    sparseBlock.height = 0 ∧ (∀ o, Grown sparseParams o sparseBlock sparseBlock []) ∧
    sparseParams.adjustmentInterval = .ok 2 ∧ (sparseBlock.height + 1) % 2 ≠ 0 ∧
    ¬ sparseBlock.time + 2 * sparseParams.spacing < 1001 ∧
    nextWorkInterval sparseParams sparseBlock [] ⟨0, 1001⟩ .faults =
      .error (.undefined .overflow) ∧
    nextWorkInterval sparseParams sparseBlock [] ⟨0, 1001⟩ .wraps = .ok ⟨0x1e0fffff⟩ := by
  refine ⟨by decide, rfl, rfl, fun _ => .genesis, by decide, by decide, by decide, ?_, ?_⟩
  · decide +kernel
  · decide +kernel

end Interval

end SporkNode.Work
