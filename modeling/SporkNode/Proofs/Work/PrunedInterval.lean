import SporkNode.Proofs.Chain.Trail
import SporkNode.Proofs.Work.Interval

/-!
The interval rules on a chain of which the older blocks are gone. At the end of an interval a
missing block is reported. Inside one the search for a target that was not made easy for a late
block settles for the oldest block there is: where that and all newer ones are at the limit the
answer is the limit, be it right or wrong. Nowhere else does a missing block change an answer.
-/

namespace SporkNode.Work

open Chain

theorem Block.ancestor?_append {b first : Block} {history : List Block} {height : Nat}
    (h : b.ancestor? history height = some first) (deeper : List Block) :
    b.ancestor? (history ++ deeper) height = some first := by
  unfold Block.ancestor? at h ⊢
  split at h
  · cases h
  · rw [if_neg ‹_›, ← List.cons_append, List.find?_append, h]
    rfl

namespace Interval

variable {params : ChainParams} {tip : Block} {history deeper : List Block}
  {candidate : Candidate} {interval : Nat} {limit : CompactTarget} {b : Block} {o : Overflow}

/-- A block that the search for a target passes by. -/
def Passed (interval : Nat) (limit : CompactTarget) (b : Block) : Prop :=
  b.height % interval ≠ 0 ∧ b.bits = limit

/-- The search is made, and there is no block at which it should end. -/
structure RunsOff (params : ChainParams) (interval : Nat) (tip : Block) (history : List Block)
    (candidate : Candidate) (o : Overflow) : Prop where
  inside : (tip.height + 1) % interval ≠ 0
  lenient : params.allowMinDifficulty = true
  timely : late params tip candidate o = .ok false
  passed : ∀ b ∈ tip :: history, Passed interval params.limitBits b

/-! ## The search -/

/-- By induction on the blocks passed by. -/
theorem lastReal_append (h : ∃ c ∈ b :: history, ¬ Passed interval limit c)
    (deeper : List Block) :
    lastReal interval limit b (history ++ deeper) = lastReal interval limit b history := by
  obtain ⟨c, hc, hstops⟩ := h
  induction history generalizing b with
  | nil =>
    obtain rfl := List.mem_singleton.1 hc
    cases deeper with
    | nil => rfl
    | cons older rest => exact if_neg hstops
  | cons older rest ih =>
    rw [List.cons_append, lastReal, lastReal]
    split
    · rename_i hpassed
      rcases List.mem_cons.1 hc with rfl | hc
      · exact absurd hpassed hstops
      · exact ih hc
    · rfl

theorem kept_append (hinside : (tip.height + 1) % interval ≠ 0)
    (h : ¬ RunsOff params interval tip history candidate o) (deeper : List Block) :
    kept params interval tip history candidate o =
      kept params interval tip (history ++ deeper) candidate o := by
  cases hlenient : params.allowMinDifficulty with
  | false =>
    unfold kept
    rw [hlenient]
    rfl
  | true =>
    cases hlate : late params tip candidate o with
    | error e =>
      unfold kept
      rw [hlate]
      rfl
    | ok isLate =>
      rw [kept_of_late hlenient hlate, kept_of_late hlenient hlate]
      cases isLate with
      | true => rfl
      | false =>
        have hstops : ∃ c ∈ tip :: history, ¬ Passed interval params.limitBits c := by
          apply Classical.byContradiction
          intro hnone
          apply h
          refine ⟨hinside, hlenient, hlate, fun b hb => ?_⟩
          exact Classical.byContradiction fun hb' => hnone ⟨b, hb, hb'⟩
        rw [lastReal_append hstops]

theorem nextTarget_append_or (hpos : 0 < interval)
    (hinterval : params.adjustmentInterval = .ok (interval : Int))
    (h : ¬ RunsOff params interval tip history candidate o) (deeper : List Block) :
    nextTarget params tip history candidate o =
        nextTarget params tip (history ++ deeper) candidate o ∨
      ∃ height, nextTarget params tip history candidate o = .error (.ancestorMissing height) := by
  rw [nextTarget_eq hpos hinterval, nextTarget_eq hpos hinterval]
  by_cases hinside : (tip.height + 1) % interval ≠ 0
  · rw [if_pos hinside, if_pos hinside, kept_append hinside h deeper]
    exact .inl rfl
  · rw [if_neg hinside, if_neg hinside]
    cases hfirst : tip.ancestor? history (tip.height + 1 - interval) with
    | none => exact .inr ⟨_, rfl⟩
    | some first =>
      rw [Block.ancestor?_append hfirst]
      exact .inl rfl

/-- Without a block to end at the search comes back with the limit. -/
theorem RunsOff.nextTarget_eq (hpos : 0 < interval)
    (hinterval : params.adjustmentInterval = .ok (interval : Int))
    (h : RunsOff params interval tip history candidate o) :
    nextTarget params tip history candidate o = .ok params.limitBits := by
  obtain ⟨-, hbits⟩ := h.passed _ (lastReal_mem interval params.limitBits tip history)
  rw [Interval.nextTarget_eq hpos hinterval, if_pos h.inside, kept_of_late h.lenient h.timely,
    if_neg Bool.false_ne_true, hbits]

/-- The search ends at the first block of the interval, so it has run off before that. -/
theorem RunsOff.lt_mod {parent? : Block → Option Block} {n : Nat}
    (hchain : Rooted parent? tip history)
    (h : RunsOff params interval tip (history.take n) candidate o) :
    n < tip.height % interval := by
  obtain ⟨c, hc, hheight⟩ := hchain.getElem?_height (Nat.mod_le tip.height interval)
  apply Nat.lt_of_not_le
  intro hle
  have hmem : c ∈ tip :: history.take n := by
    rw [← List.take_succ_cons]
    apply List.mem_of_getElem? (i := tip.height % interval)
    rw [List.getElem?_take_of_lt (Nat.lt_succ_of_le hle), hc]
  obtain ⟨hnot, -⟩ := h.passed c hmem
  apply hnot
  have hdown : c.height = tip.height - tip.height % interval := by omega
  rw [hdown]
  exact Nat.sub_mod_eq_zero_of_mod_eq (Nat.mod_mod _ _).symm

/-- For sound parameters, with or without a rule for late blocks, an index of a chain that goes down
to height zero, and any candidate: over the newest blocks the rules answer as over all of them or
report a missing block, unless the search for a target runs off what is left. Then the answer is the
limit, which is right only where the whole chain leads to it; and that happens only if the first
block of the interval is missing. Short of an overflow there is an answer over all of them, and
whatever becomes of one, the rest holds. -/
theorem nextTarget_top (hv : params.validate = .ok ()) {i : BlockIndex} (hi : i.WellKeyed)
    (htip : i.tip? = some tip) (hchain : Rooted i.previous? tip history) (candidate : Candidate)
    (n : Nat) :
    ∃ interval : Nat, 0 < interval ∧ params.adjustmentInterval = .ok (interval : Int) ∧
      Settles (nextTarget params tip (i.history tip) candidate ·) (fun _ => True) ∧
      ∀ o,
        ((nextTarget params tip ((i.top (n + 1)).history tip) candidate o =
              nextTarget params tip (i.history tip) candidate o ∨
            ∃ height, nextTarget params tip ((i.top (n + 1)).history tip) candidate o =
              .error (.ancestorMissing height)) ↔
          (RunsOff params interval tip (history.take n) candidate o →
            nextTarget params tip (i.history tip) candidate o = .ok params.limitBits)) ∧
        (RunsOff params interval tip (history.take n) candidate o →
          nextTarget params tip ((i.top (n + 1)).history tip) candidate o = .ok params.limitBits ∧
            n < tip.height % interval) := by
  have hs := ChainParams.sound_of_validate hv
  obtain ⟨interval, hpos, hinterval⟩ := hs.adjustmentInterval_eq
  have hsettles := nextTarget_settles hs List.getLastD_mem_cons hchain.getLastD_height candidate
  rw [BlockIndex.history_of_rooted hchain, hi.history_top htip hchain]
  refine ⟨interval, hpos, hinterval, hsettles, fun o => ⟨⟨?_, ?_⟩, ?_⟩⟩
  · intro hright hruns
    rw [hruns.nextTarget_eq hpos hinterval] at hright
    obtain hsame | ⟨height, herror⟩ := hright
    · exact hsame.symm
    · cases herror
  · intro hlimit
    by_cases hruns : RunsOff params interval tip (history.take n) candidate o
    · rw [hruns.nextTarget_eq hpos hinterval, hlimit hruns]
      exact .inl rfl
    · have hor := nextTarget_append_or hpos hinterval hruns (history.drop n)
      rw [List.take_append_drop] at hor
      exact hor
  · intro hruns
    exact ⟨hruns.nextTarget_eq hpos hinterval, hruns.lt_mod hchain⟩

/-! ## A late block -/

/-- Three blocks to an interval, and late blocks at the limit. -/
def lenientParams : ChainParams :=
  { ChainParams.main with timespan := 360, allowMinDifficulty := true }

def firstBlock : Block := ⟨.ofNat 1, none, 0, 0, 0, ⟨0x1d00ffff⟩⟩

/-- Ten minutes late. -/
def lateBlock : Block := ⟨.ofNat 2, some (.ofNat 1), 1, 0, 600, ChainParams.main.limitBits⟩

def lateIndex : BlockIndex := .ofBlocks [firstBlock, lateBlock]

theorem wellKeyed_late : lateIndex.WellKeyed :=
  BlockIndex.wellKeyed_ofBlocks [firstBlock, lateBlock]

theorem tip?_late : lateIndex.tip? = some lateBlock := by
  apply BlockIndex.tip?_insert
  intro tip htip
  have hfirst : (BlockIndex.empty.insert firstBlock).tip? = some firstBlock :=
    BlockIndex.tip?_insert fun tip htip => absurd htip nofun
  obtain rfl : firstBlock = tip := Option.some.inj (hfirst.symm.trans htip)
  decide

theorem rooted_late : Rooted lateIndex.previous? lateBlock [firstBlock] := by
  have hparent : lateIndex.previous? lateBlock = some firstBlock := by
    show lateIndex.get? (.ofNat 1) = _
    rw [lateIndex, BlockIndex.get?_ofBlocks]
    decide
  exact .next hparent rfl (.first rfl rfl)

theorem runsOff_late :
    RunsOff lenientParams 3 lateBlock ([firstBlock].take 0) ⟨0, 660⟩ .faults := by
  refine ⟨by decide, rfl, by decide, fun b hb => ?_⟩
  obtain rfl := List.mem_singleton.1 hb
  exact ⟨by decide, rfl⟩

theorem nextTarget_whole_late :
    nextTarget lenientParams lateBlock (lateIndex.history lateBlock) ⟨0, 660⟩ .faults =
      .ok ⟨0x1d00ffff⟩ := by
  rw [BlockIndex.history_of_rooted rooted_late]
  decide +kernel

/-- With the first block at hand the answer is right, without it the limit. -/
theorem nextTarget_top_late :
    lenientParams.validate = .ok () ∧ lateIndex.WellKeyed ∧ lateIndex.tip? = some lateBlock ∧
    Rooted lateIndex.previous? lateBlock [firstBlock] ∧
    RunsOff lenientParams 3 lateBlock ([firstBlock].take 0) ⟨0, 660⟩ .faults ∧
    nextTarget lenientParams lateBlock ((lateIndex.top 1).history lateBlock) ⟨0, 660⟩ .faults =
      .ok lenientParams.limitBits ∧
    (nextTarget lenientParams lateBlock ((lateIndex.top 2).history lateBlock) ⟨0, 660⟩ .faults =
        .ok ⟨0x1d00ffff⟩ ∨
      ∃ height, nextTarget lenientParams lateBlock ((lateIndex.top 2).history lateBlock)
        ⟨0, 660⟩ .faults = .error (.ancestorMissing height)) := by
  have hv : lenientParams.validate = .ok () := by decide
  have hthree : lenientParams.adjustmentInterval = .ok (3 : Nat) := by decide
  obtain ⟨interval, -, hinterval, -, hone⟩ :=
    nextTarget_top hv wellKeyed_late tip?_late rooted_late ⟨0, 660⟩ 0
  obtain ⟨interval', -, hinterval', -, htwo⟩ :=
    nextTarget_top hv wellKeyed_late tip?_late rooted_late ⟨0, 660⟩ 1
  obtain rfl : interval = 3 := Int.ofNat.inj (eq_of_ok hinterval hthree)
  obtain ⟨hlimit, -⟩ := (hone .faults).2 runsOff_late
  have hright := (htwo .faults).1
  rw [nextTarget_whole_late] at hright
  refine ⟨hv, wellKeyed_late, tip?_late, rooted_late, runsOff_late, hlimit, hright.2 ?_⟩
  intro hruns
  obtain ⟨hinside, -⟩ := hruns.passed firstBlock (List.mem_cons_of_mem _ List.mem_cons_self)
  exact absurd (Nat.zero_mod _) hinside

/-- On the newest of two blocks the rules answer with the limit. On both they answer with the bits
of the first, which are some 4096 times as hard. -/
theorem nextTarget_top_forgets :
    lenientParams.validate = .ok () ∧ lateIndex.tip? = some lateBlock ∧
    Rooted lateIndex.previous? lateBlock [firstBlock] ∧
    nextTarget lenientParams lateBlock (lateIndex.history lateBlock) ⟨0, 660⟩ =
      .ok ⟨0x1d00ffff⟩ ∧
    nextTarget lenientParams lateBlock ((lateIndex.top 1).history lateBlock) ⟨0, 660⟩ =
      .ok ⟨0x1e0fffff⟩ := by
  refine ⟨by decide, tip?_late, rooted_late, nextTarget_whole_late, ?_⟩
  have hnewest : (lateIndex.top 1).history lateBlock = [] :=
    wellKeyed_late.history_top tip?_late rooted_late 0
  rw [hnewest]
  decide +kernel

end Interval

end SporkNode.Work
