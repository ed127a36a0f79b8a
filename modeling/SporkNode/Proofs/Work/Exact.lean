import SporkNode.Proofs.Work.Attainable

/-!
The wave on natural numbers. Words of 256 bits wrap silently, so the wave is computed twice more: on
numbers without a bound and on numbers that are refused beyond a width. Where the limit leaves room
for the sums of an average, for the two scalings and for the handbrake, all three answer alike. On
the main and the test network it does once the spacing fix is in force.
-/

namespace SporkNode.Work

/-! ## What a walk averages -/

/-- The blocks that a walk counts have targets of at most `high`, and there is room to average as
many of these as the window takes in. -/
structure Window.Fits (w : Window) (high : Nat) (tag : Int32) (blocks : List Block) : Prop where
  own : 0 < w.own
  size : w.blocks < 2 ^ 256
  room : high * w.blocks < 2 ^ 256
  bits : ∀ b ∈ blocks.take (reach w tag blocks), b.bits.toTarget.toNat ≤ high

theorem Window.Fits.within {w : Window} {high : Nat} {tag : Int32} {blocks blocks' : List Block}
    (h : w.Fits high tag blocks) (hsub : blocks'.Sublist (blocks.take (reach w tag blocks)))
    (tip : Block) : (Series.ofBlocks tip blocks').Within 0 high := by
  have hreach : reach w tag blocks ≤ w.blocks := Nat.min_le_left _ _
  have hlength : blocks'.length ≤ w.blocks :=
    calc
      blocks'.length ≤ (blocks.take (reach w tag blocks)).length := hsub.length_le
      _ ≤ reach w tag blocks := List.length_take_le _ _
      _ ≤ w.blocks := hreach
  exact Series.ofBlocks_within tip
    (fun b hb => ⟨Nat.zero_le _, h.bits b (hsub.subset hb)⟩)
    (Nat.lt_of_le_of_lt (Nat.mul_le_mul_left _ hlength) h.room)

namespace Exact

inductive Fault
  | wraps
  | work (e : WorkError)
  deriving DecidableEq, Repr

abbrev Result := Except Fault

/-- A computation of the wave that words of 256 bits play no part in. -/
def ofWork {α : Type} (x : Except WorkError α) : Result α := x.mapError .work

structure Series where
  count : Nat
  average : Nat
  earliest : Block
  deriving DecidableEq

structure Survey where
  cursor : Block
  chain : Series
  chainFast : Series
  own : Series
  ownFast : Series
  deriving DecidableEq

def Series.start (tip : Block) : Series := ⟨0, 0, tip⟩

/-! ## The wave -/

section

variable (width : Option Nat)

/-- A product or a sum. With a width there is no room for a number of more bits. -/
def fit (n : Nat) : Result Nat :=
  if width.all (n < 2 ^ ·) then .ok n else .error .wraps

def runningAverage (average n next : Nat) : Result Nat := do
  let weighted ← fit width (average * (n - 1))
  let sum ← fit width (weighted + next)
  return sum / n

def Series.push (s : Series) (block : Block) (target : Nat) : Result Series := do
  let average ← runningAverage width s.average (s.count + 1) target
  return ⟨s.count + 1, average, block⟩

namespace Survey

def start (tip : Block) : Survey :=
  let s := Series.start tip
  ⟨tip, s, s, s, s⟩

def goesOn (s : Survey) (w : Window) : Bool := s.chain.count < w.blocks && s.own.count < w.own

def visit (s : Survey) (tag : Int32) : Result Survey := do
  let block := s.cursor
  let target := block.bits.toTarget.toNat / efficiencyOf block.version block.height
  let matching := algorithmTag block.version = tag
  let own ← if matching then s.own.push width block target else pure s.own
  let chain ← s.chain.push width block target
  return {
    cursor := block
    chain := chain
    chainFast := if chain.count ≤ Wave.fastBlocks then chain else s.chainFast
    own := own
    ownFast := if matching ∧ own.count ≤ Wave.fastOwn then own else s.ownFast }

def walk (w : Window) (tag : Int32) : List Block → Survey → Result Survey
  | [], s =>
    if s.goesOn w then do
      let s ← s.visit width tag
      if s.chain.count = w.blocks then return s
      else throw (.work (.ancestorMissing s.cursor.height))
    else return s
  | older :: rest, s =>
    if s.goesOn w then do
      let s ← s.visit width tag
      if s.chain.count = w.blocks then return s else walk w tag rest { s with cursor := older }
    else return s

def defended (s : Survey) (gap spacing : Int) : Survey :=
  if gap < spacing.tdiv 2 then { s with chain := s.chainFast, cursor := s.chainFast.earliest }
  else s

def ownDefended (s : Survey) (gap round : Int) : Series :=
  if gap < round.tdiv 2 then s.ownFast else s.own

end Survey

def survey (params : ChainParams) (w : Window) (tip : Block) (history : List Block)
    (candidate : Candidate) (o : Overflow) : Result Survey := do
  let s ← Survey.walk width w (algorithmTag candidate.version) history (.start tip)
  let gap ← ofWork (o.signed (tip.time - s.chainFast.earliest.time))
  return s.defended gap params.spacing

def scaleByTime (target : Nat) (actual expected : Int) (o : Overflow) : Result Nat := do
  let most ← ofWork (o.signed (2 * expected))
  let actual ← ofWork (clamp actual 1 most)
  let product ← fit width (target * actual.toNat)
  return product / expected.toNat

def ownTarget (params : ChainParams) (factor : Int) (tip : Block) (s : Survey) (o : Overflow) :
    Result Nat :=
  if 1 < s.own.count then do
    let gap ← ofWork (o.signed (tip.time - s.ownFast.earliest.time))
    let round ← ofWork (o.signed (params.spacing * factor))
    let own := s.ownDefended gap round
    let expected ← ofWork (o.signed (own.count * params.spacing))
    let expected ← ofWork (o.signed (expected * factor))
    let actual ← ofWork (o.signed (tip.time - own.earliest.time))
    scaleByTime width own.average actual expected o
  else return params.powLimit.toNat

def limited (powLimit target efficiency : Nat) : Result Nat :=
  if target < powLimit / efficiency then fit width (target * efficiency) else return powLimit

def applyHandbrake (target force powLimit : Nat) : Result Nat := do
  let most ← fit width (powLimit * force)
  return if most < target ∨ force = 0 then powLimit else target / force

def targetOf (params : ChainParams) (network : NetworkParameters) (tip : Block)
    (candidate : Candidate) (s : Survey) (o : Overflow) : Result Nat := do
  let factor := interleave (fixActive tip.height params network)
  let own ← ownTarget width params factor tip s o
  let expected ← ofWork (o.signed (s.chain.count * params.spacing))
  let actual ← ofWork (o.signed (tip.time - s.cursor.time))
  let scaled ← scaleByTime width own actual expected o
  let next := tip.height + 1
  let target ← limited width params.powLimit.toNat scaled (efficiencyOf candidate.version next)
  applyHandbrake width target (handbrakeForce candidate.version next params network).toNat
    params.powLimit.toNat

/-- What is written is within the limit, so none of it is cut. -/
def nextTarget (params : ChainParams) (network : NetworkParameters) (tip : Block)
    (history : List Block) (candidate : Candidate) (o : Overflow) : Result CompactTarget :=
  match Wave.plan params network tip with
  | .keep => return tip.bits
  | .bootstrap => return params.limitBits
  | .average w => do
    let s ← survey width params w tip history candidate o
    return .ofTarget (.ofNat (← targetOf width params network tip candidate s o))

end

variable {width : Option Nat}

/-! ## What is written -/

theorem eq_of_fit {n m : Nat} (h : fit width n = .ok m) : n = m := by
  unfold fit at h
  split at h
  · cases h
    rfl
  · cases h

theorem limited_le {powLimit target efficiency t : Nat}
    (h : limited width powLimit target efficiency = .ok t) : t ≤ powLimit := by
  unfold limited at h
  split at h
  · rename_i hlt
    rw [← eq_of_fit h]
    calc
      target * efficiency ≤ powLimit / efficiency * efficiency :=
        Nat.mul_le_mul_right _ (Nat.le_of_lt hlt)
      _ ≤ powLimit := Nat.div_mul_le_self _ _
  · cases h
    exact Nat.le_refl _

theorem applyHandbrake_le {target force powLimit t : Nat} (hle : target ≤ powLimit)
    (h : applyHandbrake width target force powLimit = .ok t) : t ≤ powLimit := by
  obtain ⟨most, -, h⟩ := bind_eq_ok.1 h
  cases h
  split
  · exact Nat.le_refl _
  · exact Nat.le_trans (Nat.div_le_self _ _) hle

/-- Of a target, unbounded or not, nothing is cut when it is written. -/
theorem targetOf_le {params : ChainParams} {network : NetworkParameters} {tip : Block}
    {candidate : Candidate} {s : Survey} {o : Overflow} {t : Nat}
    (h : targetOf width params network tip candidate s o = .ok t) : t ≤ params.powLimit.toNat := by
  obtain ⟨own, -, h⟩ := bind_eq_ok.1 h
  obtain ⟨expected, -, h⟩ := bind_eq_ok.1 h
  obtain ⟨actual, -, h⟩ := bind_eq_ok.1 h
  obtain ⟨scaled, -, h⟩ := bind_eq_ok.1 h
  obtain ⟨target, htarget, h⟩ := bind_eq_ok.1 h
  exact applyHandbrake_le (limited_le htarget) h

/-! ## Step by step -/

/-- Numbers of 256 bits are not refused. -/
def Wide (width : Option Nat) : Prop := ∀ bits ∈ width, 256 ≤ bits

theorem wide_none : Wide none := fun _ h => absurd h (Option.not_mem_none _)

theorem wide_word : Wide (some 256) := fun _ h => Nat.le_of_eq (Option.mem_some.1 h)

theorem fit_eq (hwide : Wide width) {n : Nat} (hn : n < 2 ^ 256) : fit width n = .ok n := by
  unfold fit
  cases width with
  | none => rfl
  | some bits =>
    have hpow : 2 ^ 256 ≤ 2 ^ bits := Nat.pow_le_pow_right (by decide) (hwide bits rfl)
    exact if_pos (decide_eq_true (Nat.lt_of_lt_of_le hn hpow))

section

variable {α β : Type}

@[simp] theorem ofWork_ok (a : α) : ofWork (.ok a) = .ok a := rfl

theorem ofWork_bind (x : Except WorkError α) (f : α → Except WorkError β) :
    ofWork (x >>= f) = ofWork x >>= fun a => ofWork (f a) := by
  cases x <;> rfl

theorem ofWork_map_bind (x : Except WorkError α) (f : α → β) {γ : Type} (g : β → Result γ) :
    ofWork (f <$> x) >>= g = ofWork x >>= fun a => g (f a) := by
  cases x <;> rfl

theorem ofWork_bind_congr {x : Except WorkError α} {f g : α → Result β}
    (h : ∀ a, x = .ok a → f a = g a) : ofWork x >>= f = ofWork x >>= g := by
  cases x with
  | error e => rfl
  | ok a => exact h a rfl

end

/-- A series of the wave, its average as a number. -/
def Series.of (s : Work.Series) : Series := ⟨s.count, s.average.toNat, s.earliest⟩

def Survey.of (s : Work.Survey) : Survey :=
  ⟨s.cursor, .of s.chain, .of s.chainFast, .of s.own, .of s.ownFast⟩

@[simp] theorem Survey.of_goesOn (s : Work.Survey) (w : Window) :
    (of s).goesOn w = s.goesOn w := rfl

section

variable {high n : Nat} {s : Work.Series} {t : Target}

theorem runningAverage_eq (hwide : Wide width) {average next : Target} (hn : n < 2 ^ 256)
    (hsum : average.toNat * (n - 1) + next.toNat < 2 ^ 256) :
    runningAverage width average.toNat n next.toNat =
      .ok (Work.runningAverage average n next).toNat := by
  have hproduct : average.toNat * (n - 1) < 2 ^ 256 := by omega
  unfold runningAverage
  rw [fit_eq hwide hproduct, ok_bind, fit_eq hwide hsum, ok_bind, toNat_runningAverage hn hsum]
  rfl

theorem Series.push_eq (hwide : Wide width) (hs : s.Within 0 high) (b : Block)
    (ht : t.toNat ≤ high) (hcount : s.count < n) (hsize : n < 2 ^ 256)
    (hroom : high * n < 2 ^ 256) :
    (of s).push width b t.toNat = .ok (of (s.push b t)) := by
  have hsum : s.average.toNat * s.count + t.toNat < 2 ^ 256 :=
    calc
      s.average.toNat * s.count + t.toNat ≤ high * (s.count + 1) :=
        (hs.sum_bounds ⟨Nat.zero_le _, ht⟩).2
      _ ≤ high * n := Nat.mul_le_mul_left _ hcount
      _ < 2 ^ 256 := hroom
  have haverage : runningAverage width (of s).average ((of s).count + 1) t.toNat =
      .ok (s.push b t).average.toNat :=
    runningAverage_eq hwide (Nat.lt_of_le_of_lt hcount hsize) hsum
  unfold push
  rw [haverage]
  rfl

end

/-! ### The walk -/

theorem Survey.visit_eq (hwide : Wide width) {high n : Nat} {s : Work.Survey}
    (hchain : s.chain.Within 0 high) (hown : s.own.Within 0 high)
    (hcursor : s.cursor.bits.toTarget.toNat ≤ high) (hcount : s.chain.count < n)
    (hshare : s.own.count ≤ s.chain.count) (hsize : n < 2 ^ 256) (hroom : high * n < 2 ^ 256)
    (tag : Int32) : (of s).visit width tag = .ok (of (s.visit tag)) := by
  have hpushChain := Series.push_eq hwide hchain s.cursor hcursor hcount hsize hroom
  have hpushOwn := Series.push_eq hwide hown s.cursor hcursor (Nat.lt_of_le_of_lt hshare hcount)
    hsize hroom
  unfold visit Work.Survey.visit
  dsimp only [of]
  rw [efficiencyOf_eq, Nat.div_one, Target.divide_one]
  by_cases hm : algorithmTag s.cursor.version = tag
  · rw [if_pos hm, hpushOwn, ok_bind, hpushChain, ok_bind]
    simp only [hm, if_true, true_and, apply_ite Series.of]
    rfl
  · rw [if_neg hm]
    show Series.push width _ _ _ >>= _ = _
    rw [hpushChain, ok_bind]
    simp only [hm, if_false, false_and, apply_ite Series.of]
    rfl

section

variable {high n : Nat} {w : Window} {tag : Int32} {tip c : Block} {blocks rest : List Block}

/-- A block for which the window has room is one of those that the walk counts. -/
theorem Survey.visit_ofBlocks_eq (hwide : Wide width) (hfits : w.Fits high tag blocks)
    (h : blocks.drop n = c :: rest) (hbefore : ∀ m < n, w.Open tag blocks m)
    (hopen : w.Open tag blocks n) :
    (of (.ofBlocks tag tip (blocks.take n) c)).visit width tag =
      .ok (of (.ofBlocks tag tip (blocks.take (n + 1)) c)) := by
  have hreached : n < reach w tag blocks :=
    (closedBy_reach hfits.own tag blocks).lt_of_open hbefore hopen
  have hseen : (blocks.take n ++ [c]).Sublist (blocks.take (reach w tag blocks)) := by
    rw [← Work.Survey.take_succ_of_drop h]
    exact List.take_sublist_take_left hreached
  have hchain := (List.sublist_append_left _ _).trans hseen
  have hcursor := hfits.bits c (hseen.subset (List.mem_append_right _ List.mem_cons_self))
  have hcount : (blocks.take n).length < w.blocks := by
    rw [Work.Survey.length_take_of_drop h]
    exact hopen.1
  rw [← Work.Survey.visit_ofBlocks_take h]
  exact visit_eq hwide (hfits.within hchain tip)
    (hfits.within (List.filter_sublist.trans hchain) tip) hcursor hcount
    (ofAlgorithm_length_le tag _) hfits.size hfits.room tag

/-- By induction on what lies ahead, like the walk itself: every block counted so far found the
window open. -/
theorem Survey.walk_eq {s : Work.Survey} (hwide : Wide width) (hfits : w.Fits high tag blocks)
    (h : blocks.drop n = c :: rest) (hbefore : ∀ m < n, w.Open tag blocks m)
    (hwalk : Work.Survey.walk w tag rest (.ofBlocks tag tip (blocks.take n) c) = .ok s) :
    walk width w tag rest (of (.ofBlocks tag tip (blocks.take n) c)) = .ok (of s) := by
  induction rest generalizing n c with
  | nil =>
    unfold Work.Survey.walk at hwalk
    rw [walk, of_goesOn]
    split at hwalk
    · rename_i hgo
      have hopen := (Work.Survey.goesOn_ofBlocks_iff h).1 hgo
      rw [Work.Survey.visit_ofBlocks_take h] at hwalk
      rw [if_pos hgo, visit_ofBlocks_eq hwide hfits h hbefore hopen, ok_bind]
      dsimp only at hwalk
      split at hwalk
      · cases hwalk
        exact if_pos ‹_›
      · cases hwalk
    · cases hwalk
      exact if_neg ‹_›
  | cons older rest ih =>
    unfold Work.Survey.walk at hwalk
    rw [walk, of_goesOn]
    split at hwalk
    · rename_i hgo
      have hopen := (Work.Survey.goesOn_ofBlocks_iff h).1 hgo
      rw [Work.Survey.visit_ofBlocks_take h] at hwalk
      rw [if_pos hgo, visit_ofBlocks_eq hwide hfits h hbefore hopen, ok_bind]
      dsimp only at hwalk
      split at hwalk
      · cases hwalk
        exact if_pos ‹_›
      · exact (if_neg ‹_›).trans (ih (Work.Survey.drop_succ_of_drop h)
          (Nat.forall_lt_succ_right.2 ⟨hbefore, hopen⟩) hwalk)
    · cases hwalk
      exact if_neg ‹_›

end

/-! ### The target -/

theorem scaleByTime_eq (hwide : Wide width) {t : Target} {actual expected : Int}
    (hpos : 0 < expected) (hfits : 2 * expected < signedSize)
    (hproduct : timeProduct t actual expected < 2 ^ 256) (o : Overflow) :
    scaleByTime width t.toNat actual expected o = .ok (timeScaled t actual expected).toNat := by
  have hmost := Overflow.signed_of_fits (fitsSigned_of_pos (by omega) hfits) o
  have hclamp : clamp actual 1 (2 * expected) = .ok (clampedTime actual expected) :=
    if_neg (by omega)
  unfold scaleByTime
  rw [hmost, toNat_timeScaled hpos hfits hproduct]
  show ofWork (clamp actual 1 (2 * expected)) >>= _ = _
  rw [hclamp]
  exact bind_eq_ok.2 ⟨_, rfl, bind_eq_ok.2 ⟨_, fit_eq hwide hproduct, rfl⟩⟩

theorem Survey.of_defended (s : Work.Survey) (gap spacing : Int) :
    (of s).defended gap spacing = of (s.defended gap spacing) := by
  unfold defended Work.Survey.defended
  rw [apply_ite of]
  rfl

theorem Survey.of_ownDefended (s : Work.Survey) (gap round : Int) :
    (of s).ownDefended gap round = .of (s.ownDefended gap round) := by
  unfold ownDefended Work.Survey.ownDefended
  rw [apply_ite Series.of]
  rfl

section

variable {params : ChainParams} {network : NetworkParameters} {tip : Block}
  {history : List Block} {candidate : Candidate} {w : Window} {s : Work.Survey} {factor : Int}
  {o : Overflow}

theorem ownTarget_eq (hwide : Wide width) (hs : Wave.Surveyed w s) (hspacing : 0 < params.spacing)
    (hfactor : 0 < factor) (htimes : w.TimesFit params factor)
    (hunwrapped : Wave.Unwrapped params factor tip s o) :
    ownTarget width params factor tip (.of s) o =
      ofWork (BitVec.toNat <$> Wave.ownTarget params factor tip s o) := by
  by_cases hown : 1 < s.own.count
  · unfold ownTarget Wave.ownTarget
    rw [if_pos hown]
    refine (if_pos hown).trans ?_
    rw [map_bind, ofWork_bind]
    apply ofWork_bind_congr
    intro gap hgap
    rw [map_bind, ofWork_bind]
    apply ofWork_bind_congr
    intro round hround
    obtain ⟨hshare, hexpected⟩ :=
      Wave.signed_ownExpected hs hown hspacing hfactor htimes gap round o
    obtain ⟨hpos, hle⟩ := Wave.ownExpected_bounds hs hown hspacing hfactor gap round
    have htime := htimes.own
    dsimp only
    rw [Survey.of_ownDefended, Series.of, hshare, ofWork_ok, ok_bind, ok_bind, hexpected, ofWork_ok,
      ok_bind, ok_bind, map_bind, ofWork_bind]
    apply ofWork_bind_congr
    intro actual hactual
    have hproduct := hunwrapped.own hown gap round actual hgap hround hactual
    rw [scaleByTime_eq hwide hpos (by omega) hproduct,
      Wave.scaleByTime_own hs hown hspacing hfactor htimes gap round actual o]
    rfl
  · rw [Wave.ownTarget_few _ _ _ _ hown]
    exact if_neg hown

theorem limited_eq (hwide : Wide width) (powLimit target : Target) (version : Int32)
    (height : Nat) :
    limited width powLimit.toNat target.toNat (efficiencyOf version height) =
      .ok (Wave.limited powLimit target (efficiencyOf version height)).toNat := by
  rw [Wave.limited_eq, efficiencyOf_eq]
  unfold limited
  rw [Nat.div_one, Nat.mul_one, fit_eq hwide (Target.toNat_lt target)]
  simp only [← BitVec.lt_def]
  split <;> rfl

theorem applyHandbrake_eq (hwide : Wide width) (target : Target) {force : UInt32}
    {powLimit : Target} (hroom : powLimit.toNat * force.toNat < 2 ^ 256) :
    applyHandbrake width target.toNat force.toNat powLimit.toNat =
      .ok (Work.applyHandbrake target force powLimit).toNat := by
  have hbrake : powLimit.toNat * force.toNat < target.toNat ∨ force.toNat = 0 ↔
      powLimit.scale force.toNat < target ∨ force = 0 := by
    rw [BitVec.lt_def, Target.toNat_scale, Nat.mod_eq_of_lt hroom, ← UInt32.toNat_inj]
    rfl
  have hquotient : target.toNat / force.toNat = (target.divide force.toNat).toNat := by
    have hsmall := force.toNat_lt
    rw [Target.toNat_divide, Nat.mod_eq_of_lt (by omega)]
  unfold applyHandbrake Work.applyHandbrake
  rw [fit_eq hwide hroom, ok_bind, hquotient]
  simp only [hbrake]
  split <;> rfl

/-- A limit with room for whatever a window makes of targets within it. -/
structure Ample (params : ChainParams) (factor : Int) (w : Window) : Prop where
  blocks : w.blocks < 2 ^ 256
  times : w.TimesFit params factor
  averages : params.powLimit.toNat * w.blocks < 2 ^ 256
  own : params.powLimit.toNat * (2 * (w.ownTime params factor).toNat) < 2 ^ 256
  chain : params.powLimit.toNat * (4 * (w.time params).toNat) < 2 ^ 256

theorem Ample.fits (hample : Ample params factor w)
    (hp : Wave.plan params network tip = .average w)
    (hbits : ∀ b ∈ Wave.walked params network tip history candidate,
      b.bits.toTarget ≤ params.powLimit) :
    w.Fits params.powLimit.toNat (algorithmTag candidate.version) (tip :: history) := by
  unfold Wave.walked at hbits
  rw [hp] at hbits
  exact ⟨(Wave.own_bounds_of_plan hp).1, hample.blocks, hample.averages, hbits⟩

theorem targetOf_eq (hwide : Wide width) (hs : Wave.Surveyed w s)
    (hwithin : s.own.Within 0 params.powLimit.toNat ∧ s.ownFast.Within 0 params.powLimit.toNat)
    (hspacing : 0 < params.spacing)
    (hample : Ample params (interleave (fixActive tip.height params network)) w)
    (hforce : params.powLimit.toNat *
      (handbrakeForce candidate.version (tip.height + 1) params network).toNat < 2 ^ 256) :
    targetOf width params network tip candidate (.of s) o =
      ofWork (BitVec.toNat <$> Wave.targetOf params network tip candidate s o) := by
  have hfactor := Int.natCast_pos.2 (Wave.interleave_pos (fixActive tip.height params network))
  have hunwrapped :
      Wave.Unwrapped params (interleave (fixActive tip.height params network)) tip s o :=
    .of_limit hs hwithin hspacing hfactor hample.own hample.chain
  obtain ⟨hpos, hle⟩ := Wave.expected_bounds hs hspacing
  have htime := hample.times.chain
  unfold targetOf Wave.targetOf
  dsimp only
  rw [ownTarget_eq hwide hs hspacing hfactor hample.times hunwrapped, map_bind, ofWork_bind,
    ofWork_map_bind]
  apply ofWork_bind_congr
  intro own hown
  dsimp only [Survey.of, Series.of]
  rw [Wave.signed_expected hs hspacing hample.times, ofWork_ok, ok_bind, ok_bind, map_bind,
    ofWork_bind]
  apply ofWork_bind_congr
  intro actual hactual
  have hproduct := hunwrapped.chain own actual hown hactual
  rw [scaleByTime_eq hwide hpos (by omega) hproduct,
    Wave.scaleByTime_chain hs hspacing hample.times own actual o, ok_bind, ok_bind,
    limited_eq hwide, ok_bind]
  exact applyHandbrake_eq hwide _ hforce

/-- What is left to do after the walk. -/
theorem nextTarget_of_walk (hwide : Wide width) (hp : Wave.plan params network tip = .average w)
    (hfits : w.Fits params.powLimit.toNat (algorithmTag candidate.version) (tip :: history))
    (hwalk : Work.Survey.walk w (algorithmTag candidate.version) history (.start tip) = .ok s)
    (o : Overflow) :
    nextTarget width params network tip history candidate o =
      (ofWork (o.signed (tip.time - s.chainFast.earliest.time)) >>= fun gap =>
        (fun t => .ofTarget (.ofNat t)) <$>
          targetOf width params network tip candidate (.of (s.defended gap params.spacing)) o) := by
  have hwalked : Survey.walk width w (algorithmTag candidate.version) history (.start tip) =
      .ok (.of s) :=
    Survey.walk_eq (n := 0) hwide hfits rfl (fun m hm => absurd hm (Nat.not_lt_zero m)) hwalk
  unfold nextTarget survey
  rw [hp]
  dsimp only
  rw [hwalked, ok_bind, bind_assoc]
  apply bind_congr
  intro gap
  rw [pure_bind, bind_pure_comp, Survey.of_defended]

theorem nextTarget_eq (hwide : Wide width) (hspacing : 0 < params.spacing)
    (hc : Complete tip history)
    (hample : ∀ w, Wave.plan params network tip = .average w →
      Ample params (interleave (fixActive tip.height params network)) w)
    (hbits : ∀ b ∈ Wave.walked params network tip history candidate,
      b.bits.toTarget ≤ params.powLimit)
    (hforce : params.powLimit.toNat *
      (handbrakeForce candidate.version (tip.height + 1) params network).toNat < 2 ^ 256)
    (o : Overflow) :
    nextTarget width params network tip history candidate o =
      ofWork (Wave.nextTarget params network tip history candidate o) := by
  cases hp : Wave.plan params network tip with
  | keep =>
    unfold nextTarget Wave.nextTarget
    rw [hp]
    rfl
  | bootstrap =>
    unfold nextTarget Wave.nextTarget
    rw [hp]
    rfl
  | average w =>
    have hfits := (hample w hp).fits hp hbits
    obtain ⟨s, hwalk⟩ := Wave.walk_ok candidate hp hc
    rw [nextTarget_of_walk hwide hp hfits hwalk, Wave.nextTarget_of_walk hp hwalk, ofWork_bind]
    apply ofWork_bind_congr
    intro gap hgap
    have hwithin : (s.defended gap params.spacing).own.Within 0 params.powLimit.toNat ∧
        (s.defended gap params.spacing).ownFast.Within 0 params.powLimit.toNat := by
      apply Wave.survey_within hp (Wave.survey_of_walk hwalk hgap)
      · intro b hb
        exact ⟨Nat.zero_le _, BitVec.le_def.1 (hbits b (List.mem_of_mem_filter hb))⟩
      · exact Nat.lt_of_le_of_lt
          (Nat.mul_le_mul_left _ (Wave.met_length_le history candidate hp)) (hample w hp).averages
    rw [targetOf_eq hwide (Wave.surveyed_of_walk hp hwalk gap _) hwithin hspacing (hample w hp)
      hforce]
    cases Wave.targetOf params network tip candidate (s.defended gap params.spacing) o with
    | error e => rfl
    | ok t =>
      have hwritten : Target.ofNat t.toNat = t := by
        apply BitVec.eq_of_toNat_eq
        rw [Target.toNat_ofNat, Nat.mod_eq_of_lt (Target.toNat_lt t)]
      show Except.ok (CompactTarget.ofTarget (.ofNat t.toNat)) = .ok (.ofTarget t)
      rw [hwritten]

/-- A day of blocks of two minutes leaves room under a limit of 236 bits. -/
theorem ample_of_fix (hpreset : params = .main ∨ params = .test)
    (hfix : fixActive tip.height params network = true)
    (hp : Wave.plan params network tip = .average w) :
    Ample params (interleave (fixActive tip.height params network)) w := by
  obtain ⟨hblocks, hown, -⟩ := Wave.blocks_of_plan hp
  rw [hfix] at hblocks hown ⊢
  have hday : w.blocks ≤ 576 := hblocks ▸ Nat.min_le_right _ _
  have hshare : w.own = 10 := hown
  have hspacing : params.spacing = 120 := by
    rcases hpreset with rfl | rfl <;> rfl
  have hlimit : params.powLimit.toNat = 2 ^ 236 - 1 := by
    rcases hpreset with rfl | rfl <;> decide
  have hownTime : w.ownTime params (interleave true) = 2400 := by
    rw [Window.ownTime, hshare, hspacing]
    rfl
  have htime : 0 ≤ w.time params ∧ w.time params ≤ 69120 := by
    rw [Window.time, hspacing]
    omega
  have hsigned : signedSize = 2 ^ 63 := rfl
  constructor
  · omega
  · constructor
    · omega
    · omega
  · rw [hlimit]
    omega
  · rw [hlimit, hownTime]
    decide
  · rw [hlimit]
    omega

/-- By the rules of the main or the test network nothing wraps once the spacing fix is in force, as
long as the targets averaged are within the limit and the force is at most 2^20: the wave answers,
unless a time overflows, and whatever becomes of that it is the same on unbounded numbers and where
products and sums of more than 256 bits are refused. -/
theorem nextTarget_unwrapped (hpreset : params = .main ∨ params = .test)
    (hfix : fixActive tip.height params network = true) (hc : Complete tip history)
    (hbits : ∀ b ∈ Wave.walked params network tip history candidate,
      b.bits.toTarget ≤ params.powLimit)
    (hforce :
      (handbrakeForce candidate.version (tip.height + 1) params network).toNat ≤ 2 ^ 20) :
    Answers (Wave.nextTarget params network tip history candidate ·) (fun _ => True) ∧
    ∀ o, nextTarget none params network tip history candidate o =
        ofWork (Wave.nextTarget params network tip history candidate o) ∧
      nextTarget (some 256) params network tip history candidate o =
        ofWork (Wave.nextTarget params network tip history candidate o) := by
  have hspacing : 0 < params.spacing := by
    rcases hpreset with rfl | rfl <;> decide
  have hroom : params.powLimit.toNat *
      (handbrakeForce candidate.version (tip.height + 1) params network).toNat < 2 ^ 256 := by
    have hlimit : params.powLimit.toNat * 2 ^ 20 < 2 ^ 256 := by
      rcases hpreset with rfl | rfl <;> decide
    exact Nat.lt_of_le_of_lt (Nat.mul_le_mul_left _ hforce) hlimit
  have hample := fun w => ample_of_fix (w := w) hpreset hfix
  obtain ⟨bits, hanswer⟩ := Wave.nextTarget_wraps network candidate hspacing hc
    fun w hp => (hample w hp).times
  have hsettles := Wave.nextTarget_settles network candidate hspacing hc
  refine ⟨hsettles.answers hanswer trivial, fun o => ⟨?_, ?_⟩⟩
  · exact nextTarget_eq wide_none hspacing hc hample hbits hroom o
  · exact nextTarget_eq wide_word hspacing hc hample hbits hroom o

/-- The spacing fix is in force and every algorithm braked as hard as there is room for. -/
def brakedNetwork : NetworkParameters := ⟨0, fun _ => 0x100000, some 0⟩

theorem nextTarget_unwrapped_turns :
    fixActive (turnBlock 30).height .main brakedNetwork = true ∧
    Complete (turnBlock 30) (below turnBlock 30) ∧
    (Wave.walked .main brakedNetwork (turnBlock 30) (below turnBlock 30) ⟨0x100, 3720⟩).length =
      19 ∧
    (∀ b ∈ Wave.walked .main brakedNetwork (turnBlock 30) (below turnBlock 30) ⟨0x100, 3720⟩,
      b.bits.toTarget ≤ ChainParams.main.powLimit) ∧
    handbrakeForce 0x100 31 .main brakedNetwork = 0x100000 ∧
    Wave.nextTarget .main brakedNetwork (turnBlock 30) (below turnBlock 30) ⟨0x100, 3720⟩ .faults =
      .ok ⟨0x1c00e666⟩ ∧
    nextTarget none .main brakedNetwork (turnBlock 30) (below turnBlock 30) ⟨0x100, 3720⟩ .faults =
      .ok ⟨0x1c00e666⟩ ∧
    nextTarget (some 256) .main brakedNetwork (turnBlock 30) (below turnBlock 30) ⟨0x100, 3720⟩
      .faults = .ok ⟨0x1c00e666⟩ := by
  have hfix : fixActive (turnBlock 30).height .main brakedNetwork = true := by decide
  have hc : Complete (turnBlock 30) (below turnBlock 30) := complete_below (fun _ => rfl) 30
  have hbits : ∀ b ∈ Wave.walked .main brakedNetwork (turnBlock 30) (below turnBlock 30)
      ⟨0x100, 3720⟩, b.bits.toTarget ≤ ChainParams.main.powLimit := by decide +kernel
  have hforce : handbrakeForce 0x100 31 .main brakedNetwork = 0x100000 := by decide
  have hanswer : Wave.nextTarget .main brakedNetwork (turnBlock 30) (below turnBlock 30)
      ⟨0x100, 3720⟩ .faults = .ok ⟨0x1c00e666⟩ := by decide +kernel
  obtain ⟨hexact, hword⟩ := (nextTarget_unwrapped (.inl rfl) hfix hc hbits (by decide)).2 .faults
  rw [hanswer] at hexact hword
  exact ⟨hfix, hc, by decide +kernel, hbits, hforce, hanswer, hexact, hword⟩

/-- Under a limit of half the range of targets a scaling wraps. -/
example : nextTarget (some 256) wideParams (fixSet true) (wideBlock ⟨0x21004000⟩ 11)
    (below (wideBlock ⟨0x21004000⟩) 11) ⟨0x100, 1320⟩ .faults = .error .wraps := by
  decide +kernel

end

end Exact

end SporkNode.Work
