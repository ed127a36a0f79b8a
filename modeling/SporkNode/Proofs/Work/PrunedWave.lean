import SporkNode.Proofs.Chain.Trail
import SporkNode.Proofs.Work.Totality

/-!
The wave on a chain of which the older blocks are gone. A walk asks for one parent after the other
and makes the same of what it gets wherever that comes from. Where a parent is missing it does not
make do with less: it stops and names the block, which is one that the walk over the whole chain
counts as well.
-/

namespace SporkNode.Work

namespace Window

variable {w : Window} {tag : Int32} {blocks : List Block} {n : Nat}

theorem Open.append (h : w.Open tag blocks n) (hn : n ≤ blocks.length) (deeper : List Block) :
    w.Open tag (blocks ++ deeper) n := by
  rw [Open, List.take_append_of_le_length hn]
  exact h

/-- A window that is open at every block of a list has not been closed by any of them. -/
theorem length_le_reach (hown : 0 < w.own) (hopen : ∀ n < blocks.length, w.Open tag blocks n)
    (deeper : List Block) : blocks.length ≤ reach w tag (blocks ++ deeper) := by
  by_contra hless
  rw [Nat.not_le] at hless
  apply (closedBy_reach hown tag (blocks ++ deeper)).closed
  exact (hopen _ hless).append (Nat.le_of_lt hless) deeper

end Window

namespace Survey

variable {w : Window} {tag : Int32} {tip c : Block} {blocks rest history : List Block} {n : Nat}
  {e : WorkError}

/-- A walk that is left without a block has found the window open at all before, has room for
more, and names the last. -/
structure RunsOut (w : Window) (tag : Int32) (tip : Block) (history : List Block)
    (e : WorkError) : Prop where
  before : ∀ n < (tip :: history).length, w.Open tag (tip :: history) n
  room : history.length + 1 < w.blocks
  error : e = .ancestorMissing (history.getLastD tip).height

theorem getLastD_of_drop (h : (tip :: history).drop n = c :: rest) :
    history.getLastD tip = rest.getLastD c := by
  have hlast := List.getLast?_drop (l := tip :: history) (i := n)
  have hn : n < (tip :: history).length := by
    rw [← List.drop_eq_nil_iff.not.trans Nat.not_le, h]
    exact List.cons_ne_nil _ _
  rw [h, if_neg (Nat.not_le.2 hn), List.getLast?_cons, List.getLast?_cons,
    Option.some.injEq] at hlast
  rw [List.getLastD_eq_getLast?, List.getLastD_eq_getLast?, hlast]

/-- By induction on what lies ahead, as for a walk that ends. -/
theorem walk_ofBlocks_error (h : (tip :: history).drop n = c :: rest)
    (hbefore : ∀ m < n, w.Open tag (tip :: history) m)
    (hwalk : walk w tag rest (ofBlocks tag tip ((tip :: history).take n) c) = .error e) :
    RunsOut w tag tip history e := by
  induction rest generalizing n c with
  | nil =>
    rw [walk_nil] at hwalk
    split at hwalk
    · rename_i hasks
      obtain ⟨hopen, hmore⟩ := (asks_ofBlocks_iff h).1 hasks
      have hlast : history.length = n := by
        have hlength := congrArg List.length h
        rw [List.length_drop, List.length_cons, List.length_singleton] at hlength
        omega
      have hroom := hopen.1
      rw [← hlast] at hbefore hopen
      cases hwalk
      refine ⟨Nat.forall_lt_succ_right.2 ⟨hbefore, hopen⟩, by omega, ?_⟩
      rw [getLastD_of_drop h]
      rfl
    · cases hwalk
  | cons older rest ih =>
    rw [walk_cons] at hwalk
    split at hwalk
    · rename_i hasks
      obtain ⟨hopen, -⟩ := (asks_ofBlocks_iff h).1 hasks
      rw [next_ofBlocks_take h] at hwalk
      exact ih (drop_succ_of_drop h) (Nat.forall_lt_succ_right.2 ⟨hbefore, hopen⟩) hwalk
    · cases hwalk

theorem walk_error (h : walk w tag history (start tip) = .error e) :
    RunsOut w tag tip history e :=
  walk_ofBlocks_error (n := 0) rfl (fun m hm => absurd hm (Nat.not_lt_zero m)) h

/-- The walk over fewer blocks goes as the walk over all of them, or runs out. -/
theorem walk_append_or (w : Window) (tag : Int32) (tip : Block) (history deeper : List Block) :
    walk w tag (history ++ deeper) (start tip) = walk w tag history (start tip) ∨
      ∃ e, walk w tag history (start tip) = .error e ∧ RunsOut w tag tip history e := by
  cases hwalk : walk w tag history (start tip) with
  | ok s => exact .inl (walk_append hwalk deeper)
  | error e => exact .inr ⟨e, rfl, walk_error hwalk⟩

end Survey

namespace Wave

open Chain

variable {params : ChainParams} {network : NetworkParameters} {tip : Block}
  {history : List Block} {candidate : Candidate}

/-- The wave stops for want of the block before the last. -/
structure Misses (params : ChainParams) (network : NetworkParameters) (tip : Block)
    (history deeper : List Block) (candidate : Candidate) : Prop where
  room : history.length + 1 < tip.height
  walked : history.getLastD tip ∈ walked params network tip (history ++ deeper) candidate
  error : ∀ o, nextTarget params network tip history candidate o =
    .error (.ancestorMissing (history.getLastD tip).height)

theorem nextTarget_append_or (params : ChainParams) (network : NetworkParameters) (tip : Block)
    (history deeper : List Block) (candidate : Candidate) :
    (∀ o, nextTarget params network tip history candidate o =
      nextTarget params network tip (history ++ deeper) candidate o) ∨
      Misses params network tip history deeper candidate := by
  cases hp : plan params network tip with
  | keep =>
    unfold nextTarget
    rw [hp]
    exact .inl fun _ => rfl
  | bootstrap =>
    unfold nextTarget
    rw [hp]
    exact .inl fun _ => rfl
  | average w =>
    rcases Survey.walk_append_or w (algorithmTag candidate.version) tip history deeper with
      hsame | ⟨e, herror, hout⟩
    · left
      intro o
      unfold nextTarget survey
      simp only [hp, hsame]
    · right
      obtain rfl := hout.error
      obtain ⟨-, hheight, -⟩ := window_of_plan hp
      have hroom := hout.room
      refine ⟨by omega, ?_, fun o => ?_⟩
      · have hreach := Window.length_le_reach (own_bounds_of_plan hp).1 hout.before deeper
        unfold walked
        rw [hp]
        dsimp only
        rw [← List.cons_append, List.take_append, List.take_of_length_le hreach]
        exact List.mem_append_left _ List.getLastD_mem_cons
      · unfold nextTarget survey
        rw [hp]
        dsimp only
        rw [herror]
        rfl

/-- A tip's height is as far as parents are ever asked for. -/
theorem nextTarget_trail (parent? : Block → Option Block) {n : Nat} (hn : tip.height ≤ n)
    (o : Overflow) :
    nextTarget params network tip (trail parent? n tip) candidate o =
      nextTarget params network tip (trail parent? tip.height tip) candidate o := by
  obtain ⟨deeper, hdeeper⟩ := trail_prefix (Poorer.refl parent?) hn tip
  rcases nextTarget_append_or params network tip (trail parent? tip.height tip) deeper candidate
    with hsame | hmisses
  · rw [← hdeeper, hsame]
  · have hroom := hmisses.room
    obtain ⟨-, hends⟩ := trail_of_length_lt (Nat.lt_of_succ_lt hroom)
    rw [hends n hn]

theorem nextTarget_trail_or (params : ChainParams) (network : NetworkParameters)
    (candidate : Candidate) {poorer full : Block → Option Block} (h : Poorer poorer full)
    {m n : Nat} (hm : tip.height ≤ m) (hn : tip.height ≤ n) :
    (∀ o, nextTarget params network tip (trail poorer m tip) candidate o =
      nextTarget params network tip (trail full n tip) candidate o) ∨
      ∃ b ∈ walked params network tip (trail full n tip) candidate, poorer b = none ∧
        ∀ o, nextTarget params network tip (trail poorer m tip) candidate o =
          .error (.ancestorMissing b.height) := by
  simp only [nextTarget_trail poorer hm]
  obtain ⟨deeper, hdeeper⟩ := trail_prefix h hn tip
  rw [← hdeeper]
  refine (nextTarget_append_or params network tip _ deeper candidate).imp_right fun hmisses => ?_
  obtain ⟨hnone, -⟩ := trail_of_length_lt (Nat.lt_of_succ_lt hmisses.room)
  exact ⟨_, hmisses.walked, hnone, hmisses.error⟩

/-- For every way to look up parents and every poorer one, any parameters, tip and candidate, and
whatever becomes of overflows: the wave ends on the poorer one as on the other, or it wants the
parent of a block that is walked on the other and has no parent on the poorer one, and reports the
height of that block. So where it has an answer on the poorer one it has the same on the other. The
newest blocks of an index are such a poorer look-up. -/
theorem nextTarget_poorer (params : ChainParams) (network : NetworkParameters)
    (candidate : Candidate) {poorer full : Block → Option Block} (h : Poorer poorer full)
    {m n : Nat} (hm : tip.height ≤ m) (hn : tip.height ≤ n) :
    ((∀ o, nextTarget params network tip (trail poorer m tip) candidate o =
        nextTarget params network tip (trail full n tip) candidate o) ∨
      ∃ b ∈ walked params network tip (trail full n tip) candidate, poorer b = none ∧
        ∀ o, nextTarget params network tip (trail poorer m tip) candidate o =
          .error (.ancestorMissing b.height)) ∧
    (∀ o bits, nextTarget params network tip (trail poorer m tip) candidate o = .ok bits →
      nextTarget params network tip (trail full n tip) candidate o = .ok bits) ∧
    ∀ blocks k, Poorer ((BlockIndex.ofBlocks blocks).top k).previous?
      (BlockIndex.ofBlocks blocks).previous? := by
  have hor := nextTarget_trail_or params network candidate h hm hn
  refine ⟨hor, fun o bits => ?_, fun blocks k =>
    (BlockIndex.wellKeyed_ofBlocks blocks).top_poorer k⟩
  exact eq_ok_of_eq_or_error (hor.imp (fun hsame => hsame o)
    fun ⟨_, _, _, herror⟩ => ⟨_, herror o⟩)

/-- Parents of the plain chain as far down as height `lowest`. -/
def plainParent (lowest : Nat) (b : Block) : Option Block :=
  if b.height ≤ lowest then none else some (plainBlock (b.height - 1))

theorem plainParent_poorer (lowest : Nat) : Poorer (plainParent lowest) (plainParent 0) := by
  intro b
  unfold plainParent
  by_cases hlow : b.height ≤ lowest
  · rw [if_pos hlow]
    exact .inr rfl
  · rw [if_neg hlow, if_neg (by omega)]
    exact .inl rfl

/-- The walk would go down to height two and is stopped at height nine. -/
theorem nextTarget_poorer_plain :
    Poorer (plainParent 9) (plainParent 0) ∧
    nextTarget .main (fixSet true) (plainBlock 11) (trail (plainParent 0) 11 (plainBlock 11))
      ⟨0x100, 1440⟩ .faults = .ok ⟨0x1e073332⟩ ∧
    ∃ b ∈ walked .main (fixSet true) (plainBlock 11) (trail (plainParent 0) 11 (plainBlock 11))
        ⟨0x100, 1440⟩, plainParent 9 b = none ∧ b.height = 9 ∧
      nextTarget .main (fixSet true) (plainBlock 11) (trail (plainParent 9) 11 (plainBlock 11))
        ⟨0x100, 1440⟩ .faults = .error (.ancestorMissing 9) := by
  have hpoorer := plainParent_poorer 9
  have hwhole : nextTarget .main (fixSet true) (plainBlock 11)
      (trail (plainParent 0) 11 (plainBlock 11)) ⟨0x100, 1440⟩ .faults = .ok ⟨0x1e073332⟩ := by
    decide +kernel
  have hpruned : nextTarget .main (fixSet true) (plainBlock 11)
      (trail (plainParent 9) 11 (plainBlock 11)) ⟨0x100, 1440⟩ .faults =
        .error (.ancestorMissing 9) := by
    decide +kernel
  obtain ⟨hsame | ⟨b, hb, hnone, herror⟩, -⟩ :=
    nextTarget_poorer .main (fixSet true) ⟨0x100, 1440⟩ hpoorer (Nat.le_refl (plainBlock 11).height)
      (Nat.le_refl (plainBlock 11).height)
  · exact absurd (hpruned.symm.trans ((hsame .faults).trans hwhole)) nofun
  · have hheight : WorkError.ancestorMissing 9 = .ancestorMissing b.height :=
      Except.error.inj (hpruned.symm.trans (herror .faults))
    exact ⟨hpoorer, hwhole, b, hb, hnone, (WorkError.ancestorMissing.inj hheight).symm, hpruned⟩

end Wave

end SporkNode.Work
