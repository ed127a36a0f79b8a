import Mathlib.Algebra.GroupWithZero.Nat
import Mathlib.Data.List.Induction
import Mathlib.Data.Nat.Choose.Basic
import SporkNode.Proofs.Work.Attainable

/-!
How far a running average drifts. Every step rounds down, and what it rounds is the average that
the steps before it have rounded already. The step that makes `n` targets of `n - 1` loses less
than `n` of their sum and passes on what was lost before it, so of the sum of `n` targets no more
than `0 + 1 + … + (n - 1)` is lost in all.
-/

namespace SporkNode.Work

/-- Blocks pushed with their targets, one after the other. -/
def Series.pushAll (s : Series) (pushed : List (Block × Target)) : Series :=
  pushed.foldl (fun s p => s.push p.1 p.2) s

/-- The targets pushed, as numbers. -/
def pushedTargets (pushed : List (Block × Target)) : List Nat := pushed.map (·.2.toNat)

theorem Series.pushAll_append_singleton (s : Series) (pushed : List (Block × Target))
    (p : Block × Target) : s.pushAll (pushed ++ [p]) = (s.pushAll pushed).push p.1 p.2 := by
  simp [pushAll]

theorem mem_pushedTargets {pushed : List (Block × Target)} {t : Nat} :
    t ∈ pushedTargets pushed ↔ ∃ p ∈ pushed, p.2.toNat = t := by
  simp [pushedTargets]

theorem sum_pushedTargets_append_singleton (pushed : List (Block × Target)) (p : Block × Target) :
    (pushedTargets (pushed ++ [p])).sum = (pushedTargets pushed).sum + p.2.toNat := by
  simp [pushedTargets]

/-- The average of a series, times the number of targets, falls short of their sum by at most what
that many steps round off, and it lies between the bounds of the targets. -/
structure Series.Averages (s : Series) (pushed : List (Block × Target)) (low high : Nat) :
    Prop where
  count : s.count = pushed.length
  within : s.Within low high
  least : s.count * s.average.toNat ≤ (pushedTargets pushed).sum
  most : (pushedTargets pushed).sum ≤ s.count * s.average.toNat + s.count * (s.count - 1) / 2

theorem Series.averages_start (tip : Block) (low high : Nat) :
    (start tip).Averages [] low high where
  count := rfl
  within := fun hpos => absurd hpos (Nat.lt_irrefl 0)
  least := Nat.le_of_eq (Nat.zero_mul _)
  most := Nat.zero_le _

theorem Series.Averages.push {s : Series} {pushed : List (Block × Target)} {low high : Nat}
    (h : s.Averages pushed low high) {p : Block × Target}
    (hp : low ≤ p.2.toNat ∧ p.2.toNat ≤ high) (hroom : high * (s.count + 1) < 2 ^ 256) :
    (s.push p.1 p.2).Averages (pushed ++ [p]) low high := by
  have hcount : (s.push p.1 p.2).count = s.count + 1 := rfl
  have haverage := h.within.toNat_push p.1 hp hroom
  rw [Nat.mul_comm s.average.toNat] at haverage
  have hsum := sum_pushedTargets_append_singleton pushed p
  constructor
  · rw [hcount, h.count, List.length_append, List.length_singleton]
  · exact h.within.push p.1 hp hroom
  · rw [hcount, haverage, hsum]
    calc
      (s.count + 1) * ((s.count * s.average.toNat + p.2.toNat) / (s.count + 1))
        ≤ s.count * s.average.toNat + p.2.toNat := Nat.mul_div_le _ _
      _ ≤ (pushedTargets pushed).sum + p.2.toNat := Nat.add_le_add_right h.least _
  · -- what was lost before stays lost, and this step loses at most as much as targets came before
    have hstep : s.count * s.average.toNat + p.2.toNat <
        (s.count + 1) * ((s.count * s.average.toNat + p.2.toNat) / (s.count + 1) + 1) :=
      Nat.lt_mul_div_succ _ (Nat.succ_pos _)
    have hbefore := h.most
    rw [Nat.mul_add_one] at hstep
    rw [hcount, haverage, hsum, Nat.triangle_succ]
    omega

/-- What a run of pushes keeps, by induction from the first push on. -/
theorem Series.pushAll_averages (tip : Block) {pushed : List (Block × Target)} {low high : Nat}
    (hbounds : ∀ p ∈ pushed, low ≤ p.2.toNat ∧ p.2.toNat ≤ high)
    (hroom : high * pushed.length < 2 ^ 256) :
    ((start tip).pushAll pushed).Averages pushed low high := by
  induction pushed using List.reverseRecOn with
  | nil => exact averages_start tip low high
  | append_singleton pushed p ih =>
    rw [List.length_append, List.length_singleton] at hroom
    have hless : high * pushed.length < 2 ^ 256 :=
      Nat.lt_of_le_of_lt (Nat.mul_le_mul_left _ (Nat.le_succ _)) hroom
    have hbefore := ih (fun q hq => hbounds q (List.mem_append_left _ hq)) hless
    rw [← hbefore.count] at hroom
    rw [pushAll_append_singleton]
    exact hbefore.push (hbounds p (List.mem_append_right _ List.mem_cons_self)) hroom

theorem Series.earliest_pushAll (s : Series) {pushed : List (Block × Target)} (hne : pushed ≠ []) :
    pushed.getLast?.map Prod.fst = some (s.pushAll pushed).earliest := by
  rw [← List.dropLast_concat_getLast hne, pushAll_append_singleton]
  simp [Series.push]

/-- Whichever push is next, the product and the sum behind its average are those of numbers. -/
theorem Series.pushAll_unwrapped (tip : Block) {before after : List (Block × Target)}
    {block : Block} {target : Target} {low high : Nat}
    (hbounds : ∀ p ∈ before ++ (block, target) :: after, low ≤ p.2.toNat ∧ p.2.toNat ≤ high)
    (hroom : high * (before ++ (block, target) :: after).length < 2 ^ 256) :
    let s := (start tip).pushAll before
    (s.average.scale s.count).toNat = s.average.toNat * s.count ∧
      (s.average.scale s.count + target).toNat = s.average.toNat * s.count + target.toNat := by
  intro s
  rw [List.length_append, List.length_cons] at hroom
  have hbefore : high * before.length < 2 ^ 256 :=
    Nat.lt_of_le_of_lt (Nat.mul_le_mul_left _ (Nat.le_add_right _ _)) hroom
  have haverages := pushAll_averages tip (fun p hp => hbounds p (List.mem_append_left _ hp)) hbefore
  have hcount : s.count = before.length := haverages.count
  have hsum : s.average.toNat * s.count + target.toNat < 2 ^ 256 :=
    calc
      s.average.toNat * s.count + target.toNat ≤ high * (s.count + 1) :=
        (haverages.within.sum_bounds (hbounds _ (List.mem_append_right _ List.mem_cons_self))).2
      _ ≤ high * (before.length + (after.length + 1)) := Nat.mul_le_mul_left _ (by omega)
      _ < 2 ^ 256 := hroom
  have hproduct : (s.average.scale s.count).toNat = s.average.toNat * s.count := by
    rw [Target.toNat_scale]
    exact Nat.mod_eq_of_lt (Nat.lt_of_le_of_lt (Nat.le_add_right _ _) hsum)
  refine ⟨hproduct, ?_⟩
  rw [BitVec.toNat_add, hproduct]
  exact Nat.mod_eq_of_lt hsum

/-- The running average of `n` targets, the greatest of which has room for `n` of its kind, lies
between the least and the greatest, and `n` times the average falls short of the sum by at most
`n (n - 1) / 2`. The series counts `n`, its earliest block is the last one pushed, and no product
and no sum on the way is cut. -/
theorem Series.pushAll_accurate (tip : Block) {pushed : List (Block × Target)} {low high : Nat}
    (hlow : (pushedTargets pushed).min? = some low)
    (hhigh : (pushedTargets pushed).max? = some high)
    (hroom : high * pushed.length < 2 ^ 256) :
    let s := (start tip).pushAll pushed
    let n := pushed.length
    (low ≤ s.average.toNat ∧ s.average.toNat ≤ high) ∧
    (n * s.average.toNat ≤ (pushedTargets pushed).sum ∧
      (pushedTargets pushed).sum - n * s.average.toNat ≤ n * (n - 1) / 2) ∧
    s.count = n ∧
    pushed.getLast?.map Prod.fst = some s.earliest ∧
    ∀ before block target after, pushed = before ++ (block, target) :: after →
      let s := (start tip).pushAll before
      (s.average.scale s.count).toNat = s.average.toNat * s.count ∧
      (s.average.scale s.count + target).toNat = s.average.toNat * s.count + target.toNat := by
  have hbounds : ∀ p ∈ pushed, low ≤ p.2.toNat ∧ p.2.toNat ≤ high := by
    intro p hp
    have hmem := mem_pushedTargets.2 ⟨p, hp, rfl⟩
    exact ⟨(List.min?_eq_some_iff.1 hlow).2 _ hmem, (List.max?_eq_some_iff.1 hhigh).2 _ hmem⟩
  have hne : pushed ≠ [] := by
    rintro rfl
    cases hlow
  have haverages := pushAll_averages tip hbounds hroom
  intro s n
  have hcount : s.count = n := haverages.count
  have hleast : n * s.average.toNat ≤ (pushedTargets pushed).sum := hcount ▸ haverages.least
  have hmost : (pushedTargets pushed).sum ≤ n * s.average.toNat + n * (n - 1) / 2 :=
    hcount ▸ haverages.most
  refine ⟨haverages.within ?_, ⟨hleast, by omega⟩, hcount, earliest_pushAll _ hne, ?_⟩
  · show 0 < s.count
    rw [hcount]
    exact List.length_pos_iff.2 hne
  · rintro before block target after rfl
    exact pushAll_unwrapped tip hbounds hroom

/-- Three targets that just leave room for each other and lose all that three steps can lose. -/
def driftingTargets : List (Block × Target) :=
  [(plainBlock 3, .ofNat (2 ^ 254 + 1)), (plainBlock 2, .ofNat (2 ^ 254)),
   (plainBlock 1, .ofNat (2 ^ 254 + 2))]

theorem Series.pushAll_accurate_drifting :
    let s := (start (plainBlock 3)).pushAll driftingTargets
    (pushedTargets driftingTargets).min? = some (2 ^ 254) ∧
    (pushedTargets driftingTargets).max? = some (2 ^ 254 + 2) ∧
    (2 ^ 254 + 2) * driftingTargets.length < 2 ^ 256 ∧
    s.average.toNat = 2 ^ 254 ∧
    (pushedTargets driftingTargets).sum - 3 * s.average.toNat = 3 ∧
    s.earliest = plainBlock 1 ∧
    (2 ^ 254 ≤ s.average.toNat ∧ s.average.toNat ≤ 2 ^ 254 + 2) := by
  have hlow : (pushedTargets driftingTargets).min? = some (2 ^ 254) := by decide
  have hhigh : (pushedTargets driftingTargets).max? = some (2 ^ 254 + 2) := by decide
  have hroom : (2 ^ 254 + 2) * driftingTargets.length < 2 ^ 256 := by decide
  obtain ⟨hbounds, -, -, -, -⟩ := pushAll_accurate (plainBlock 3) hlow hhigh hroom
  exact ⟨hlow, hhigh, hroom, by decide, by decide, by decide, hbounds⟩

end SporkNode.Work
