import Mathlib.Data.List.Forall2
import SporkNode.Proofs.Spork.Governor
import SporkNode.Proofs.Spork.Outward

/-!
Who has blocks reprocessed. Only a message that a peer sent and the manager took can, and it has as
many reprocessed as it asks for; the governor remembers when, whatever came of it. So in a run the
requests to the chain are those of the messages that earned them, one each.
-/

namespace SporkNode.Spork

open Signature

/-- How many blocks an effect has reprocessed, if it is such a request. -/
def Effect.blocks? : Effect → Option Nat
  | .reprocess blocks => some blocks
  | _ => none

/-- The requests to reprocess blocks, in order. -/
def Step.calls (s : Step σ α) : List Nat := s.effects.filterMap Effect.blocks?

theorem Step.calls_eq (s : Step σ α) : s.calls = s.outward.filterMap Effect.blocks? := by
  unfold calls outward
  rw [List.filterMap_filter]
  congr 1
  funext e
  cases e <;> rfl

namespace Manager

theorem react_calls (m : Manager) (w : World) (msg : Message) :
    (m.react w msg).calls =
      if msg.id = Parameter.reconsiderBlocks.id then
        match (m.governor.request msg.value.toInt w.clock.now).2 with
        | .execute blocks => [blocks]
        | _ => []
      else [] := by
  rw [Step.calls_eq, react_outward]
  split
  · cases (m.governor.request msg.value.toInt w.clock.now).2 <;> rfl
  · rfl

/-- To set a parameter has no blocks reprocessed and leaves the governor alone, or it is a request
that is carried out. -/
theorem react_cases (m : Manager) (w : World) (msg : Message) :
    ((m.react w msg).calls = [] ∧ m.governorAfter w msg = m.governor) ∨
    ∃ n : Nat, msg.id = Parameter.reconsiderBlocks.id ∧ msg.value.toInt = n ∧ 1 ≤ n ∧
      n ≤ m.governor.limits.maxBlocks ∧ (m.react w msg).calls = [n] ∧
      m.governorAfter w msg = { m.governor with last? := some w.clock.now } := by
  rw [react_calls, governorAfter]
  by_cases hid : msg.id = Parameter.reconsiderBlocks.id
  · rw [if_pos hid, if_pos hid]
    rcases m.governor.request_cases msg.value.toInt w.clock.now with
      ⟨n, hrequest, hvalue, hpos, hle, -⟩ | ⟨hsame, hnone⟩
    · rw [hrequest]
      exact .inr ⟨n, hid, hvalue, hpos, hle, rfl, rfl⟩
    · left
      refine ⟨?_, hsame⟩
      split
      · exact absurd ‹_› (hnone _)
      · rfl
  · rw [if_neg hid, if_neg hid]
    exact .inl ⟨rfl, rfl⟩

@[simp] theorem load_governor (m : Manager) : m.load.state.governor = m.governor := by
  rw [load_state]
  induction Parameter.all generalizing m with
  | nil => rfl
  | cons p rest ih =>
    rw [List.foldl_cons, ih]
    unfold withRecord
    split <;> rfl

section

variable [Scheme]

theorem process_calls (m : Manager) (w : World) (peer : PeerId) (msg : Message) :
    (m.process w peer msg).calls = if m.takes msg then (m.react w msg).calls else [] := by
  rw [Step.calls_eq, Step.calls_eq, process_outward, takes]
  cases m.isStale msg with
  | true => rfl
  | false => cases msg.verifies m.authority <;> rfl

/-- Only messages from peers have blocks reprocessed. -/
theorem perform_calls (m : Manager) (op : Operation) :
    (m.perform op).calls =
      match op with
      | .process w _ msg => if m.takes msg then (m.react w msg).calls else []
      | _ => [] := by
  cases op with
  | process w peer msg => exact m.process_calls w peer msg
  | sendAll peer =>
    rw [Step.calls_eq, perform_outward]
    dsimp only
    rw [List.filterMap_eq_nil_iff]
    intro e he
    obtain ⟨msg, -, rfl⟩ := List.mem_map.1 he
    rfl
  | update w p value =>
    rw [Step.calls_eq, perform_outward]
    dsimp only
    rw [update_outward]
    split <;> rfl
  | setKey | load | restart | outage =>
    rw [Step.calls_eq, perform_outward]
    rfl

/-- Only messages from peers and restarts move the governor. -/
theorem perform_governor (m : Manager) {op : Operation} (hop : ∀ limits, op ≠ .restart limits) :
    (m.perform op).state.governor =
      match op with
      | .process w _ msg => if m.takes msg then m.governorAfter w msg else m.governor
      | _ => m.governor := by
  cases op with
  | process w peer msg =>
    show (m.process w peer msg).state.governor = _
    rw [process_state]
    dsimp only
    split <;> rfl
  | update w p value =>
    show (m.update w p value).state.governor = _
    rw [update_state]
    split <;> rfl
  | setKey text =>
    show (m.setKey text).state.governor = _
    rw [setKey_state]
    split <;> rfl
  | load => exact m.load_governor
  | restart limits => exact absurd rfl (hop limits)
  | sendAll | outage => rfl

theorem process_reply_of_takes {m : Manager} {msg : Message} (h : m.takes msg = true) (w : World)
    (peer : PeerId) : (m.process w peer msg).reply.isAccepted = true := by
  rw [takes, Bool.and_eq_true, Bool.not_eq_true'] at h
  rw [process_reply, h.1, h.2]
  cases (m.message? msg.id).isSome <;> rfl

end

end Manager

/-- A message that was answered as new or as an update and that asks for `n` blocks, no more than
the limit, to be reconsidered: they were, and the time is remembered. -/
inductive Earned (limits : Limits) (n : Nat) : Operation × Step Manager Reply → Prop
  | intro {w : World} {peer : PeerId} {msg : Message} {s : Step Manager Reply} {outcome : Outcome}
      (reply : s.reply = .processed outcome) (accepted : outcome.isAccepted = true)
      (id : msg.id = Parameter.reconsiderBlocks.id) (value : msg.value.toInt = n)
      (pos : 1 ≤ n) (le : n ≤ limits.maxBlocks) (calls : s.calls = [n])
      (last : s.state.governor.last? = some w.clock.now) :
      Earned limits n (.process w peer msg, s)

/-- The time of an operation that brings a message. -/
def Operation.time? : Operation → Option Int
  | .process w _ _ => some w.clock.now
  | _ => none

namespace Earned

variable {limits : Limits} {n : Nat} {x : Operation × Step Manager Reply}

theorem calls_eq (h : Earned limits n x) : x.2.calls = [n] := by
  cases h
  assumption

theorem remembered (h : Earned limits n x) :
    ∃ now, x.1.time? = some now ∧ x.2.state.governor.last? = some now := by
  obtain ⟨_, _, _, _, _, _, _, hlast⟩ := h
  exact ⟨_, rfl, hlast⟩

end Earned

namespace Manager

variable [Scheme]

/-- The operations of a run that have blocks reprocessed, with what they did, in order. -/
def calling (m : Manager) (ops : List Operation) : List (Operation × Step Manager Reply) :=
  (ops.zip (m.steps ops)).filter fun x => x.2.calls ≠ []

theorem calling_cons (m : Manager) (op : Operation) (ops : List Operation) :
    m.calling (op :: ops) =
      if (m.perform op).calls = [] then (m.perform op).state.calling ops
      else (op, m.perform op) :: (m.perform op).state.calling ops := by
  by_cases h : (m.perform op).calls = [] <;> simp [calling, steps, h]

/-- An operation has no blocks reprocessed and leaves the governor alone, or it is a message that
has earned it. -/
theorem perform_earned (m : Manager) {op : Operation} (hop : ∀ limits, op ≠ .restart limits) :
    ((m.perform op).calls = [] ∧ (m.perform op).state.governor = m.governor) ∨
    ∃ n, Earned m.governor.limits n (op, m.perform op) ∧
      (m.perform op).state.governor.limits = m.governor.limits := by
  have hcalls := m.perform_calls op
  have hgovernor := m.perform_governor hop
  cases op with
  | process w peer msg =>
    dsimp only at hcalls hgovernor
    cases htakes : m.takes msg with
    | false =>
      rw [htakes] at hcalls hgovernor
      exact .inl ⟨hcalls, hgovernor⟩
    | true =>
      rw [htakes, if_pos rfl] at hcalls hgovernor
      rcases m.react_cases w msg with ⟨hnone, hsame⟩ | ⟨n, hid, hvalue, hpos, hle, hone, hmoved⟩
      · exact .inl ⟨hcalls.trans hnone, hgovernor.trans hsame⟩
      · have hnow := hgovernor.trans hmoved
        have haccepted := process_reply_of_takes htakes w peer
        exact .inr ⟨n, .intro rfl haccepted hid hvalue hpos hle (hcalls.trans hone) (by rw [hnow]),
          by rw [hnow]⟩
  | restart limits => exact absurd rfl (hop limits)
  | sendAll | update | setKey | load | outage => exact .inl ⟨hcalls, hgovernor⟩

/-- In every run of a manager in being, with any clocks and whether or not the chain does as it is
asked: the requests to reprocess blocks are those of the operations that make any, in order, and
each of these is a message that has earned it; the governor remembers the time of the last. -/
theorem reprocessing_earned (m : Manager) {ops : List Operation}
    (hops : ∀ op ∈ ops, ∀ limits, op ≠ .restart limits) :
    List.Forall₂ (Earned m.governor.limits) ((m.steps ops).flatMap Step.calls) (m.calling ops) ∧
    (m.run ops).governor.last? =
      ((m.calling ops).filterMap (·.1.time?)).getLast?.or m.governor.last? := by
  induction ops generalizing m with
  | nil => exact ⟨.nil, rfl⟩
  | cons op ops ih =>
    have hlater : ∀ op ∈ ops, ∀ limits, op ≠ .restart limits := fun op' hop' =>
      hops op' (List.mem_cons_of_mem _ hop')
    obtain ⟨hforall, hlast⟩ := ih (m.perform op).state hlater
    rw [run_cons, hlast, calling_cons, steps, List.flatMap_cons]
    rcases m.perform_earned (hops op List.mem_cons_self) with
      ⟨hcalls, hgovernor⟩ | ⟨n, hearned, hlimits⟩
    · rw [hgovernor] at hforall ⊢
      rw [if_pos hcalls, hcalls]
      exact ⟨hforall, rfl⟩
    · rw [hlimits] at hforall
      obtain ⟨now, htime, hnow⟩ := hearned.remembered
      have hcalls : (m.perform op).calls = [n] := hearned.calls_eq
      rw [if_neg (by rw [hcalls]; exact List.cons_ne_nil n []), hcalls]
      refine ⟨.cons hearned hforall, ?_⟩
      rw [hnow]
      simp only [List.filterMap_cons, htime, List.getLast?_cons]
      -- a later request, if there is one, is the last in both
      cases (((m.perform op).state.calling ops).filterMap (·.1.time?)).getLast? <;> rfl

end Manager

/-- The open network asks for fifty blocks to be reconsidered. -/
def reconsiderFifty : Message where
  id := 10011
  value := 50
  time := 1600000000
  signature :=
    [0x1c,
     0xb4, 0x2e, 0xf5, 0xc0, 0x19, 0xa3, 0x84, 0x8b, 0xf8, 0x0c, 0x0d, 0x79, 0x69, 0x1f, 0x65, 0x2d,
     0x8c, 0xfd, 0x90, 0xa4, 0xbd, 0xf1, 0xf3, 0xb5, 0x09, 0x98, 0x8c, 0x56, 0xf0, 0xdc, 0x5a, 0x7c,
     0x0c, 0x20, 0xbd, 0x1f, 0x30, 0xd6, 0x5a, 0x7c, 0xfc, 0xdb, 0xbc, 0x5f, 0x4f, 0x35, 0x0a, 0x72,
     0x63, 0x36, 0x54, 0xc2, 0xd7, 0x18, 0x39, 0x4c, 0xac, 0xea, 0xfd, 0x75, 0xfa, 0x46, 0xd0, 0x3a]

theorem reconsiderFifty_verifies : reconsiderFifty.verifies openAuthority = true := by
  decide +kernel

theorem openManager_takes_fifty : openManager.takes reconsiderFifty = true := by
  unfold Manager.takes
  rw [show openManager.authority = openAuthority from rfl, reconsiderFifty_verifies]
  rfl

/-- The world of a chain that cannot be taken back. -/
def stuckWorld : World := ⟨⟨1700000000, 0⟩, fun _ => some "no undo data"⟩

/-- A request that fails is the only one of the run, and counts as its last. -/
theorem reprocessing_earned_open :
    let request : Operation := .process stuckWorld ⟨1⟩ reconsiderFifty
    let ops : List Operation := [request, .sendAll ⟨2⟩, .load]
    (∀ op ∈ ops, ∀ limits, op ≠ .restart limits) ∧
    openManager.calling ops = [(request, openManager.perform request)] ∧
    List.Forall₂ (Earned .default) ((openManager.steps ops).flatMap Step.calls)
      [(request, openManager.perform request)] ∧
    (openManager.run ops).governor.last? = some 1700000000 := by
  intro request ops
  have hops : ∀ op ∈ ops, ∀ limits, op ≠ .restart limits := by
    intro op hop limits
    simp only [ops, List.mem_cons, List.not_mem_nil, or_false] at hop
    obtain rfl | rfl | rfl := hop <;> exact nofun
  have hcalls : (openManager.perform request).calls = [50] := by
    rw [Manager.perform_calls]
    dsimp only [request]
    rw [openManager_takes_fifty, if_pos rfl, Manager.react_calls]
    rfl
  have hcalling : openManager.calling ops = [(request, openManager.perform request)] := by
    rw [Manager.calling_cons, hcalls, Manager.calling_cons, Manager.perform_calls,
      Manager.calling_cons, Manager.perform_calls]
    rfl
  obtain ⟨hforall, hlast⟩ := openManager.reprocessing_earned hops
  rw [hcalling] at hforall hlast
  exact ⟨hops, hcalling, hforall, hlast⟩

end SporkNode.Spork
