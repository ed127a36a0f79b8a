import Mathlib.Data.List.Forall2
import SporkNode.Proofs.Spork.Freshness
import SporkNode.Proofs.Spork.Outward

/-!
What a failing store can change. Managers that differ only in what is stored do the same whatever
their stores let through: what is in force, what is known and what other nodes see is one thing,
and whether it could be written down is another.
-/

namespace SporkNode.Spork

open Signature

/-- All that can be asked of a manager. -/
structure Answers where
  value : Int32 → Int64
  isActive : Clock → Int32 → Bool
  name : Int32 → String
  ofName? : String → Option Parameter
  byHash? : Hash → Option Message
  messages : List Message
  hasKey : Bool
  networkParameters : Work.NetworkParameters

def Manager.answers (m : Manager) : Answers :=
  ⟨m.value, m.isActive, nameOf, Parameter.ofName?, m.byHash?, m.messages, m.hasKey,
    m.networkParameters⟩

/-- Whether what the store has makes a difference from the first moment. -/
def Operation.readsStore : Operation → Bool
  | .load | .restart _ => true
  | .process .. | .sendAll _ | .update .. | .setKey _ | .outage _ => false

/-- A run over a store that is out of order or not at each operation as it likes. -/
def Operation.interrupted (disk : Nat → Option StoreError) : List Operation → List Operation
  | [] => []
  | op :: ops => .outage (disk 0) :: op :: interrupted (fun n => disk (n + 1)) ops

/-- An update that got as far as to sign tells its caller of the message or of the store. -/
def ReportsOf (msg : Message) (result : Except SporkError Message) : Prop :=
  result = .ok msg ∨ ∃ e, result = .error (.store e)

/-- What two callers are told that made the same call. -/
inductive Reply.Alike : Reply → Reply → Prop
  | same (reply : Reply) : reply.Alike reply
  | updated {result result' : Except SporkError Message} (msg : Message)
      (h : ReportsOf msg result) (h' : ReportsOf msg result') :
      (Reply.updated result).Alike (.updated result')

/-- Two steps that nobody can tell apart but the caller of an update, and the operator from log
and records. -/
structure Step.Alike (s s' : Step Manager Reply) : Prop where
  active : s.state.active = s'.state.active
  byHash : s.state.byHash = s'.state.byHash
  answers : s.state.answers = s'.state.answers
  reply : s.reply.Alike s'.reply
  outward : s.outward = s'.outward

namespace Manager

theorem reportsOf_update [Scheme] {m : Manager} {w : World} {p : Parameter} {value : Int64}
    {msg : Message} (h : m.signedUpdate w p value = .ok msg) :
    ReportsOf msg (m.update w p value).reply := by
  rw [update_reply, h]
  cases m.store.fault? with
  | none => exact .inl rfl
  | some e => exact .inr ⟨e, rfl⟩

/-- Nothing but what is stored tells them apart. -/
def Twins (m m' : Manager) : Prop := ∃ store, m' = { m with store := store }

namespace Twins

variable {m m' : Manager}

theorem answers (h : m.Twins m') : m.answers = m'.answers := by
  obtain ⟨store, rfl⟩ := h
  rfl

theorem of_start {settings : Settings} {limits : Limits} {store store' : Store}
    (h : start settings limits store = .ok m) (h' : start settings limits store' = .ok m') :
    m.Twins m' := by
  obtain ⟨a, ha, h⟩ := bind_eq_ok.1 h
  obtain ⟨a', ha', h'⟩ := bind_eq_ok.1 h'
  cases ha.symm.trans ha'
  cases h
  cases h'
  exact ⟨store', rfl⟩

theorem alike {s s' : Step Manager Reply} (hstate : s.state.Twins s'.state)
    (hreply : s.reply.Alike s'.reply) (houtward : s.outward = s'.outward) : s.Alike s' := by
  obtain ⟨store, hstore⟩ := hstate
  refine ⟨?_, ?_, answers ⟨store, hstore⟩, hreply, houtward⟩
  · rw [hstore]
  · rw [hstore]

variable [Scheme]

/-- The stores need not fail at once. -/
theorem outage (h : m.Twins m') (fault? fault?' : Option StoreError) :
    (m.perform (.outage fault?)).state.Twins (m'.perform (.outage fault?')).state ∧
      (m.perform (.outage fault?)).Alike (m'.perform (.outage fault?')) := by
  have hstate : (m.perform (.outage fault?)).state.Twins (m'.perform (.outage fault?')).state := by
    obtain ⟨store, rfl⟩ := h
    exact ⟨_, rfl⟩
  exact ⟨hstate, hstate.alike (.same _) rfl⟩

theorem process (h : m.Twins m') (w : World) (peer : PeerId) (msg : Message) :
    (m.process w peer msg).state.Twins (m'.process w peer msg).state ∧
      (m.process w peer msg).reply = (m'.process w peer msg).reply ∧
      (m.process w peer msg).outward = (m'.process w peer msg).outward := by
  obtain ⟨store, rfl⟩ := h
  refine ⟨?_, ?_, ?_⟩
  · have htakes : takes { m with store := store } msg = m.takes msg := rfl
    rw [process_state, process_state, htakes]
    split
    · exact ⟨store.written msg, rfl⟩
    · exact ⟨store, rfl⟩
  · rw [process_reply, process_reply]
    rfl
  · have hreact : (react { m with store := store } w msg).outward = (m.react w msg).outward := by
      unfold react Step.outward
      split <;> rfl
    rw [process_outward, process_outward, hreact]
    rfl

/-- Both sign the same, or fail alike before anything is stored. -/
theorem update (h : m.Twins m') (w : World) (p : Parameter) (value : Int64) :
    (m.update w p value).state.Twins (m'.update w p value).state ∧
      (Reply.updated (m.update w p value).reply).Alike (.updated (m'.update w p value).reply) ∧
      (m.update w p value).outward = (m'.update w p value).outward := by
  obtain ⟨store, rfl⟩ := h
  have hsigned : signedUpdate { m with store := store } w p value = m.signedUpdate w p value := rfl
  have houtward : (m.update w p value).outward =
      (update { m with store := store } w p value).outward := by
    rw [update_outward, update_outward, hsigned]
  cases hmsg : m.signedUpdate w p value with
  | error e =>
    rw [hmsg] at hsigned
    refine ⟨?_, ?_, houtward⟩
    · rw [update_state, update_state, hmsg, hsigned]
      exact ⟨store, rfl⟩
    · rw [update_reply, update_reply, hmsg, hsigned]
      exact .same _
  | ok msg =>
    rw [hmsg] at hsigned
    refine ⟨?_, .updated msg (reportsOf_update hmsg) (reportsOf_update hsigned), houtward⟩
    rw [update_state, update_state, hmsg, hsigned]
    exact ⟨store.written msg, rfl⟩

theorem setKey (h : m.Twins m') (text : String) :
    (m.setKey text).state.Twins (m'.setKey text).state ∧
      (m.setKey text).reply = (m'.setKey text).reply := by
  obtain ⟨store, rfl⟩ := h
  have hsigner : provenSigner { m with store := store } text = m.provenSigner text := rfl
  rw [setKey_reply, setKey_reply, setKey_state, setKey_state, hsigner]
  refine ⟨?_, rfl⟩
  split <;> exact ⟨store, rfl⟩

theorem perform (h : m.Twins m') {op : Operation} (hop : op.readsStore = false) :
    (m.perform op).state.Twins (m'.perform op).state ∧ (m.perform op).Alike (m'.perform op) := by
  cases op with
  | process w peer msg =>
    obtain ⟨hstate, hreply, houtward⟩ := h.process w peer msg
    refine ⟨hstate, hstate.alike ?_ houtward⟩
    show (Reply.processed _).Alike (.processed _)
    rw [hreply]
    exact .same _
  | sendAll peer =>
    refine ⟨h, h.alike ?_ ?_⟩
    · obtain ⟨store, rfl⟩ := h
      exact .same _
    · rw [perform_outward, perform_outward]
      obtain ⟨store, rfl⟩ := h
      rfl
  | update w p value =>
    obtain ⟨hstate, hreply, houtward⟩ := h.update w p value
    exact ⟨hstate, hstate.alike hreply houtward⟩
  | setKey text =>
    obtain ⟨hstate, hreply⟩ := h.setKey text
    refine ⟨hstate, hstate.alike ?_ ?_⟩
    · show (Reply.keySet _).Alike (.keySet _)
      rw [hreply]
      exact .same _
    · rw [perform_outward, perform_outward]
  | outage fault? => exact h.outage fault? fault?
  | load => cases hop
  | restart limits => cases hop

end Twins

/-- Two managers that differ in nothing but what is stored get the same calls, over stores that
fail when they like. All that can be asked of them is the same before and after each call, and so
are the two maps, what each call answers and what other nodes get to see. Only an update tells its
caller of the store. -/
theorem durability_unnoticed [Scheme] {m m' : Manager} (h : m.Twins m')
    (disk disk' : Nat → Option StoreError) {ops : List Operation}
    (hops : ∀ op ∈ ops, op.readsStore = false) :
    m.answers = m'.answers ∧
      List.Forall₂ Step.Alike (m.steps (Operation.interrupted disk ops))
        (m'.steps (Operation.interrupted disk' ops)) := by
  refine ⟨h.answers, ?_⟩
  induction ops generalizing m m' disk disk' with
  | nil => exact .nil
  | cons op ops ih =>
    -- the stores part ways first, and the call finds twins all the same
    obtain ⟨houtage, hquiet⟩ := h.outage (disk 0) (disk' 0)
    obtain ⟨hstate, halike⟩ := houtage.perform (hops op List.mem_cons_self)
    exact .cons hquiet (.cons halike (ih hstate _ _ fun op' hop' =>
      hops op' (List.mem_cons_of_mem _ hop')))

/-- Two fresh managers, and the store that takes the first update fails afterwards, while the other
begins to work. -/
theorem durability_unnoticed_open :
    let ops : List Operation := [.setKey openSecret, .update openWorld .fixHeight 1,
      .process openWorld ⟨2⟩ openMessage, .sendAll ⟨3⟩]
    let fault : StoreError := .io "disk full"
    let other : Manager := { openManager with store := ⟨∅, some fault⟩ }
    let disk : Nat → Option StoreError := fun n => if n < 2 then none else some fault
    let disk' : Nat → Option StoreError := fun n => if n < 2 then some fault else none
    start openSettings .default .empty = .ok openManager ∧
    start openSettings .default ⟨∅, some fault⟩ = .ok other ∧
    (∀ op ∈ ops, op.readsStore = false) ∧
    List.Forall₂ Step.Alike (openManager.steps (Operation.interrupted disk ops))
      (other.steps (Operation.interrupted disk' ops)) := by
  intro ops fault other disk disk'
  have hother : start openSettings .default ⟨∅, some fault⟩ = .ok other := by
    unfold start
    rw [ofSettings_open]
    rfl
  have hops : ∀ op ∈ ops, op.readsStore = false := by
    intro op hop
    simp only [ops, List.mem_cons, List.not_mem_nil, or_false] at hop
    obtain rfl | rfl | rfl | rfl := hop <;> rfl
  have htwins : openManager.Twins other := .of_start start_open hother
  exact ⟨start_open, hother, hops, (durability_unnoticed htwins disk disk' hops).2⟩

end Manager

end SporkNode.Spork
