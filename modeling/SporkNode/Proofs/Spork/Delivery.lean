import SporkNode.Proofs.Spork.Operation
import SporkNode.Work.Required

/-!
Deliveries from peers. What a manager holds for a parameter is the newest of the valid messages
that have come for it, and that depends on which these are, not on their order or number. Nodes
that have seen the same messages therefore demand the same work.
-/

namespace SporkNode.Spork

open Signature

structure Delivery where
  world : World
  peer : PeerId
  message : Message

def Delivery.operation (d : Delivery) : Operation := .process d.world d.peer d.message

def Manager.deliver [Scheme] (m : Manager) (ds : List Delivery) : Manager :=
  m.run (ds.map Delivery.operation)

/-- What is to be held for a parameter after the messages of `seen`: a valid one that none is newer
than, or nothing if none is valid. -/
def Newest (valid : Message → Prop) (seen : List Message) (id : Int32) : Option Message → Prop
  | none => ∀ msg ∈ seen, msg.id = id → ¬ valid msg
  | some held => held ∈ seen ∧ held.id = id ∧ valid held ∧
      ∀ msg ∈ seen, msg.id = id → valid msg → msg.time ≤ held.time

/-- Valid messages for one parameter and time do not contradict each other. -/
def Consistent (valid : Message → Prop) (seen : List Message) : Prop :=
  ∀ a ∈ seen, ∀ b ∈ seen, valid a → valid b → a.id = b.id → a.time = b.time → a.value = b.value

namespace Newest

variable {valid : Message → Prop} {seen seen' : List Message} {id : Int32}

theorem nil : Newest valid [] id none := by
  intro msg h
  cases h

/-- A message that is not for `id`, not valid or not newer changes nothing. -/
theorem keep {held? : Option Message} (h : Newest valid seen id held?) {msg : Message}
    (hm : msg.id = id → valid msg → ∃ held, held? = some held ∧ msg.time ≤ held.time) :
    Newest valid (seen ++ [msg]) id held? := by
  cases held? with
  | none =>
    intro other ho hid hv
    rcases List.mem_append.1 ho with ho | ho
    · exact h other ho hid hv
    · rw [List.mem_singleton] at ho
      subst ho
      obtain ⟨held, ⟨⟩, -⟩ := hm hid hv
  | some held =>
    obtain ⟨hmem, hheld, hvalid, hmax⟩ := h
    refine ⟨List.mem_append_left _ hmem, hheld, hvalid, ?_⟩
    intro other ho hid hv
    rcases List.mem_append.1 ho with ho | ho
    · exact hmax other ho hid hv
    · rw [List.mem_singleton] at ho
      subst ho
      obtain ⟨held', ⟨⟩, hle⟩ := hm hid hv
      exact hle

/-- A valid message that is no older than the one held may take its place. -/
theorem replace {held? : Option Message} (h : Newest valid seen id held?) {msg : Message}
    (hid : msg.id = id) (hv : valid msg) (hnew : ∀ held, held? = some held → held.time ≤ msg.time) :
    Newest valid (seen ++ [msg]) id (some msg) := by
  refine ⟨List.mem_append_right _ (List.mem_singleton.2 rfl), hid, hv, ?_⟩
  intro other ho hoid hov
  rcases List.mem_append.1 ho with ho | ho
  · cases held? with
    | none => exact absurd hov (h other ho hoid)
    | some held =>
      have hle := h.2.2.2 other ho hoid hov
      exact Int64.le_trans hle (hnew held rfl)
  · rw [List.mem_singleton] at ho
    subst ho
    exact Int64.le_refl _

/-- Of two lists with the same messages the newest may be signed differently, but they say the
same. -/
theorem agree {a? b? : Option Message} (ha : Newest valid seen id a?)
    (hb : Newest valid seen' id b?) (hsame : ∀ msg, msg ∈ seen ↔ msg ∈ seen')
    (hc : Consistent valid seen) :
    a?.map (fun msg => (msg.value, msg.time)) = b?.map (fun msg => (msg.value, msg.time)) := by
  cases a? with
  | none =>
    cases b? with
    | none => rfl
    | some b => exact absurd hb.2.2.1 (ha b ((hsame b).2 hb.1) hb.2.1)
  | some a =>
    cases b? with
    | none => exact absurd ha.2.2.1 (hb a ((hsame a).1 ha.1) ha.2.1)
    | some b =>
      obtain ⟨hamem, haid, hav, hamax⟩ := ha
      obtain ⟨hbmem, hbid, hbv, hbmax⟩ := hb
      have hbmem' := (hsame b).2 hbmem
      have htime : a.time = b.time :=
        Int64.le_antisymm (hbmax a ((hsame a).1 hamem) haid hav) (hamax b hbmem' hbid hbv)
      have hvalue := hc a hamem b hbmem' hav hbv (haid.trans hbid.symm) htime
      simp only [Option.map_some, hvalue, htime]

end Newest

namespace Manager

section

variable [Scheme]

theorem newest_process {m : Manager} {a : Authority} {seen : List Message} {id : Int32}
    (ha : m.authority = a) (h : Newest (·.verifies a = true) seen id (m.message? id)) (w : World)
    (peer : PeerId) (msg : Message) :
    Newest (·.verifies a = true) (seen ++ [msg]) id
      ((m.process w peer msg).state.message? id) := by
  rw [process_message?]
  split
  · rename_i ht
    obtain ⟨htakes, hid⟩ := ht
    obtain ⟨hnew, hv⟩ := takes_iff.1 htakes
    rw [ha] at hv
    rw [hid] at hnew
    exact h.replace hid hv fun held hheld => Int64.le_of_lt (hnew held hheld)
  · rename_i ht
    apply h.keep
    intro hid hv
    -- a valid message for `id` that is not taken is stale
    have hnot : ¬ m.takes msg = true := fun htakes => ht ⟨htakes, hid⟩
    have hstale : m.isStale msg = true := by
      rw [takes, ha, hv, Bool.and_true, Bool.not_eq_true', Bool.not_eq_false] at hnot
      exact hnot
    rw [← hid]
    exact isStale_iff.1 hstale

theorem newest_deliver {m : Manager} {a : Authority} {seen : List Message} {id : Int32}
    (ha : m.authority = a) (h : Newest (·.verifies a = true) seen id (m.message? id))
    (ds : List Delivery) :
    Newest (·.verifies a = true) (seen ++ ds.map (·.message)) id ((m.deliver ds).message? id) := by
  induction ds generalizing m seen with
  | nil =>
    rw [List.map_nil, List.append_nil]
    exact h
  | cons d ds ih =>
    have ha' : (m.process d.world d.peer d.message).state.authority = a := by
      rw [process_authority, ha]
    have hd := ih ha' (newest_process ha h d.world d.peer d.message)
    rw [List.append_assoc, List.singleton_append] at hd
    exact hd

/-- A fresh manager holds the newest of the valid messages that it was given. -/
theorem newest_deliver_start {settings : Settings} {limits : Limits} {store : Store}
    {m : Manager} (h : start settings limits store = .ok m) (ds : List Delivery) (id : Int32) :
    Newest (·.verifies m.authority = true) (ds.map (·.message)) id
      ((m.deliver ds).message? id) := by
  have hnone : m.message? id = none := by
    obtain ⟨a, -, h⟩ := bind_eq_ok.1 h
    cases h
    simp [message?]
  have hnil : Newest (·.verifies m.authority = true) [] id (m.message? id) := by
    rw [hnone]
    exact Newest.nil
  exact newest_deliver rfl hnil ds

end

end Manager

/-- Whatever the order and the repetitions, whatever the peers, clocks and stores: nodes of one
network that were given the same messages hold the newest valid one of each parameter, agree on its
value and time, and demand the same work on every chain. -/
theorem deliver_order_irrelevant [Scheme] {settings : Settings} {limits limits' : Limits}
    {store store' : Store} {m m' : Manager} (h : Manager.start settings limits store = .ok m)
    (h' : Manager.start settings limits' store' = .ok m') {ds ds' : List Delivery}
    (hsame : ∀ msg, msg ∈ ds.map (·.message) ↔ msg ∈ ds'.map (·.message))
    (hc : Consistent (·.verifies m.authority = true) (ds.map (·.message))) :
    (∀ id, Newest (·.verifies m.authority = true) (ds.map (·.message)) id
      ((m.deliver ds).message? id)) ∧
    (∀ id, ((m.deliver ds).message? id).map (fun msg => (msg.value, msg.time)) =
      ((m'.deliver ds').message? id).map (fun msg => (msg.value, msg.time))) ∧
    (m.deliver ds).networkParameters = (m'.deliver ds').networkParameters ∧
    ∀ params tip history candidate o,
      Work.nextWork params (m.deliver ds).networkParameters tip history candidate o =
        Work.nextWork params (m'.deliver ds').networkParameters tip history candidate o := by
  have hauth : m'.authority = m.authority := by
    obtain ⟨a, ha, h⟩ := bind_eq_ok.1 h
    obtain ⟨a', ha', h'⟩ := bind_eq_ok.1 h'
    rw [ha] at ha'
    cases ha'
    cases h
    cases h'
    rfl
  have hnew := Manager.newest_deliver_start h ds
  have hnew' := Manager.newest_deliver_start h' ds'
  rw [hauth] at hnew'
  have hagree : ∀ id, ((m.deliver ds).message? id).map (fun msg => (msg.value, msg.time)) =
      ((m'.deliver ds').message? id).map (fun msg => (msg.value, msg.time)) :=
    fun id => (hnew id).agree (hnew' id) hsame hc
  have hparams : (m.deliver ds).networkParameters = (m'.deliver ds').networkParameters := by
    apply Manager.networkParameters_congr
    intro p
    have hid := congrArg (Option.map Prod.fst) (hagree p.id)
    rw [Option.map_map, Option.map_map] at hid
    exact hid
  refine ⟨hnew, hagree, hparams, ?_⟩
  intro params tip history candidate o
  rw [hparams]

/-- One node sees a message and then a forged one, the other sees them the other way round, from
other peers and the first of them twice. -/
theorem deliver_order_irrelevant_open :
    let forged : Message := ⟨10004, 7, 1700000000, []⟩
    let ds : List Delivery := [⟨openWorld, ⟨1⟩, openMessage⟩, ⟨openWorld, ⟨2⟩, forged⟩]
    let ds' : List Delivery := [⟨openWorld, ⟨3⟩, forged⟩, ⟨openWorld, ⟨3⟩, openMessage⟩,
      ⟨openWorld, ⟨4⟩, openMessage⟩]
    Manager.start openSettings .default .empty = .ok openManager ∧
    (∀ msg, msg ∈ ds.map (·.message) ↔ msg ∈ ds'.map (·.message)) ∧
    Consistent (·.verifies openManager.authority = true) (ds.map (·.message)) ∧
    ∀ id, ((openManager.deliver ds).message? id).map (fun msg => (msg.value, msg.time)) =
      ((openManager.deliver ds').message? id).map (fun msg => (msg.value, msg.time)) := by
  intro forged ds ds'
  have hsame : ∀ msg, msg ∈ ds.map (·.message) ↔ msg ∈ ds'.map (·.message) := by
    intro msg
    simp [ds, ds', or_comm]
  have hc : Consistent (·.verifies openManager.authority = true) (ds.map (·.message)) := by
    intro a ha b hb _ _ _ htime
    have hpair : ∀ msg ∈ ds.map (·.message), msg = openMessage ∨ msg = forged := by
      intro msg hmsg
      simpa [ds] using hmsg
    obtain rfl | rfl := hpair a ha <;> obtain rfl | rfl := hpair b hb
    · rfl
    · exact absurd htime (by decide)
    · exact absurd htime (by decide)
    · rfl
  exact ⟨start_open, hsame, hc, (deliver_order_irrelevant start_open start_open hsame hc).2.1⟩

end SporkNode.Spork
