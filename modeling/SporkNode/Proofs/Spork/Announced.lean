import SporkNode.Proofs.Spork.Freshness
import SporkNode.Proofs.Spork.Outward

/-!
What a manager tells its peers of, it can give them. A message enters the map of hashes before its
hash is announced, and only a restart takes anything out of that map: a message that has lost its
force is still there for those who ask for it.
-/

namespace SporkNode.Spork

open Signature

namespace Manager

/-- Who asks for the hash gets a message that has it. -/
def Serves (m : Manager) (h : Hash) : Prop := ∃ msg, m.byHash? h = some msg ∧ msg.hash = h

/-- What fits together in the two maps. -/
structure Indexed (m : Manager) : Prop where
  filed : m.Filed
  /-- No message is known by another's hash. -/
  hashed : ∀ h msg, m.byHash? h = some msg → msg.hash = h
  /-- All that is in force is known by its hash. -/
  served : ∀ id msg, m.message? id = some msg → m.Serves msg.hash

variable {m : Manager}

theorem serves_insert (m : Manager) (msg : Message) : (m.insert msg).Serves msg.hash := by
  refine ⟨msg, ?_, rfl⟩
  rw [byHash?_insert, if_pos rfl]

/-- A message with the same hash may take the place, so that the hash is served all the same. -/
theorem Serves.lasting (h : Hash) : Lasting (Serves · h) where
  of_maps := by
    intro m m' hm _ hbyHash
    unfold Serves byHash?
    rw [hbyHash]
    exact hm
  insert := by
    rintro m msg ⟨known, hknown, hhash⟩
    by_cases heq : msg.hash = h
    · rw [← heq]
      exact m.serves_insert msg
    · refine ⟨known, ?_, hhash⟩
      rw [byHash?_insert, if_neg heq]
      exact hknown

namespace Indexed

theorem of_start {settings : Settings} {limits : Limits} {store : Store}
    (h : start settings limits store = .ok m) : m.Indexed := by
  refine ⟨.of_start h, ?_, ?_⟩
  · obtain ⟨a, -, h⟩ := bind_eq_ok.1 h
    cases h
    intro hash msg h
    simp [byHash?] at h
  · obtain ⟨-, -, -, hnone⟩ := authority_of_start h
    intro id msg h
    rw [hnone] at h
    cases h

theorem lasting : Lasting Indexed where
  of_maps := by
    intro m m' hm hactive hbyHash
    refine ⟨Filed.lasting.of_maps hm.filed hactive hbyHash, ?_, ?_⟩
    · intro h msg hmsg
      apply hm.hashed h msg
      rw [byHash?, ← hbyHash]
      exact hmsg
    · intro id msg hmsg
      refine (Serves.lasting msg.hash).of_maps (hm.served id msg ?_) hactive hbyHash
      rw [message?, ← hactive]
      exact hmsg
  insert := by
    intro m msg hm
    refine ⟨Filed.lasting.insert msg hm.filed, ?_, ?_⟩
    · intro h known hknown
      rw [byHash?_insert] at hknown
      split at hknown
      · cases hknown
        assumption
      · exact hm.hashed h known hknown
    · intro id held hheld
      rw [message?_insert] at hheld
      split at hheld
      · cases hheld
        exact m.serves_insert msg
      · exact (Serves.lasting held.hash).insert msg (hm.served id held hheld)

theorem run [Scheme] (hm : m.Indexed) (ops : List Operation) : (m.run ops).Indexed :=
  lasting.run_of_start of_start hm ops

end Indexed

/-! ## Announcements -/

section

variable [Scheme]

theorem serves_of_process {w : World} {peer : PeerId} {msg : Message} {item : InventoryItem}
    (h : .relay item ∈ (m.process w peer msg).outward) :
    item.kind = .spork ∧ (m.process w peer msg).state.Serves item.hash := by
  have hreact : .relay item ∉ (m.react w msg).outward := by
    rw [react_outward]
    split
    · split <;> simp
    · exact List.not_mem_nil
  rw [process_outward] at h
  split at h
  · cases h
  · rename_i hfresh
    split at h
    · rename_i hv
      have htakes : m.takes msg = true := by
        rw [takes, hv, Bool.eq_false_iff.2 hfresh]
        rfl
      have hitem : item = ⟨.spork, msg.hash⟩ := by
        rcases List.mem_cons.1 h with h | h
        · exact Effect.relay.inj h
        · exact absurd h hreact
      rw [hitem, process_state, if_pos htakes]
      exact ⟨rfl, (Serves.lasting msg.hash).of_maps (m.serves_insert msg) rfl rfl⟩
    · simp at h

theorem serves_of_update {w : World} {p : Parameter} {value : Int64} {item : InventoryItem}
    (h : .relay item ∈ (m.update w p value).outward) :
    item.kind = .spork ∧ (m.update w p value).state.Serves item.hash := by
  rw [update_outward] at h
  rw [update_state]
  cases hmsg : m.signedUpdate w p value with
  | error e =>
    rw [hmsg] at h
    cases h
  | ok msg =>
    rw [hmsg] at h
    cases List.mem_singleton.1 h
    exact ⟨rfl, (Serves.lasting msg.hash).of_maps (m.serves_insert msg) rfl rfl⟩

/-- What is taken from a peer is announced. -/
theorem relay_of_takes {msg : Message} (h : m.takes msg = true) (w : World) (peer : PeerId) :
    .relay ⟨.spork, msg.hash⟩ ∈ (m.perform (.process w peer msg)).effects := by
  rw [Step.mem_effects_of_isOutward rfl, perform_outward]
  dsimp only
  rw [process_outward_of_takes h]
  exact List.mem_cons_self

/-- An operation that announces something leaves a manager that has it. -/
theorem serves_of_perform {op : Operation} {item : InventoryItem}
    (h : .relay item ∈ (m.perform op).effects) :
    item.kind = .spork ∧ (m.perform op).state.Serves item.hash := by
  rw [Step.mem_effects_of_isOutward rfl, perform_outward] at h
  cases op with
  | process w peer msg => exact serves_of_process h
  | sendAll peer =>
    obtain ⟨msg, -, hmsg⟩ := List.mem_map.1 h
    cases hmsg
  | update w p value => exact serves_of_update h
  | setKey | load | restart | outage => cases h

/-- What was announced on the way is still there at the end. -/
theorem serves_of_steps {ops : List Operation}
    (hops : ∀ op ∈ ops, ∀ limits, op ≠ .restart limits) {s : Step Manager Reply}
    (hs : s ∈ m.steps ops) {item : InventoryItem} (h : .relay item ∈ s.effects) :
    item.kind = .spork ∧ (m.run ops).Serves item.hash := by
  induction ops generalizing m with
  | nil => cases hs
  | cons op ops ih =>
    have hlater : ∀ op ∈ ops, ∀ limits, op ≠ .restart limits := fun op' hop' =>
      hops op' (List.mem_cons_of_mem _ hop')
    rcases List.mem_cons.1 hs with rfl | hs
    · obtain ⟨hkind, hserves⟩ := serves_of_perform h
      exact ⟨hkind, (Serves.lasting item.hash).run hserves hlater⟩
    · exact ih hlater hs

/-- Wherever a run of a fresh manager over any store has come to, each hash announced so far gets an
answer with just that hash, and so does the hash of each message in force; no message is kept under
another's hash or number. -/
theorem announced_served {settings : Settings} {limits : Limits} {store : Store} {fresh : Manager}
    (h : start settings limits store = .ok fresh) {ops : List Operation}
    (hops : ∀ op ∈ ops, ∀ limits', op ≠ .restart limits') :
    let m := fresh.run ops
    (∀ s ∈ fresh.steps ops, ∀ item, .relay item ∈ s.effects →
      item.kind = .spork ∧ ∃ msg, m.byHash? item.hash = some msg ∧ msg.hash = item.hash) ∧
    (∀ id msg, m.message? id = some msg → msg.id = id ∧ ∃ known, m.byHash? msg.hash = some known) ∧
    ∀ hash msg, m.byHash? hash = some msg → msg.hash = hash := by
  intro m
  have hm : m.Indexed := (Indexed.of_start h).run ops
  refine ⟨fun s hs item hitem => serves_of_steps hops hs hitem, ?_, hm.hashed⟩
  intro id msg hmsg
  obtain ⟨known, hknown, -⟩ := hm.served id msg hmsg
  exact ⟨hm.filed id msg hmsg, known, hknown⟩

end

/-- A message that was announced first and then replaced by the node's own. -/
theorem announced_served_open :
    let ops : List Operation := [.process openWorld ⟨1⟩ openMessage, .setKey openSecret,
      .update openWorld .instantSendMaxValue 7, .load]
    start openSettings .default .empty = .ok openManager ∧
    (∀ op ∈ ops, ∀ limits, op ≠ .restart limits) ∧
    .relay ⟨.spork, openMessage.hash⟩ ∈
      (openManager.perform (.process openWorld ⟨1⟩ openMessage)).effects ∧
    ∃ msg, (openManager.run ops).byHash? openMessage.hash = some msg ∧
      msg.hash = openMessage.hash := by
  intro ops
  have hops : ∀ op ∈ ops, ∀ limits, op ≠ .restart limits := by
    intro op hop limits
    simp only [ops, List.mem_cons, List.not_mem_nil, or_false] at hop
    obtain rfl | rfl | rfl | rfl := hop <;> exact nofun
  have hrelay := relay_of_takes openManager_takes openWorld ⟨1⟩
  obtain ⟨hserved, -⟩ := announced_served start_open hops
  exact ⟨start_open, hops, hrelay, (hserved _ List.mem_cons_self _ hrelay).2⟩

end Manager

end SporkNode.Spork
