import SporkNode.Proofs.Spork.Loading

/-!
What each operation answers, and what it lets out of the node. Records and log entries stay
inside; peers and the chain see the rest, and none of that depends on the store.
-/

namespace SporkNode.Spork

open Signature

def Effect.isOutward : Effect → Bool
  | .relay _ | .send _ _ | .penalize _ _ | .reprocess _ => true
  | .stored _ _ | .log _ => false

/-- The effects that others see, in order. -/
def Step.outward (s : Step σ α) : List Effect := s.effects.filter Effect.isOutward

theorem Step.mem_effects_of_isOutward {s : Step σ α} {e : Effect} (he : e.isOutward = true) :
    e ∈ s.effects ↔ e ∈ s.outward := by
  rw [outward, List.mem_filter]
  exact ⟨fun h => ⟨h, he⟩, fun h => h.1⟩

namespace Manager

theorem persist_outward (m : Manager) (msg : Message) : (m.persist msg).outward = [] := by
  unfold persist
  split <;> rfl

/-! ## Loading -/

theorem load_outward (m : Manager) : m.load.outward = [] := by
  rw [Step.outward, List.filter_eq_nil_iff]
  intro e he
  obtain ⟨entry, rfl⟩ := load_effects m e he
  exact Bool.false_ne_true

theorem restart_outward (m : Manager) (limits : Limits) : (m.restart limits).outward = [] := by
  unfold restart
  split
  · rfl
  · exact load_outward _

/-! ## Peers -/

theorem sendAll_outward (m : Manager) (peer : PeerId) :
    (m.sendAll peer).outward = m.messages.map (.send peer) := by
  have hsent : (m.messages.map (Effect.send peer)).filter Effect.isOutward =
      m.messages.map (.send peer) := by
    rw [List.filter_eq_self]
    intro e he
    obtain ⟨msg, -, rfl⟩ := List.mem_map.1 he
    rfl
  unfold Step.outward sendAll
  rw [List.filter_append, hsent]
  exact List.append_nil _

theorem carryOut_outward (w : World) (limits : Limits) (d : Decision) :
    (carryOut w limits d).filter Effect.isOutward =
      match d with
      | .execute blocks => [.reprocess blocks]
      | _ => [] := by
  cases d with
  | execute blocks =>
    dsimp only [carryOut]
    cases w.reprocess blocks <;> rfl
  | ignored | tooSoon | tooDeep => rfl

/-- Setting a parameter lets out at most one request to reprocess. -/
theorem react_outward (m : Manager) (w : World) (msg : Message) :
    (m.react w msg).outward =
      if msg.id = Parameter.reconsiderBlocks.id then
        match (m.governor.request msg.value.toInt w.clock.now).2 with
        | .execute blocks => [.reprocess blocks]
        | _ => []
      else [] := by
  unfold react
  split
  · exact carryOut_outward w _ _
  · rfl

theorem accept_outward (m : Manager) (w : World) (peer : PeerId) (msg : Message) :
    (m.accept w peer msg).outward = .relay ⟨.spork, msg.hash⟩ :: (m.react w msg).outward := by
  have hreact : ((m.insert msg).react w msg).effects = (m.react w msg).effects := by
    unfold react
    split <;> rfl
  have hpersist := persist_outward ((m.insert msg).react w msg).state msg
  unfold Step.outward at hpersist ⊢
  unfold accept
  simp only [List.filter_append, hreact, hpersist, List.append_nil]
  rfl

variable [Scheme]

theorem process_reply (m : Manager) (w : World) (peer : PeerId) (msg : Message) :
    (m.process w peer msg).reply =
      if m.isStale msg then .seen
      else if msg.verifies m.authority then
        if (m.message? msg.id).isSome then .updated else .new
      else .invalidSignature := by
  unfold process
  split
  · rfl
  · split <;> rfl

theorem process_outward (m : Manager) (w : World) (peer : PeerId) (msg : Message) :
    (m.process w peer msg).outward =
      if m.isStale msg then []
      else if msg.verifies m.authority then
        .relay ⟨.spork, msg.hash⟩ :: (m.react w msg).outward
      else [.penalize peer invalidSignaturePenalty] := by
  unfold process
  split
  · rfl
  · split
    · exact accept_outward m w peer msg
    · rfl

theorem process_outward_of_takes {m : Manager} {msg : Message} (h : m.takes msg = true) (w : World)
    (peer : PeerId) :
    (m.process w peer msg).outward = .relay ⟨.spork, msg.hash⟩ :: (m.react w msg).outward := by
  rw [takes, Bool.and_eq_true, Bool.not_eq_true'] at h
  rw [process_outward, h.1, h.2]
  rfl

/-! ## The node's own key -/

theorem update_outward (m : Manager) (w : World) (p : Parameter) (value : Int64) :
    (m.update w p value).outward =
      match m.signedUpdate w p value with
      | .error _ => []
      | .ok msg => [.relay ⟨.spork, msg.hash⟩] := by
  rw [update_eq]
  cases m.signedUpdate w p value with
  | error e => rfl
  | ok msg =>
    have hpersist := persist_outward (m.insert msg) msg
    unfold Step.outward at hpersist ⊢
    rw [List.filter_append, hpersist]
    rfl

theorem setKey_reply (m : Manager) (text : String) :
    (m.setKey text).reply = (m.provenSigner text).map fun _ => () := by
  rw [setKey_eq]
  cases m.provenSigner text <;> rfl

theorem setKey_outward (m : Manager) (text : String) : (m.setKey text).outward = [] := by
  rw [setKey_eq]
  split <;> rfl

/-! ## Operations -/

theorem perform_outward (m : Manager) (op : Operation) :
    (m.perform op).outward =
      match op with
      | .process w peer msg => (m.process w peer msg).outward
      | .sendAll peer => m.messages.map (.send peer)
      | .update w p value => (m.update w p value).outward
      | .setKey _ | .load | .restart _ | .outage _ => [] := by
  cases op with
  | process | update | outage => rfl
  | sendAll peer => exact m.sendAll_outward peer
  | setKey text => exact m.setKey_outward text
  | load => exact m.load_outward
  | restart limits => exact m.restart_outward limits

end Manager

end SporkNode.Spork
