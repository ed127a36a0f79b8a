import SporkNode.Proofs.Spork.Reprocessing

/-!
The four outcomes of a message from a peer. Which one it meets is decided by what is held for its
parameter and by its signature, and the outcome tells everything else: what the manager remembers,
what is stored, what other nodes and the chain get to see. A copy of a message that was not refused
does nothing.
-/

namespace SporkNode.Spork

open Signature

/-- The record that an effect writes, if it writes one. -/
def Effect.put? : Effect → Option (Bytes × Bytes)
  | .stored key value => some (key, value)
  | _ => none

/-- The records written, in order. -/
def Step.puts (s : Step σ α) : List (Bytes × Bytes) := s.effects.filterMap Effect.put?

/-- When a message meets the outcome. -/
def Outcome.Due [Scheme] (m : Manager) (msg : Message) : Outcome → Prop
  | .seen => ∃ held, m.message? msg.id = some held ∧ msg.time ≤ held.time
  | .new => m.message? msg.id = none ∧ msg.verifies m.authority = true
  | .updated =>
    ∃ held, m.message? msg.id = some held ∧ held.time < msg.time ∧
      msg.verifies m.authority = true
  | .invalidSignature =>
    (∀ held, m.message? msg.id = some held → held.time < msg.time) ∧
      msg.verifies m.authority = false

theorem Store.written_cases (s : Store) (msg : Message) :
    (s.fault? = none ∧
      s.written msg = { s with records := s.records.insert (keyOf msg.id) msg.encode }) ∨
    ∃ e, s.fault? = some e ∧ s.written msg = s := by
  obtain ⟨records, fault?⟩ := s
  cases fault? with
  | none => exact .inl ⟨rfl, rfl⟩
  | some e => exact .inr ⟨e, rfl, rfl⟩

namespace Manager

/-- All that becomes of a message that takes force: one entry in each map, at most one record, one
announcement and, if that is what it asks for, one request to the chain. -/
structure Enacts (m : Manager) (w : World) (msg : Message) (s : Step Manager Outcome) : Prop where
  kept : s.state.settings = m.settings ∧ s.state.authority = m.authority ∧
    s.state.signer? = m.signer?
  active : ∀ id, s.state.message? id = if msg.id = id then some msg else m.message? id
  byHash : ∀ h, s.state.byHash? h = if msg.hash = h then some msg else m.byHash? h
  others : ∀ id, msg.id ≠ id → s.state.effective? id = m.effective? id
  stored : (s.state.store = m.store ∧ s.puts = []) ∨
    (s.state.store =
        { m.store with records := m.store.records.insert (Store.keyOf msg.id) msg.encode } ∧
      s.puts = [(Store.keyOf msg.id, msg.encode)])
  outward : (s.outward = [.relay ⟨.spork, msg.hash⟩] ∧ s.state.governor = m.governor) ∨
    ∃ blocks, msg.id = Parameter.reconsiderBlocks.id ∧
      s.outward = [.relay ⟨.spork, msg.hash⟩, .reprocess blocks] ∧
      s.state.governor = { m.governor with last? := some w.clock.now }

/-- What the outcome of a step tells of it. Only a bad signature is held against the peer. -/
def Tells (m : Manager) (w : World) (peer : PeerId) (msg : Message) (s : Step Manager Outcome) :
    Outcome → Prop
  | .seen => s.state = m ∧ s.outward = [] ∧ s.puts = []
  | .invalidSignature => s.state = m ∧ s.outward = [.penalize peer 100] ∧ s.puts = []
  | .new | .updated => m.Enacts w msg s

theorem effective?_congr {m m' : Manager} {id : Int32} (h : m.message? id = m'.message? id) :
    m.effective? id = m'.effective? id := by
  unfold effective?
  rw [h]

/-! ## What is written -/

theorem persist_puts (m : Manager) (msg : Message) :
    (m.persist msg).puts =
      match m.store.fault? with
      | none => [(Store.keyOf msg.id, msg.encode)]
      | some _ => [] := by
  unfold persist Store.write Store.put Store.attempt
  cases m.store.fault? <;> rfl

theorem carryOut_puts (w : World) (limits : Limits) (d : Decision) :
    (carryOut w limits d).filterMap Effect.put? = [] := by
  cases d with
  | execute blocks =>
    dsimp only [carryOut]
    cases w.reprocess blocks <;> rfl
  | ignored | tooSoon | tooDeep => rfl

theorem react_puts (m : Manager) (w : World) (msg : Message) : (m.react w msg).puts = [] := by
  unfold react
  split
  · exact carryOut_puts w _ _
  · rfl

theorem accept_puts (m : Manager) (w : World) (peer : PeerId) (msg : Message) :
    (m.accept w peer msg).puts =
      match m.store.fault? with
      | none => [(Store.keyOf msg.id, msg.encode)]
      | some _ => [] := by
  have hreact := react_puts (m.insert msg) w msg
  have hpersist := persist_puts ((m.insert msg).react w msg).state msg
  have hstore : ((m.insert msg).react w msg).state.store = m.store := by
    rw [react_state]
    rfl
  rw [hstore] at hpersist
  unfold Step.puts at hreact hpersist ⊢
  unfold accept
  simp only [List.filterMap_append, hreact, hpersist]
  rfl

/-- What a message lets out of the node beside its announcement are requests to the chain. -/
theorem react_outward_eq (m : Manager) (w : World) (msg : Message) :
    (m.react w msg).outward = (m.react w msg).calls.map .reprocess := by
  rw [react_outward, react_calls]
  split
  · cases (m.governor.request msg.value.toInt w.clock.now).2 <;> rfl
  · rfl

section

variable [Scheme]

theorem process_puts (m : Manager) (w : World) (peer : PeerId) (msg : Message) :
    (m.process w peer msg).puts =
      if m.takes msg then
        match m.store.fault? with
        | none => [(Store.keyOf msg.id, msg.encode)]
        | some _ => []
      else [] := by
  unfold process takes
  cases m.isStale msg with
  | true => rfl
  | false =>
    cases msg.verifies m.authority with
    | true => exact accept_puts m w peer msg
    | false => rfl

/-! ## The outcomes -/

theorem process_reply_iff (m : Manager) (w : World) (peer : PeerId) (msg : Message)
    (outcome : Outcome) :
    (m.process w peer msg).reply = outcome ↔ outcome.Due m msg := by
  rw [process_reply]
  cases hheld : m.message? msg.id with
  | none =>
    have hfresh : m.isStale msg = false := by
      rw [isStale, hheld]
      rfl
    rw [hfresh]
    cases hv : msg.verifies m.authority <;> cases outcome <;> simp [Outcome.Due, hheld, hv]
  | some held =>
    have hstale : m.isStale msg = decide (msg.time ≤ held.time) := by
      rw [isStale, hheld]
      rfl
    rw [hstale]
    by_cases hle : msg.time ≤ held.time
    · have hlt : ¬ held.time < msg.time := Int64.not_lt.2 hle
      cases outcome <;> simp [Outcome.Due, hheld, hle, hlt]
    · have hlt : held.time < msg.time := Int64.not_le.1 hle
      cases hv : msg.verifies m.authority <;> cases outcome <;>
        simp [Outcome.Due, hheld, hle, hlt, hv]

theorem process_of_stale {m : Manager} {msg : Message} (h : m.isStale msg = true) (w : World)
    (peer : PeerId) :
    (m.process w peer msg).reply = .seen ∧ (m.process w peer msg).state = m ∧
      (m.process w peer msg).outward = [] ∧ (m.process w peer msg).puts = [] := by
  have htakes : m.takes msg = false := by rw [takes, h, Bool.not_true, Bool.false_and]
  refine ⟨?_, ?_, ?_, ?_⟩
  · rw [process_reply, if_pos h]
  · rw [process_state, htakes, if_neg Bool.false_ne_true]
  · rw [process_outward, if_pos h]
  · rw [process_puts, htakes, if_neg Bool.false_ne_true]

theorem process_of_forged {m : Manager} {msg : Message} (h : m.isStale msg = false)
    (hv : msg.verifies m.authority = false) (w : World) (peer : PeerId) :
    (m.process w peer msg).reply = .invalidSignature ∧ (m.process w peer msg).state = m ∧
      (m.process w peer msg).outward = [.penalize peer invalidSignaturePenalty] ∧
      (m.process w peer msg).puts = [] := by
  have htakes : m.takes msg = false := by rw [takes, hv, Bool.and_false]
  refine ⟨?_, ?_, ?_, ?_⟩
  · rw [process_reply, h, hv]
    rfl
  · rw [process_state, htakes, if_neg Bool.false_ne_true]
  · rw [process_outward, h, hv]
    rfl
  · rw [process_puts, htakes, if_neg Bool.false_ne_true]

theorem process_enacts {m : Manager} {msg : Message} (h : m.takes msg = true) (w : World)
    (peer : PeerId) : m.Enacts w msg (m.process w peer msg) := by
  have hstate : (m.process w peer msg).state =
      { m.holding msg with governor := m.governorAfter w msg } := by
    rw [process_state, if_pos h]
  have hactive : ∀ id, (m.process w peer msg).state.message? id =
      if msg.id = id then some msg else m.message? id := by
    intro id
    rw [hstate]
    exact message?_holding m msg id
  refine ⟨?_, hactive, ?_, ?_, ?_, ?_⟩
  · rw [hstate]
    exact ⟨rfl, rfl, rfl⟩
  · intro hash
    rw [hstate]
    exact byHash?_insert m msg hash
  · intro id hid
    apply effective?_congr
    rw [hactive, if_neg hid]
  · rw [hstate, process_puts, if_pos h]
    rcases m.store.written_cases msg with ⟨hwork, hwritten⟩ | ⟨e, hfault, hsame⟩
    · rw [hwork]
      exact .inr ⟨hwritten, rfl⟩
    · rw [hfault]
      exact .inl ⟨hsame, rfl⟩
  · rw [hstate, process_outward_of_takes h, react_outward_eq]
    rcases m.react_cases w msg with ⟨hcalls, hgovernor⟩ | ⟨n, hid, -, -, -, hcalls, hgovernor⟩
    · rw [hcalls]
      exact .inl ⟨rfl, hgovernor⟩
    · rw [hcalls]
      exact .inr ⟨n, hid, rfl, hgovernor⟩

theorem process_of_takes {m : Manager} {msg : Message} (h : m.takes msg = true) (w : World)
    (peer : PeerId) :
    (m.process w peer msg).reply = .new ∨ (m.process w peer msg).reply = .updated := by
  have haccepted := process_reply_of_takes h w peer
  cases hreply : (m.process w peer msg).reply with
  | new => exact .inl rfl
  | updated => exact .inr rfl
  | seen | invalidSignature =>
    rw [hreply] at haccepted
    exact absurd haccepted Bool.false_ne_true

/-- In any state of a manager, for any peer and message: each outcome is met just when it is due,
and what was done is what the outcome names. The same message sent again, by whomever, is seen,
unless it was refused, and then it is refused again. -/
theorem process_as_named (m : Manager) (w : World) (peer : PeerId) (msg : Message) :
    let s := m.process w peer msg
    (∀ outcome, s.reply = outcome ↔ outcome.Due m msg) ∧
    m.Tells w peer msg s s.reply ∧
    ∀ w' peer', (s.state.process w' peer' msg).reply =
      if s.reply = .invalidSignature then .invalidSignature else .seen := by
  intro s
  refine ⟨m.process_reply_iff w peer msg, ?_⟩
  cases hstale : m.isStale msg with
  | true =>
    obtain ⟨hreply, hidle⟩ := process_of_stale hstale w peer
    rw [hreply, if_neg (by decide)]
    refine ⟨hidle, ?_⟩
    intro w' peer'
    rw [hidle.1]
    exact (process_of_stale hstale w' peer').1
  | false =>
    cases hv : msg.verifies m.authority with
    | false =>
      obtain ⟨hreply, hrefused⟩ := process_of_forged hstale hv w peer
      rw [hreply, if_pos rfl]
      refine ⟨hrefused, ?_⟩
      intro w' peer'
      rw [hrefused.1]
      exact (process_of_forged hstale hv w' peer').1
    | true =>
      have htakes : m.takes msg = true := by rw [takes, hstale, hv, Bool.not_false, Bool.and_self]
      have henacts := process_enacts htakes w peer
      have hagain : s.state.isStale msg = true :=
        isStale_iff.2 ⟨msg, (henacts.active msg.id).trans (if_pos rfl), Int64.le_refl _⟩
      rcases process_of_takes htakes w peer with hreply | hreply
      all_goals
        rw [hreply, if_neg (by decide)]
        exact ⟨henacts, fun w' peer' => (process_of_stale hagain w' peer').1⟩

end

end Manager

/-- The first message of a parameter is new, and a copy of it from anyone is not. -/
theorem process_as_named_open :
    let s := openManager.process openWorld ⟨1⟩ openMessage
    s.reply = .new ∧ openManager.Enacts openWorld openMessage s ∧
    ∀ w peer, (s.state.process w peer openMessage).reply = .seen := by
  obtain ⟨hdue, hnamed, hagain⟩ := openManager.process_as_named openWorld ⟨1⟩ openMessage
  have hnone : openManager.message? openMessage.id = none :=
    (Manager.authority_of_start start_open).2.2.2 openMessage.id
  have hverifies : openMessage.verifies openManager.authority = true :=
    (Manager.takes_iff.1 openManager_takes).2
  have hnew := (hdue .new).2 ⟨hnone, hverifies⟩
  rw [hnew] at hnamed hagain
  exact ⟨hnew, hnamed, hagain⟩

end SporkNode.Spork
