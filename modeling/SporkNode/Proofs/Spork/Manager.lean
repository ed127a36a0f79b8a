import SporkNode.Proofs.Results
import SporkNode.Spork.Manager

/-!
What each operation leaves behind, as a manager. A message that is taken goes into both maps and,
if the store lets it, into the store; an operation that takes none leaves the maps alone.
-/

namespace SporkNode.Spork

namespace Store

/-- The store after an attempt to write. -/
def written (s : Store) (msg : Message) : Store :=
  match s.write msg with
  | .ok s' => s'
  | .error _ => s

theorem written_eq (s : Store) (msg : Message) :
    s.written msg =
      match s.fault? with
      | none => { s with records := s.records.insert (keyOf msg.id) msg.encode }
      | some _ => s := by
  unfold written write put attempt
  cases s.fault? <;> rfl

theorem written_fault? {s : Store} (h : s.fault? = none) (msg : Message) :
    (s.written msg).fault? = none := by
  rw [written_eq, h]

theorem written_records {s : Store} (h : s.fault? = none) (msg : Message) :
    (s.written msg).records = s.records.insert (keyOf msg.id) msg.encode := by
  rw [written_eq, h]

theorem read_eq {s : Store} (h : s.fault? = none) (id : Int32) :
    s.read id =
      match s.records[keyOf id]? with
      | none => .ok none
      | some b =>
        match Message.decode b with
        | .ok msg => .ok (some msg)
        | .error e => .error (.corruption id e) := by
  unfold read get attempt
  rw [h]
  rfl

theorem working_of_read {s : Store} {id : Int32} {record? : Option Message}
    (h : s.read id = .ok record?) : s.fault? = none := by
  obtain ⟨b?, hget, -⟩ := bind_eq_ok.1 h
  unfold get attempt at hget
  cases hfault : s.fault? with
  | none => rfl
  | some e =>
    rw [hfault] at hget
    cases hget

theorem read_eq_some {s : Store} {id : Int32} {msg : Message} (h : s.read id = .ok (some msg)) :
    ∃ b, s.records[keyOf id]? = some b ∧ Message.decode b = .ok msg := by
  rw [read_eq (working_of_read h)] at h
  cases hb : s.records[keyOf id]? with
  | none =>
    rw [hb] at h
    cases h
  | some b =>
    rw [hb] at h
    cases hmsg : Message.decode b with
    | error e => simp [hmsg] at h
    | ok msg' =>
      simp only [hmsg, Except.ok.injEq, Option.some_inj] at h
      subst h
      exact ⟨b, rfl, hmsg⟩

end Store

namespace Manager

open Signature

theorem authority_of_start {settings : Settings} {limits : Limits} {store : Store} {m : Manager}
    (h : start settings limits store = .ok m) :
    Authority.ofSettings settings = .ok m.authority ∧ m.settings = settings ∧ m.store = store ∧
      ∀ id, m.message? id = none := by
  obtain ⟨a, ha, h⟩ := bind_eq_ok.1 h
  cases h
  refine ⟨ha, rfl, rfl, ?_⟩
  intro id
  simp [message?]

/-! ## What a manager tells of its messages -/

theorem value_of_message? {m : Manager} {id : Int32} {msg : Message}
    (h : m.message? id = some msg) : m.value id = msg.value := by
  simp only [value, effective?, h, Option.map_some, Option.some_or, Option.getD_some]

theorem value_congr {m m' : Manager} {id : Int32}
    (h : (m.message? id).map (·.value) = (m'.message? id).map (·.value)) :
    m.value id = m'.value id := by
  simp only [value, effective?, h]

/-- The network's parameters are read off the values in force for known numbers. -/
theorem networkParameters_congr {m m' : Manager}
    (h : ∀ p : Parameter, (m.message? p.id).map (·.value) = (m'.message? p.id).map (·.value)) :
    m.networkParameters = m'.networkParameters := by
  have hv : ∀ p, m.valueOf p = m'.valueOf p := by
    intro p
    rw [valueOf, valueOf, h]
  have hfix : (m.message? Parameter.fixHeight.id).map (·.value.toInt) =
      (m'.message? Parameter.fixHeight.id).map (·.value.toInt) := by
    have hid := congrArg (Option.map Int64.toInt) (h .fixHeight)
    rw [Option.map_map, Option.map_map] at hid
    exact hid
  unfold networkParameters
  simp only [hv]
  rw [hfix]

/-! ## Holding a message -/

theorem message?_insert (m : Manager) (msg : Message) (id : Int32) :
    (m.insert msg).message? id = if msg.id = id then some msg else m.message? id := by
  simp only [insert, message?, Std.TreeMap.getElem?_insert, Std.LawfulEqCmp.compare_eq_iff_eq]

theorem byHash?_insert (m : Manager) (msg : Message) (h : Hash) :
    (m.insert msg).byHash? h = if msg.hash = h then some msg else m.byHash? h := by
  simp only [insert, byHash?, Std.HashMap.getElem?_insert, beq_iff_eq]

/-- `m` with a message in force and an attempt to store it. -/
def holding (m : Manager) (msg : Message) : Manager :=
  { m.insert msg with store := m.store.written msg }

@[simp] theorem message?_holding (m : Manager) (msg : Message) (id : Int32) :
    (m.holding msg).message? id = if msg.id = id then some msg else m.message? id :=
  message?_insert m msg id

theorem persist_insert_state (m : Manager) (msg : Message) :
    ((m.insert msg).persist msg).state = m.holding msg := by
  have hs : (m.insert msg).store = m.store := rfl
  unfold persist holding Store.written
  rw [hs]
  cases m.store.write msg <;> rfl

theorem persist_reply (m : Manager) (msg : Message) :
    (m.persist msg).reply =
      match m.store.fault? with
      | none => .ok ()
      | some e => .error (.store e) := by
  unfold persist Store.write Store.put Store.attempt
  cases m.store.fault? <;> rfl

/-! ## Messages from peers -/

/-- Whether a message changes anything: it is fresh and it verifies. -/
def takes [Scheme] (m : Manager) (msg : Message) : Bool :=
  !m.isStale msg && msg.verifies m.authority

theorem isStale_iff {m : Manager} {msg : Message} :
    m.isStale msg = true ↔ ∃ held, m.message? msg.id = some held ∧ msg.time ≤ held.time := by
  unfold isStale
  rw [Option.any_eq_true]
  simp only [decide_eq_true_eq]

theorem takes_iff [Scheme] {m : Manager} {msg : Message} :
    m.takes msg = true ↔
      (∀ held, m.message? msg.id = some held → held.time < msg.time) ∧
        msg.verifies m.authority = true := by
  rw [takes, Bool.and_eq_true, Bool.not_eq_true', ← Bool.not_eq_true, isStale_iff]
  constructor
  · rintro ⟨hfresh, hv⟩
    refine ⟨?_, hv⟩
    intro held h
    exact Int64.not_le.1 fun hle => hfresh ⟨held, h, hle⟩
  · rintro ⟨hfresh, hv⟩
    refine ⟨?_, hv⟩
    rintro ⟨held, h, hle⟩
    exact Int64.not_le.2 (hfresh held h) hle

/-- The governor once a message has been reacted to. -/
def governorAfter (m : Manager) (w : World) (msg : Message) : Governor :=
  if msg.id = Parameter.reconsiderBlocks.id then
    (m.governor.request msg.value.toInt w.clock.now).1
  else m.governor

theorem react_state (m : Manager) (w : World) (msg : Message) :
    (m.react w msg).state = { m with governor := m.governorAfter w msg } := by
  unfold react governorAfter
  split <;> rfl

theorem accept_state (m : Manager) (w : World) (peer : PeerId) (msg : Message) :
    (m.accept w peer msg).state =
      { m.holding msg with governor := m.governorAfter w msg } := by
  have hr : ((m.insert msg).react w msg).state =
      { m.insert msg with governor := m.governorAfter w msg } := react_state _ w msg
  unfold accept
  dsimp only
  rw [hr]
  exact persist_insert_state { m with governor := m.governorAfter w msg } msg

theorem process_state [Scheme] (m : Manager) (w : World) (peer : PeerId) (msg : Message) :
    (m.process w peer msg).state =
      if m.takes msg then { m.holding msg with governor := m.governorAfter w msg } else m := by
  unfold process takes
  cases m.isStale msg with
  | true => rfl
  | false =>
    cases hv : msg.verifies m.authority with
    | true => exact accept_state m w peer msg
    | false => rfl

theorem process_message? [Scheme] (m : Manager) (w : World) (peer : PeerId) (msg : Message)
    (id : Int32) :
    (m.process w peer msg).state.message? id =
      if m.takes msg ∧ msg.id = id then some msg else m.message? id := by
  rw [process_state]
  cases m.takes msg with
  | true =>
    simp only [↓reduceIte, true_and]
    exact message?_holding m msg id
  | false => simp only [Bool.false_eq_true, ↓reduceIte, false_and]

theorem process_authority [Scheme] (m : Manager) (w : World) (peer : PeerId) (msg : Message) :
    (m.process w peer msg).state.authority = m.authority := by
  rw [process_state]
  split <;> rfl

/-! ## The node's own key -/

/-- The message that an update would put in force. -/
def signedUpdate [Scheme] (m : Manager) (w : World) (p : Parameter) (value : Int64) :
    Except SporkError Message :=
  match m.signer? with
  | none => .error .noSigningKey
  | some signer => (Message.unsigned p.id value (Int64.ofInt w.clock.adjusted)).sign signer

/-- An update signs first; only then does anything happen. -/
theorem update_eq [Scheme] (m : Manager) (w : World) (p : Parameter) (value : Int64) :
    m.update w p value =
      match m.signedUpdate w p value with
      | .error e => ⟨m, .error e, []⟩
      | .ok msg =>
        let persisted := (m.insert msg).persist msg
        ⟨persisted.state, persisted.reply.map fun _ => msg,
          [.relay ⟨.spork, msg.hash⟩,
           Effect.note .info "Updated spork"
            [("spork", .text p.name), ("value", .number value.toInt)]] ++ persisted.effects⟩ := by
  unfold update signedUpdate
  cases m.signer? <;> rfl

theorem update_state [Scheme] (m : Manager) (w : World) (p : Parameter) (value : Int64) :
    (m.update w p value).state =
      match m.signedUpdate w p value with
      | .error _ => m
      | .ok msg => m.holding msg := by
  rw [update_eq]
  split
  · rfl
  · exact persist_insert_state m _

/-- The caller of an update learns besides whether the message could be stored. -/
theorem update_reply [Scheme] (m : Manager) (w : World) (p : Parameter) (value : Int64) :
    (m.update w p value).reply =
      match m.signedUpdate w p value with
      | .error e => .error e
      | .ok msg =>
        match m.store.fault? with
        | none => .ok msg
        | some e => .error (.store e) := by
  rw [update_eq]
  cases m.signedUpdate w p value with
  | error e => rfl
  | ok msg =>
    dsimp only
    rw [persist_reply, show (m.insert msg).store = m.store from rfl]
    cases m.store.fault? <;> rfl

/-- The signer behind a secret's text, once it has signed something that verifies. -/
def provenSigner [Scheme] (m : Manager) (text : String) : Except SporkError Signer := do
  let signer ← Signer.ofText text m.settings
  let probe ← (Message.unsigned 0 0 0).sign signer
  if probe.verifies m.authority then return signer else throw (.invalidKey .notTheAuthority)

theorem setKey_eq [Scheme] (m : Manager) (text : String) :
    m.setKey text =
      match m.provenSigner text with
      | .error e => ⟨m, .error e, []⟩
      | .ok signer =>
        ⟨{ m with signer? := some signer }, .ok (),
          [Effect.note .info "Spork signing key installed" []]⟩ := rfl

theorem setKey_state [Scheme] (m : Manager) (text : String) :
    (m.setKey text).state =
      match m.provenSigner text with
      | .error _ => m
      | .ok signer => { m with signer? := some signer } := by
  rw [setKey_eq]
  split <;> rfl

/-! ## Loading -/

/-- `m` with what the store holds for one parameter. -/
def withRecord (m : Manager) (p : Parameter) : Manager :=
  match m.store.read p.id with
  | .ok (some msg) => m.insert msg
  | _ => m

theorem loadOne_state (s : Step Manager Nat) (p : Parameter) :
    (loadOne s p).state = s.state.withRecord p := by
  unfold loadOne withRecord
  cases s.state.store.read p.id with
  | error e => rfl
  | ok record => cases record <;> rfl

theorem load_state (m : Manager) : m.load.state = Parameter.all.foldl withRecord m := by
  unfold load
  exact (List.foldl_hom Step.state fun s p => (loadOne_state s p).symm).symm

end Manager

end SporkNode.Spork
