import SporkNode.Proofs.Spork.Records

/-!
Records out of place. A record tells by itself of which number it is, and neither reading nor
loading compares that with its key: under a foreign key it is read all the same, and comes into
force for the number inside. A record is in its place if it begins with its key, as those do that a
manager writes; what is in force after loading goes by the keys just when they all are.
-/

namespace SporkNode.Spork

open Signature

theorem Message.keyOf_prefix_encode_iff {msg : Message} {id : Int32} :
    Store.keyOf id <+: msg.encode ↔ msg.id = id := by
  have hencode : ∃ rest, msg.encode = Store.keyOf msg.id ++ rest := by
    rw [encode, identity, Wire.encodeAll, List.flatMap_cons, List.append_assoc]
    exact ⟨_, rfl⟩
  obtain ⟨rest, hencode⟩ := hencode
  rw [hencode]
  constructor
  · rintro ⟨rest', h⟩
    exact (Store.keyOf_injective (List.append_inj h rfl).1).symm
  · rintro rfl
    exact List.prefix_append _ _

/-- The place of a record can be seen from how it begins. -/
theorem Message.id_eq_iff_of_decode {b : Bytes} {msg : Message} (h : decode b = .ok msg)
    {id : Int32} : msg.id = id ↔ Store.keyOf id <+: b := by
  obtain ⟨-, rfl⟩ := decode_eq_ok_iff.1 h
  exact keyOf_prefix_encode_iff.symm

namespace Store

theorem recorded_eq_some {s : Store} {p : Parameter} {msg : Message} :
    s.recorded p = some msg ↔ s.read p.id = .ok (some msg) := by
  unfold recorded
  cases s.read p.id <;> simp

/-- Each record that can be read is of the number that it is kept under. -/
def Own (s : Store) : Prop :=
  ∀ id b msg, s.records[keyOf id]? = some b → Message.decode b = .ok msg → msg.id = id

namespace Own

variable {s : Store} (hs : s.Own)
include hs

theorem read {id : Int32} {msg : Message} (h : s.read id = .ok (some msg)) : msg.id = id := by
  obtain ⟨b, hb, hmsg⟩ := read_eq_some h
  exact hs id b msg hb hmsg

theorem placed : s.Placed := fun _ _ h => hs.read (recorded_eq_some.1 h)

theorem written (msg : Message) : (s.written msg).Own := by
  rw [written_eq]
  split
  · intro id b held hb hheld
    rw [Std.HashMap.getElem?_insert] at hb
    split at hb
    · rename_i hkey
      cases hb
      rw [Message.id_eq_iff_of_decode hheld, ← beq_iff_eq.1 hkey]
      exact Message.keyOf_prefix_encode_iff.2 rfl
    · exact hs id b held hb hheld
  · exact hs

end Own

end Store

namespace Manager

/-! ## What is written -/

theorem own_next {m m' : Manager} {op : Operation} (hm : m.store.Own) (h : m.Next op m') :
    m'.store.Own := by
  cases h with
  | kept => exact hm
  | held msg => exact hm.written msg
  | loaded =>
    rw [load_store]
    exact hm
  | restarted hstart =>
    obtain ⟨-, -, hstore, -⟩ := authority_of_start hstart
    rw [load_store, hstore]
    exact hm
  | outage => exact hm

theorem own_run [Scheme] {m : Manager} (hm : m.store.Own) (ops : List Operation) :
    (m.run ops).store.Own :=
  run_invariant (P := fun m => m.store.Own) (fun m op hm => own_next hm (m.next_perform op)) hm ops

/-! ## What is loaded -/

theorem load_lastOf {m : Manager} (hnone : ∀ id, m.message? id = none) (id : Int32) :
    m.load.state.message? id = Store.lastOf (Parameter.all.filterMap m.store.recorded) id := by
  rw [load_message?_eq, hnone, Option.or_none]

theorem length_messages {m : Manager} (hm : m.Filed) {msgs : List Message}
    (h : ∀ id, m.message? id = Store.lastOf msgs id) :
    m.messages.length = (msgs.map (·.id)).toFinset.card := by
  have hnodup : (m.messages.map (·.id)).Nodup :=
    (messages_ascending hm).imp fun hlt heq => Int32.ne_of_lt hlt heq
  have hids : (m.messages.map (·.id)).toFinset = (msgs.map (·.id)).toFinset := by
    ext id
    simp only [List.mem_toFinset, List.mem_map, mem_messages hm]
    rw [← Store.lastOf_isSome_iff, ← h, Option.isSome_iff_exists]
    constructor
    · rintro ⟨msg, hmsg, rfl⟩
      exact ⟨msg, hmsg⟩
    · rintro ⟨msg, hmsg⟩
      obtain rfl := hm id msg hmsg
      exact ⟨msg, hmsg, rfl⟩
  rw [← hids, List.toFinset_card_of_nodup hnodup, List.length_map]

/-- Loading goes by the keys only if all records are in place: otherwise one is in force for its
inner number, for which nothing may be on record. -/
theorem load_by_key_iff_placed {m : Manager} (hm : m.Filed) (hnone : ∀ id, m.message? id = none) :
    (∀ id, m.load.state.message? id = (Parameter.ofId? id).bind m.store.recorded) ↔
      m.store.Placed := by
  constructor
  · intro h p msg hmsg
    apply hm.load p.id msg
    rw [h, Parameter.ofId?_id]
    exact hmsg
  · intro hplaced id
    rw [load_message? hplaced, hnone, Option.or_none]

/-- What a new manager takes over from its store, whatever is in it. What is read for a number is
of that number just if the record begins with its key. Of the readable records of known parameters
each comes into force for the number inside, the last one of a number prevails, and the answer
counts the records, not the numbers. So what is in force is, for each known parameter, what is on
record for it, if and only if these records are in place, and then as many are in force as the
answer says. Managers put all records in place, in whatever they do. -/
theorem load_by_inner_id {settings : Settings} {limits : Limits} {store : Store}
    {fresh : Manager} (h : start settings limits store = .ok fresh) :
    let loaded := fresh.load
    let records := Parameter.all.filterMap store.recorded
    (∀ id msg, store.read id = .ok (some msg) →
      ∃ b, store.records[Store.keyOf id]? = some b ∧ (msg.id = id ↔ Store.keyOf id <+: b)) ∧
    (∀ id, loaded.state.message? id = Store.lastOf records id) ∧
    loaded.reply = records.length ∧
    loaded.state.messages.length = (records.map (·.id)).toFinset.card ∧
    ((∀ id, loaded.state.message? id = (Parameter.ofId? id).bind store.recorded) ↔
      store.Placed) ∧
    (store.Placed → loaded.reply = loaded.state.messages.length) ∧
    ∀ [Scheme] (ops : List Operation), store.Own →
      let after := (fresh.run ops).store
      after.Placed ∧ ∀ id msg, after.read id = .ok (some msg) → msg.id = id := by
  intro loaded records
  obtain ⟨-, -, hstore, hnone⟩ := authority_of_start h
  subst hstore
  have hfiled : fresh.Filed := .of_start h
  refine ⟨?_, load_lastOf hnone, load_reply fresh, length_messages hfiled.load (load_lastOf hnone),
    load_by_key_iff_placed hfiled hnone, ?_, ?_⟩
  · intro id msg hread
    obtain ⟨b, hb, hmsg⟩ := Store.read_eq_some hread
    exact ⟨b, hb, Message.id_eq_iff_of_decode hmsg⟩
  · intro hplaced
    rw [load_reply, load_messages hplaced hnone hfiled]
  · intro _ ops hown
    have hafter := own_run hown ops
    exact ⟨hafter.placed, fun _ _ => hafter.read⟩

end Manager

/-! ## A record under a foreign key -/

def blockFilter : Message := .unsigned Parameter.instantSendBlockFiltering.id 1 5

/-- Of the same number, and newer. -/
def strayFilter : Message := .unsigned Parameter.instantSendBlockFiltering.id 2 6

/-- The older message is in its place, the newer one under the number of another parameter. -/
def strayStore : Store where
  records := (∅ : Std.HashMap Bytes Bytes).insert (Store.keyOf blockFilter.id) blockFilter.encode
    |>.insert (Store.keyOf Parameter.instantSendMaxValue.id) strayFilter.encode
  fault? := none

theorem strayStore_read (id : Int32) :
    strayStore.read id =
      if Parameter.instantSendMaxValue.id = id then .ok (some strayFilter)
      else if blockFilter.id = id then .ok (some blockFilter)
      else .ok none := by
  have hkey : ∀ id', (Store.keyOf id' == Store.keyOf id) = decide (id' = id) := fun id' => by
    rw [Bool.eq_iff_iff, beq_iff_eq, decide_eq_true_eq]
    exact ⟨Store.keyOf_injective, congrArg Store.keyOf⟩
  have hstray : Message.decode strayFilter.encode = .ok strayFilter :=
    Message.decode_encode (Nat.zero_le _)
  have hfilter : Message.decode blockFilter.encode = .ok blockFilter :=
    Message.decode_encode (Nat.zero_le _)
  rw [Store.read_eq rfl, strayStore]
  simp only [Std.HashMap.getElem?_insert, hkey, decide_eq_true_eq]
  by_cases hmax : Parameter.instantSendMaxValue.id = id
  · simp [hmax, hstray]
  · by_cases hid : blockFilter.id = id
    · simp [hmax, hid, hfilter]
    · simp [hmax, hid]

theorem strayStore_recorded :
    Parameter.all.filterMap strayStore.recorded = [blockFilter, strayFilter] := by
  have hrecorded : strayStore.recorded = fun p =>
      if Parameter.instantSendMaxValue.id = p.id then some strayFilter
      else if blockFilter.id = p.id then some blockFilter
      else none := by
    funext p
    rw [Store.recorded, strayStore_read]
    by_cases hmax : Parameter.instantSendMaxValue.id = p.id
    · simp [hmax]
    · by_cases hid : blockFilter.id = p.id <;> simp [hmax, hid]
  rw [hrecorded]
  rfl

def strayManager : Manager := { openManager with store := strayStore }

theorem start_stray : Manager.start openSettings .default strayStore = .ok strayManager := by
  unfold Manager.start
  rw [ofSettings_open]
  rfl

/-- For the number of the key a message of another number is read and none is in force; for the
number inside, what is on record gives way to it. Two are counted as loaded where one is. -/
theorem strayManager_load :
    let loaded := strayManager.load
    let key := Parameter.instantSendMaxValue.id
    let inner := Parameter.instantSendBlockFiltering.id
    Manager.start openSettings .default strayStore = .ok strayManager ∧
    strayStore.read key = .ok (some strayFilter) ∧ strayFilter.id = inner ∧ inner ≠ key ∧
      strayStore.read inner = .ok (some blockFilter) ∧ strayFilter ≠ blockFilter ∧
      loaded.state.message? key = none ∧ loaded.state.message? inner = some strayFilter ∧
      loaded.reply = 2 ∧ loaded.state.messages.length = 1 := by
  have hnone : ∀ id, strayManager.message? id = none := fun id => rfl
  have hfiled : strayManager.Filed := .of_start start_stray
  have hlast : ∀ id, strayManager.load.state.message? id =
      Store.lastOf [blockFilter, strayFilter] id := fun id => by
    rw [Manager.load_lastOf hnone, ← strayStore_recorded]
    rfl
  refine ⟨start_stray, ?_, rfl, by decide, ?_, by decide, ?_, ?_, ?_, ?_⟩
  · rw [strayStore_read, if_pos rfl]
  · rw [strayStore_read]
    rfl
  · rw [hlast]
    rfl
  · rw [hlast]
    rfl
  · rw [Manager.load_reply]
    exact congrArg List.length strayStore_recorded
  · rw [Manager.length_messages hfiled.load hlast]
    rfl

/-- The stray record does not begin with its key, and is counted. -/
theorem load_by_inner_id_stray :
    Manager.start openSettings .default strayStore = .ok strayManager ∧
    (∃ b, strayStore.records[Store.keyOf Parameter.instantSendMaxValue.id]? = some b ∧
      ¬ Store.keyOf Parameter.instantSendMaxValue.id <+: b) ∧
    strayManager.load.reply = 2 := by
  obtain ⟨hread, -, hreply, -⟩ := Manager.load_by_inner_id start_stray
  have hstray : strayStore.read Parameter.instantSendMaxValue.id = .ok (some strayFilter) := by
    rw [strayStore_read, if_pos rfl]
  obtain ⟨b, hb, hplace⟩ := hread _ _ hstray
  refine ⟨start_stray, ⟨b, hb, ?_⟩, ?_⟩
  · rw [← hplace]
    decide
  · rw [hreply, strayStore_recorded]
    rfl

end SporkNode.Spork
