import SporkNode.Proofs.Spork.Listing

/-!
What a manager takes over from its store: for each known parameter the message on record, if one
can be read. The store itself is left as it is, and nobody hears of it.
-/

namespace SporkNode.Spork

namespace Parameter

@[simp] theorem ofId?_id (p : Parameter) : ofId? p.id = some p := by cases p <;> rfl

theorem ofId?_eq_some_iff {id : Int32} {p : Parameter} : ofId? id = some p ↔ p.id = id := by
  constructor
  · intro h
    have hid := List.find?_some h
    exact of_decide_eq_true hid
  · rintro rfl
    exact ofId?_id p

theorem mem_all (p : Parameter) : p ∈ all := by cases p <;> decide

theorem ids_ascending : all.Pairwise (·.id < ·.id) := by decide

end Parameter

namespace Store

theorem keyOf_injective {id id' : Int32} (h : keyOf id = keyOf id') : id = id' :=
  Wire.Parse.reads_i32.injective trivial trivial h

/-- What was written is read under its number, and what other numbers have is left. -/
theorem read_written {s : Store} (hs : s.fault? = none) {msg : Message}
    (hmsg : Message.decode msg.encode = .ok msg) (id : Int32) :
    (s.written msg).read id = if msg.id = id then .ok (some msg) else s.read id := by
  rw [read_eq (written_fault? hs msg), read_eq hs, written_records hs,
    Std.HashMap.getElem?_insert]
  by_cases hid : msg.id = id
  · subst hid
    simp [hmsg]
  · have hkey : ¬ keyOf msg.id = keyOf id := fun h => hid (keyOf_injective h)
    simp [hid, hkey]

/-- The message on record for a parameter. -/
def recorded (s : Store) (p : Parameter) : Option Message :=
  match s.read p.id with
  | .ok record? => record?
  | .error _ => none

/-- Each record is of the parameter that it is kept for. -/
def Placed (s : Store) : Prop := ∀ p msg, s.recorded p = some msg → msg.id = p.id

theorem recorded_ascending {s : Store} (hs : s.Placed) :
    ((Parameter.all.filterMap s.recorded).map (·.id)).Pairwise (· < ·) := by
  rw [List.pairwise_map, List.pairwise_filterMap]
  refine Parameter.ids_ascending.imp ?_
  intro p q hlt msg hmsg msg' hmsg'
  rw [hs p msg hmsg, hs q msg' hmsg']
  exact hlt

/-- The last message of a number. -/
def lastOf (msgs : List Message) (id : Int32) : Option Message :=
  msgs.reverse.find? (·.id = id)

theorem lastOf_cons (msg : Message) (msgs : List Message) (id : Int32) :
    lastOf (msg :: msgs) id = (lastOf msgs id).or (if msg.id = id then some msg else none) := by
  rw [lastOf, List.reverse_cons, List.find?_append]
  by_cases hid : msg.id = id <;> simp [lastOf, hid]

theorem lastOf_eq_some {msgs : List Message} {id : Int32} {msg : Message}
    (h : lastOf msgs id = some msg) : msg ∈ msgs ∧ msg.id = id :=
  ⟨List.mem_reverse.1 (List.mem_of_find?_eq_some h), by simpa using List.find?_some h⟩

theorem lastOf_isSome_iff {msgs : List Message} {id : Int32} :
    (lastOf msgs id).isSome ↔ ∃ msg ∈ msgs, msg.id = id := by
  simp [lastOf]

/-- Records in their places have a number each. -/
theorem lastOf_recorded {s : Store} (hs : s.Placed) (id : Int32) :
    lastOf (Parameter.all.filterMap s.recorded) id = (Parameter.ofId? id).bind s.recorded := by
  cases h : lastOf (Parameter.all.filterMap s.recorded) id with
  | some msg =>
    obtain ⟨hmem, rfl⟩ := lastOf_eq_some h
    obtain ⟨p, -, hp⟩ := List.mem_filterMap.1 hmem
    rw [hs p msg hp, Parameter.ofId?_id]
    exact hp.symm
  | none =>
    symm
    rw [Option.bind_eq_none_iff]
    intro p hid
    cases hp : s.recorded p with
    | none => rfl
    | some msg =>
      have hmem : ∃ msg ∈ Parameter.all.filterMap s.recorded, msg.id = id :=
        ⟨msg, List.mem_filterMap.2 ⟨p, p.mem_all, hp⟩,
          (hs p msg hp).trans (Parameter.ofId?_eq_some_iff.1 hid)⟩
      rw [← lastOf_isSome_iff, h] at hmem
      cases hmem

end Store

namespace Manager

theorem withRecord_eq (m : Manager) (p : Parameter) :
    m.withRecord p = match m.store.recorded p with
      | some msg => m.insert msg
      | none => m := by
  unfold withRecord Store.recorded
  cases m.store.read p.id with
  | error e => rfl
  | ok record? => cases record? <;> rfl

@[simp] theorem withRecord_store (m : Manager) (p : Parameter) :
    (m.withRecord p).store = m.store := by
  rw [withRecord_eq]
  split <;> rfl

/-! ## The maps -/

theorem foldl_withRecord_store (m : Manager) (ps : List Parameter) :
    (ps.foldl withRecord m).store = m.store := by
  induction ps generalizing m with
  | nil => rfl
  | cons p ps ih => rw [List.foldl_cons, ih, withRecord_store]

theorem foldl_withRecord_message? (m : Manager) (ps : List Parameter) (id : Int32) :
    (ps.foldl withRecord m).message? id =
      (Store.lastOf (ps.filterMap m.store.recorded) id).or (m.message? id) := by
  induction ps generalizing m with
  | nil => rfl
  | cons p ps ih =>
    rw [List.foldl_cons, ih, withRecord_store, List.filterMap_cons, withRecord_eq]
    cases m.store.recorded p with
    | none => rfl
    | some msg =>
      rw [message?_insert, Store.lastOf_cons, Option.or_assoc]
      split <;> rfl

@[simp] theorem load_store (m : Manager) : m.load.state.store = m.store := by
  rw [load_state, foldl_withRecord_store]

/-- A record comes into force for the number that it has inside, and the later ones prevail. -/
theorem load_message?_eq (m : Manager) (id : Int32) :
    m.load.state.message? id =
      (Store.lastOf (Parameter.all.filterMap m.store.recorded) id).or (m.message? id) := by
  rw [load_state, foldl_withRecord_message?]

theorem load_message? {m : Manager} (hs : m.store.Placed) (id : Int32) :
    m.load.state.message? id =
      ((Parameter.ofId? id).bind m.store.recorded).or (m.message? id) := by
  rw [load_message?_eq, Store.lastOf_recorded hs]

/-- A new manager has just what is on record, in order. -/
theorem load_messages {m : Manager} (hs : m.store.Placed) (hnone : ∀ id, m.message? id = none)
    (hm : m.Filed) : m.load.state.messages = Parameter.all.filterMap m.store.recorded := by
  apply ascending_ext (messages_ascending hm.load) (Store.recorded_ascending hs)
  intro msg
  rw [mem_messages hm.load, load_message? hs, hnone, Option.or_none, List.mem_filterMap]
  constructor
  · intro h
    obtain ⟨p, -, hp⟩ := Option.bind_eq_some_iff.1 h
    exact ⟨p, p.mem_all, hp⟩
  · rintro ⟨p, -, hp⟩
    rw [hs p msg hp, Parameter.ofId?_id]
    exact hp

/-! ## The answer and the effects -/

theorem loadOne_reply (s : Step Manager Nat) (p : Parameter) :
    (loadOne s p).reply = s.reply + (s.state.store.recorded p).toList.length := by
  unfold loadOne Store.recorded
  cases s.state.store.read p.id with
  | error e => rfl
  | ok record? => cases record? <;> rfl

theorem load_reply (m : Manager) :
    m.load.reply = (Parameter.all.filterMap m.store.recorded).length := by
  have hfold : ∀ (ps : List Parameter) (s : Step Manager Nat),
      (ps.foldl loadOne s).reply = s.reply + (ps.filterMap s.state.store.recorded).length := by
    intro ps
    induction ps with
    | nil => exact fun s => rfl
    | cons p ps ih =>
      intro s
      rw [List.foldl_cons, ih, loadOne_reply, loadOne_state, withRecord_store]
      cases h : s.state.store.recorded p with
      | none => simp [h]
      | some msg => simp [h]; omega
  unfold load
  rw [hfold, Nat.zero_add]

theorem loadOne_effects (s : Step Manager Nat) (p : Parameter) :
    ∃ entry, (loadOne s p).effects = s.effects ++ [.log entry] := by
  unfold loadOne
  cases s.state.store.read p.id with
  | error e => exact ⟨_, rfl⟩
  | ok record? => cases record? <;> exact ⟨_, rfl⟩

/-- Loading is noted in the log, and that is all. -/
theorem load_effects (m : Manager) : ∀ e ∈ m.load.effects, ∃ entry, e = .log entry := by
  have hfold : ∀ (ps : List Parameter) (s : Step Manager Nat),
      (∀ e ∈ s.effects, ∃ entry, e = .log entry) →
      ∀ e ∈ (ps.foldl loadOne s).effects, ∃ entry, e = .log entry := by
    intro ps
    induction ps with
    | nil => exact fun s h => h
    | cons p ps ih =>
      intro s h
      apply ih
      obtain ⟨entry, heq⟩ := loadOne_effects s p
      intro e he
      rw [heq] at he
      rcases List.mem_append.1 he with he | he
      · exact h e he
      · exact ⟨entry, List.mem_singleton.1 he⟩
  exact hfold Parameter.all _ fun e he => absurd he List.not_mem_nil

end Manager

end SporkNode.Spork
