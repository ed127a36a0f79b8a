import SporkNode.Proofs.Spork.Operation

/-!
What is in force, as a list. Each message is filed under its own number, so the list of all of
them has every number that is set exactly once, and in order.
-/

namespace SporkNode.Spork

open Signature

namespace Manager

/-- Each message in force is filed under its own number. -/
def Filed (m : Manager) : Prop := ∀ id msg, m.message? id = some msg → msg.id = id

namespace Filed

variable {m : Manager}

theorem of_start {settings : Settings} {limits : Limits} {store : Store}
    (h : start settings limits store = .ok m) : m.Filed := by
  obtain ⟨a, -, h⟩ := bind_eq_ok.1 h
  cases h
  intro id msg h
  simp [message?] at h

theorem lasting : Lasting Filed where
  of_maps := by
    intro m m' hm hactive _ id msg h
    apply hm id msg
    rw [message?, ← hactive]
    exact h
  insert := by
    intro m msg hm id held h
    rw [message?_insert] at h
    split at h
    · cases h
      assumption
    · exact hm id held h

theorem load (hm : m.Filed) : m.load.state.Filed := lasting.load hm

theorem next (hm : m.Filed) {op : Operation} {m' : Manager} (h : m.Next op m') : m'.Filed :=
  lasting.next hm h fun _ _ _ hfresh => of_start hfresh

theorem run [Scheme] (hm : m.Filed) (ops : List Operation) : (m.run ops).Filed :=
  lasting.run_of_start of_start hm ops

end Filed

/-! ## The list -/

variable {m : Manager}

theorem messages_eq (m : Manager) : m.messages = m.active.toList.map Prod.snd := by
  show m.active.foldr (fun _ msg rest => msg :: rest) [] = _
  rw [Std.TreeMap.foldr_eq_foldr_toList, List.foldr_cons_eq_append, List.append_nil]

theorem mem_messages (hm : m.Filed) {msg : Message} :
    msg ∈ m.messages ↔ m.message? msg.id = some msg := by
  rw [messages_eq, List.mem_map]
  constructor
  · rintro ⟨⟨id, held⟩, hmem, rfl⟩
    have hheld := Std.TreeMap.mem_toList_iff_getElem?_eq_some.1 hmem
    rw [hm id held hheld]
    exact hheld
  · intro h
    exact ⟨(msg.id, msg), Std.TreeMap.mem_toList_iff_getElem?_eq_some.2 h, rfl⟩

theorem messages_ascending (hm : m.Filed) : (m.messages.map (·.id)).Pairwise (· < ·) := by
  have hkeys : m.messages.map (·.id) = m.active.keys := by
    rw [messages_eq, List.map_map, ← Std.TreeMap.map_fst_toList_eq_keys]
    apply List.map_congr_left
    rintro ⟨id, msg⟩ hmem
    exact hm id msg (Std.TreeMap.mem_toList_iff_getElem?_eq_some.1 hmem)
  rw [hkeys]
  exact Std.TreeMap.ordered_keys.imp Std.compare_eq_lt.1

/-- A list in order of number is told by its members. -/
theorem ascending_ext {msgs msgs' : List Message} (h : (msgs.map (·.id)).Pairwise (· < ·))
    (h' : (msgs'.map (·.id)).Pairwise (· < ·)) (hmem : ∀ msg, msg ∈ msgs ↔ msg ∈ msgs') :
    msgs = msgs' := by
  rw [List.pairwise_map] at h h'
  have hne : ∀ {a b : Message}, a.id < b.id → a ≠ b := by
    rintro a _ hlt rfl
    exact Int32.lt_irrefl hlt
  have hperm : msgs.Perm msgs' :=
    (List.perm_ext_iff_of_nodup (h.imp hne) (h'.imp hne)).2 hmem
  apply hperm.eq_of_pairwise _ h h'
  intro a b _ _ hab hba
  exact absurd (Int32.lt_trans hab hba) Int32.lt_irrefl

/-- Managers that answer alike hold the same map. -/
theorem active_toList_congr {m m' : Manager} (h : ∀ id, m.message? id = m'.message? id) :
    m.active.toList = m'.active.toList :=
  (Std.TreeMap.Equiv.of_forall_constGet?_eq h).toList_eq

end Manager

end SporkNode.Spork
