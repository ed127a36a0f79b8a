import Mathlib.Data.Finset.Card
import SporkNode.Proofs.Spork.Encoding
import SporkNode.Proofs.Spork.Loading

/-!
The store as a map. Under a number there is a message, or the reason that none can be read, and
whatever a working store is asked, in whatever order, it answers as that map would. Keys and wire
forms do not show.
-/

namespace SporkNode.Spork

open Wire

namespace Store

/-- What a store can be asked. -/
inductive Request
  | write (msg : Message)
  | read (id : Int32)
  | has (id : Int32)
  | flush

inductive Answer
  | done (result : Except StoreError Unit)
  | record (result : Except StoreError (Option Message))
  | found (result : Except StoreError Bool)

def Request.message? : Request → Option Message
  | write msg => some msg
  | _ => none

def serve (s : Store) : Request → Store × Answer
  | .write msg => (s.written msg, .done ((s.write msg).map fun _ => ()))
  | .read id => (s, .record (s.read id))
  | .has id => (s, .found (s.exists? id))
  | .flush => (s, .done s.flush)

/-- Requests in turn: the state that they leave and the answers to them. -/
def inTurn {σ : Type} (serve : σ → Request → σ × Answer) (s : σ) :
    List Request → σ × List Answer
  | [] => (s, [])
  | r :: rs =>
    let one := serve s r
    let rest := inTurn serve one.1 rs
    (rest.1, one.2 :: rest.2)

/-! ## The map -/

/-- A message for a number, or what is wrong with its record. -/
abbrev Contents := Int32 → Option (Except WireError Message)

namespace Contents

def read (c : Contents) (id : Int32) : Except StoreError (Option Message) :=
  match c id with
  | none => .ok none
  | some (.ok msg) => .ok (some msg)
  | some (.error e) => .error (.corruption id e)

def serve (c : Contents) : Request → Contents × Answer
  | .write msg => (Function.update c msg.id (some (.ok msg)), .done (.ok ()))
  | .read id => (c, .record (c.read id))
  | .has id => (c, .found (.ok (c id).isSome))
  | .flush => (c, .done (.ok ()))

end Contents

def contents (s : Store) : Contents := fun id => s.records[keyOf id]?.map Message.decode

/-! ## One request -/

section

variable {s : Store} (hs : s.fault? = none)
include hs

theorem attempt_eq {α : Type} (result : α) : s.attempt result = .ok result := by
  unfold attempt
  rw [hs]

theorem read_eq_contents (id : Int32) : s.read id = s.contents.read id := by
  rw [read_eq hs]
  unfold Contents.read contents
  cases s.records[keyOf id]? with
  | none => rfl
  | some b =>
    simp only [Option.map_some]
    cases Message.decode b <;> rfl

theorem exists?_eq (id : Int32) : s.exists? id = .ok (s.records.contains (keyOf id)) :=
  attempt_eq hs _

theorem mem_written_iff (msg : Message) (id : Int32) :
    keyOf id ∈ (s.written msg).records ↔ msg.id = id ∨ keyOf id ∈ s.records := by
  rw [written_records hs, Std.HashMap.mem_insert, beq_iff_eq]
  exact or_congr_left ⟨keyOf_injective, congrArg keyOf⟩

theorem contents_written {msg : Message} (hmsg : msg.signature.length ≤ maxSize) :
    (s.written msg).contents = Function.update s.contents msg.id (some (.ok msg)) := by
  funext id
  rw [contents, written_records hs, Std.HashMap.getElem?_insert]
  by_cases hid : id = msg.id
  · subst hid
    simp [Message.decode_encode hmsg]
  · have hkey : ¬ keyOf msg.id = keyOf id := fun h => hid (keyOf_injective h).symm
    simp [hid, hkey, contents]

theorem serve_fault? (r : Request) : (s.serve r).1.fault? = none := by
  cases r with
  | write msg => exact written_fault? hs msg
  | _ => exact hs

theorem serve_contents {r : Request}
    (hr : ∀ msg, r.message? = some msg → msg.signature.length ≤ maxSize) :
    ((s.serve r).1.contents, (s.serve r).2) = s.contents.serve r := by
  cases r with
  | write msg =>
    simp only [serve, Contents.serve, contents_written hs (hr msg rfl), write, put,
      attempt_eq hs, Except.map]
  | read id => simp only [serve, Contents.serve, read_eq_contents hs]
  | has id => simp [serve, Contents.serve, exists?_eq hs, contents]
  | flush => simp only [serve, Contents.serve, flush, attempt_eq hs]

end

/-! ## Requests in turn -/

theorem inTurn_state (s : Store) (rs : List Request) :
    (inTurn serve s rs).1 = (rs.filterMap Request.message?).foldl written s := by
  induction rs generalizing s with
  | nil => rfl
  | cons r rs ih =>
    rw [inTurn, ih]
    cases r <;> rfl

theorem inTurn_contents {s : Store} (hs : s.fault? = none) {rs : List Request}
    (hrs : ∀ msg ∈ rs.filterMap Request.message?, msg.signature.length ≤ maxSize) :
    ((inTurn serve s rs).1.contents, (inTurn serve s rs).2) =
      inTurn Contents.serve s.contents rs := by
  induction rs generalizing s with
  | nil => rfl
  | cons r rs ih =>
    have hone := serve_contents hs (r := r) fun msg hmsg =>
      hrs msg (List.mem_filterMap.2 ⟨r, List.mem_cons_self, hmsg⟩)
    have hrest := ih (serve_fault? hs r) fun msg hmsg => by
      obtain ⟨r', hr', hmsg⟩ := List.mem_filterMap.1 hmsg
      exact hrs msg (List.mem_filterMap.2 ⟨r', List.mem_cons_of_mem r hr', hmsg⟩)
    simp only [inTurn, ← hone, ← hrest]

section

variable {s : Store} (hs : s.fault? = none) (msgs : List Message)
include hs

theorem contents_foldl (hmsgs : ∀ msg ∈ msgs, msg.signature.length ≤ maxSize) (id : Int32) :
    (msgs.foldl written s).contents id = ((lastOf msgs id).map .ok).or (s.contents id) := by
  induction msgs generalizing s with
  | nil => rfl
  | cons msg msgs ih =>
    obtain ⟨hmsg, hmsgs⟩ := List.forall_mem_cons.1 hmsgs
    rw [List.foldl_cons, ih (written_fault? hs msg) hmsgs, contents_written hs hmsg, lastOf_cons]
    cases lastOf msgs id with
    | some last => rfl
    | none =>
      by_cases hid : msg.id = id
      · subst hid
        simp
      · simp [hid, Ne.symm hid]

theorem foldl_fault? : (msgs.foldl written s).fault? = none := by
  induction msgs generalizing s with
  | nil => exact hs
  | cons msg msgs ih => exact ih (written_fault? hs msg)

theorem mem_foldl_iff (id : Int32) :
    keyOf id ∈ (msgs.foldl written s).records ↔
      (∃ msg ∈ msgs, msg.id = id) ∨ keyOf id ∈ s.records := by
  induction msgs generalizing s with
  | nil => simp
  | cons msg msgs ih =>
    rw [List.foldl_cons, ih (written_fault? hs msg), mem_written_iff hs, or_left_comm]
    simp only [List.mem_cons, exists_eq_or_imp, or_assoc]

theorem foldl_getElem? {key : Bytes} (hkey : ∀ msg ∈ msgs, keyOf msg.id ≠ key) :
    (msgs.foldl written s).records[key]? = s.records[key]? := by
  induction msgs generalizing s with
  | nil => rfl
  | cons msg msgs ih =>
    obtain ⟨hmsg, hmsgs⟩ := List.forall_mem_cons.1 hkey
    rw [List.foldl_cons, ih (written_fault? hs msg) hmsgs, written_records hs,
      Std.HashMap.getElem?_insert, if_neg (by simpa using hmsg)]

/-- A number that is written for the first time takes one more key, any other takes none. -/
theorem size_foldl :
    (msgs.foldl written s).records.size =
      s.records.size + ((msgs.map (·.id)).toFinset.filter (keyOf · ∉ s.records)).card := by
  induction msgs generalizing s with
  | nil => rfl
  | cons msg msgs ih =>
    -- for the messages after it, the number of the first one is not new any more
    have hrest : (msgs.map (·.id)).toFinset.filter (keyOf · ∉ (s.written msg).records) =
        ((msgs.map (·.id)).toFinset.filter (keyOf · ∉ s.records)).erase msg.id := by
      ext id
      simp only [Finset.mem_filter, Finset.mem_erase, mem_written_iff hs, not_or]
      tauto
    rw [List.foldl_cons, ih (written_fault? hs msg), hrest, written_records hs,
      Std.HashMap.size_insert, List.map_cons, List.toFinset_cons, Finset.filter_insert]
    by_cases hmem : keyOf msg.id ∈ s.records
    · rw [if_pos hmem, if_neg (not_not_intro hmem), Finset.erase_eq_of_notMem]
      simp [hmem]
    · rw [if_neg hmem, if_pos hmem, ← Finset.card_erase_add_one (Finset.mem_insert_self _ _),
        Finset.erase_insert_eq_erase]
      omega

end

/-- As long as a store works, it answers whatever it is asked in turn as a map from numbers to
messages does, whatever was in it at first. A number is read as what was last written for it, or
else as what its first record holds; it is found if it had a record or was written; writing leaves
all other keys as they are, and each number that had no record takes one more. -/
theorem serves_as_map {s : Store} (hs : s.fault? = none) {rs : List Request}
    (hrs : ∀ msg, .write msg ∈ rs → msg.signature.length ≤ maxSize) :
    let served := inTurn serve s rs
    let msgs := rs.filterMap Request.message?
    (served.1.contents, served.2) = inTurn Contents.serve s.contents rs ∧
    (∀ id, served.1.read id =
      match lastOf msgs id with
      | some msg => .ok (some msg)
      | none => s.contents.read id) ∧
    (∀ id, served.1.exists? id =
      .ok (msgs.any (·.id = id) || s.records.contains (keyOf id))) ∧
    (∀ key, (∀ msg ∈ msgs, keyOf msg.id ≠ key) → served.1.records[key]? = s.records[key]?) ∧
    served.1.records.size =
      s.records.size + ((msgs.map (·.id)).toFinset.filter (keyOf · ∉ s.records)).card := by
  intro served msgs
  have hmsgs : ∀ msg ∈ msgs, msg.signature.length ≤ maxSize := by
    intro msg hmsg
    obtain ⟨r, hr, hmsg⟩ := List.mem_filterMap.1 hmsg
    cases r with
    | write written =>
      cases hmsg
      exact hrs msg hr
    | _ => cases hmsg
  have hstate : served.1 = msgs.foldl written s := inTurn_state s rs
  have hwork : served.1.fault? = none := hstate ▸ foldl_fault? hs msgs
  refine ⟨inTurn_contents hs hmsgs, ?_, ?_, ?_, ?_⟩
  · intro id
    rw [read_eq_contents hwork, Contents.read, Contents.read, hstate,
      contents_foldl hs msgs hmsgs]
    cases lastOf msgs id <;> rfl
  · intro id
    rw [exists?_eq hwork, hstate]
    congr 1
    rw [Bool.eq_iff_iff, Std.HashMap.contains_iff_mem, mem_foldl_iff hs]
    simp
  · intro key hkey
    rw [hstate]
    exact foldl_getElem? hs msgs hkey
  · rw [hstate]
    exact size_foldl hs msgs

/-- A number below zero, written twice, and one whose record is of no use. -/
theorem serves_as_map_negative :
    let s : Store := ⟨(∅ : Std.HashMap Bytes Bytes).insert (keyOf 10001) [1, 2, 3], none⟩
    let first := Message.unsigned (-1) 7 8
    let second := Message.unsigned (-1) 9 10
    let rs := [Request.write first, .has 3, .write second, .read 10001]
    s.fault? = none ∧ (∀ msg, .write msg ∈ rs → msg.signature.length ≤ maxSize) ∧
    let served := (inTurn serve s rs).1
    served.read (-1) = .ok (some second) ∧
      served.read 10001 = .error (.corruption 10001 (.unexpectedEnd 4 3)) ∧
      served.exists? 3 = .ok false ∧ served.records.size = 2 := by
  intro s first second rs
  have hrs : ∀ msg, .write msg ∈ rs → msg.signature.length ≤ maxSize := by
    intro msg hmsg
    simp only [rs, List.mem_cons, Request.write.injEq, reduceCtorEq, List.not_mem_nil,
      or_false, false_or] at hmsg
    obtain rfl | rfl := hmsg <;> decide
  obtain ⟨-, hread, hhas, -, hsize⟩ := serves_as_map (s := s) rfl hrs
  refine ⟨rfl, hrs, ?_, ?_, ?_, ?_⟩
  · exact hread (-1)
  · rw [hread]
    show s.contents.read 10001 = _
    simp [Contents.read, contents, s]
    rfl
  · rw [hhas, Std.HashMap.contains_insert, Std.HashMap.contains_empty]
    decide
  · have hnew : keyOf (-1) ∉ s.records := by
      rw [Std.HashMap.mem_insert, not_or]
      exact ⟨by decide, Std.HashMap.not_mem_empty⟩
    rw [hsize, Std.HashMap.size_insert, if_neg Std.HashMap.not_mem_empty]
    show 1 + (({-1, -1} : Finset Int32).filter (keyOf · ∉ s.records)).card = 2
    simp [Finset.filter_singleton, hnew]

end Store

end SporkNode.Spork
