import SporkNode.Proofs.Spork.Operation
import SporkNode.Proofs.Text.Decimal

/-!
What a signature binds. The signed text is three numerals run together and does not say where one
ends, so one text may be that of several messages, and a signature of one is a signature of all.
The text alone tells them apart where only one field differs, or where both numbers are of known
parameters and no digits have moved between the value and the time.
-/

namespace SporkNode.Spork

open Signature Text

namespace Message

/-- What a message says: all of it but the signature. -/
def content (m : Message) : Int32 × Int64 × Int64 := (m.id, m.value, m.time)

/-- Digits have moved from the end of the value to the front of the time. -/
def MovesTo (a b : Message) : Prop :=
  DigitsMove a.value.toInt a.time.toInt b.value.toInt b.time.toInt

theorem toList_signingText (m : Message) :
    m.signingText.toList =
      numeral m.id.toInt ++ (numeral m.value.toInt ++ numeral m.time.toInt) := by
  unfold signingText numeral
  rw [String.toList_append, String.toList_append, List.append_assoc]

theorem signingText_eq_iff {a b : Message} :
    b.signingText = a.signingText ↔
      numeral b.id.toInt ++ (numeral b.value.toInt ++ numeral b.time.toInt) =
        numeral a.id.toInt ++ (numeral a.value.toInt ++ numeral a.time.toInt) := by
  rw [← String.toList_inj, toList_signingText, toList_signingText]

theorem content_eq_iff {a b : Message} :
    b.content = a.content ↔ b.id = a.id ∧ b.value = a.value ∧ b.time = a.time := by
  simp only [content, Prod.mk.injEq]

end Message

/-! ## Reading a text back -/

section

variable {α : Type} {ofInt : Int → α} {toInt : α → Int}

/-- The number whose numeral `cs` is, among those of a type. -/
def readNumeral (ofInt : Int → α) (toInt : α → Int) (cs : List Char) : Option α :=
  let a := ofInt (ofNumeral cs)
  if numeral (toInt a) = cs then some a else none

theorem readNumeral_eq_some (h : ∀ a, ofInt (toInt a) = a) {cs : List Char} {a : α} :
    readNumeral ofInt toInt cs = some a ↔ numeral (toInt a) = cs := by
  unfold readNumeral
  constructor
  · intro hr
    dsimp only at hr
    split at hr
    · rename_i hcs
      cases hr
      exact hcs
    · cases hr
  · rintro rfl
    rw [ofNumeral_numeral, h, if_pos rfl]

end

/-- The message content of a text whose first numeral has `i` characters and whose second has
`j`. -/
def readAt (text : String) (i j : Nat) : Option (Int32 × Int64 × Int64) := do
  let cs := text.toList
  let id ← readNumeral Int32.ofInt Int32.toInt (cs.take i)
  let value ← readNumeral Int64.ofInt Int64.toInt ((cs.drop i).take j)
  let time ← readNumeral Int64.ofInt Int64.toInt ((cs.drop i).drop j)
  return (id, value, time)

/-- All that a signed text may be taken to say. -/
def readings (text : String) : List (Int32 × Int64 × Int64) :=
  let lengths := List.range (text.toList.length + 1)
  lengths.flatMap fun i => lengths.filterMap (readAt text i)

theorem readAt_eq_some {text : String} {i j : Nat} {id : Int32} {value time : Int64} :
    readAt text i j = some (id, value, time) ↔
      numeral id.toInt = text.toList.take i ∧
      numeral value.toInt = (text.toList.drop i).take j ∧
      numeral time.toInt = (text.toList.drop i).drop j := by
  unfold readAt
  simp only [Option.bind_eq_bind, Option.bind_eq_some_iff, Option.pure_def, Option.some.injEq,
    Prod.mk.injEq, readNumeral_eq_some Int32.ofInt_toInt, readNumeral_eq_some Int64.ofInt_toInt]
  constructor
  · rintro ⟨_, hid, _, hvalue, _, htime, rfl, rfl, rfl⟩
    exact ⟨hid, hvalue, htime⟩
  · rintro ⟨hid, hvalue, htime⟩
    exact ⟨id, hid, value, hvalue, time, htime, rfl, rfl, rfl⟩

theorem mem_readings {text : String} {m : Message} :
    m.content ∈ readings text ↔ m.signingText = text := by
  unfold readings
  simp only [List.mem_flatMap, List.mem_filterMap, List.mem_range]
  constructor
  · rintro ⟨i, -, j, -, h⟩
    obtain ⟨hid, hvalue, htime⟩ := readAt_eq_some.1 h
    rw [← String.toList_inj, Message.toList_signingText, hid, hvalue, htime,
      List.take_append_drop, List.take_append_drop]
  · rintro rfl
    have htext := m.toList_signingText
    have hlength := congrArg List.length htext
    simp only [List.length_append] at hlength
    refine ⟨(numeral m.id.toInt).length, by omega, (numeral m.value.toInt).length, by omega, ?_⟩
    apply readAt_eq_some.2
    rw [htext, List.take_left, List.drop_left, List.take_left, List.drop_left]
    exact ⟨rfl, rfl, rfl⟩

example : readings "1203" = [(1, 20, 3), (12, 0, 3)] := by decide +kernel

/-! ## When the text tells messages apart -/

/-- No known number's numeral is the beginning of another's. -/
theorem Parameter.numeral_ids_prefix_free {p q : Parameter}
    (h : numeral p.id.toInt <+: numeral q.id.toInt) : p = q := by
  revert h
  cases p <;> cases q <;> decide

namespace Message

variable {a b : Message}

/-- Messages for one parameter have one text just if digits have moved. -/
theorem signingText_eq_iff_moves (hid : b.id = a.id) :
    b.signingText = a.signingText ↔ b.content = a.content ∨ b.MovesTo a ∨ a.MovesTo b := by
  rw [signingText_eq_iff, hid, List.append_cancel_left_eq, numerals_eq_iff, content_eq_iff,
    Int64.toInt_inj, Int64.toInt_inj]
  simp only [hid, true_and, MovesTo]

theorem signingText_ne_of_one_change
    (h : (b.value = a.value ∧ b.time = a.time) ∨ (b.id = a.id ∧ b.time = a.time) ∨
      (b.id = a.id ∧ b.value = a.value))
    (hne : b.content ≠ a.content) : b.signingText ≠ a.signingText := by
  intro htext
  apply hne
  rw [signingText_eq_iff] at htext
  rw [content_eq_iff]
  rcases h with ⟨hvalue, htime⟩ | ⟨hid, htime⟩ | ⟨hid, hvalue⟩
  · rw [hvalue, htime, List.append_cancel_right_eq] at htext
    exact ⟨Int32.toInt_inj.1 (numeral_injective htext), hvalue, htime⟩
  · rw [hid, htime, List.append_cancel_left_eq, List.append_cancel_right_eq] at htext
    exact ⟨hid, Int64.toInt_inj.1 (numeral_injective htext), htime⟩
  · rw [hid, hvalue, List.append_cancel_left_eq, List.append_cancel_left_eq] at htext
    exact ⟨hid, hvalue, Int64.toInt_inj.1 (numeral_injective htext)⟩

theorem parameter_eq_of_signingText {p q : Parameter} (hp : a.id = p.id) (hq : b.id = q.id)
    (h : b.signingText = a.signingText) : q = p := by
  rw [signingText_eq_iff, hp, hq] at h
  rcases List.append_eq_append_iff.1 h with ⟨rest, heq, -⟩ | ⟨rest, heq, -⟩
  · exact Parameter.numeral_ids_prefix_free ⟨rest, heq.symm⟩
  · exact (Parameter.numeral_ids_prefix_free ⟨rest, heq.symm⟩).symm

/-- A message is bound by its signature just if its text has no other reading. Among messages for
one parameter that is so where no digits can have moved, between two known parameters always, and
whenever one field alone is changed. -/
theorem signature_binds_iff (a : Message) :
    (∀ b : Message, b.signingText = a.signingText ↔ b.content ∈ readings a.signingText) ∧
    ((∀ b : Message, b.content ≠ a.content → b.signingText ≠ a.signingText) ↔
      ∀ c ∈ readings a.signingText, c = a.content) ∧
    (∀ b : Message, b.id = a.id → b.content ≠ a.content →
      (b.signingText ≠ a.signingText ↔ ¬ b.MovesTo a ∧ ¬ a.MovesTo b)) ∧
    (∀ (b : Message) (p q : Parameter), a.id = p.id → b.id = q.id → q ≠ p →
      b.signingText ≠ a.signingText) ∧
    ∀ b : Message, (b.value = a.value ∧ b.time = a.time) ∨ (b.id = a.id ∧ b.time = a.time) ∨
      (b.id = a.id ∧ b.value = a.value) → b.content ≠ a.content →
      b.signingText ≠ a.signingText := by
  refine ⟨fun b => mem_readings.symm, ?_, ?_, ?_, ?_⟩
  · constructor
    · rintro hbound ⟨id, value, time⟩ hc
      let b : Message := ⟨id, value, time, []⟩
      have htext : b.signingText = a.signingText := mem_readings.1 hc
      by_cases hne : b.content = a.content
      · exact hne
      · exact absurd htext (hbound b hne)
    · intro honly b hne htext
      exact hne (honly b.content (mem_readings.2 htext))
  · intro b hid hne
    rw [Ne, signingText_eq_iff_moves hid]
    simp only [hne, false_or, not_or]
  · intro b p q hp hq hne htext
    exact hne (parameter_eq_of_signingText hp hq htext)
  · intro b hone hne
    exact signingText_ne_of_one_change hone hne

end Message

/-- The last digit of the open message's value, moved to its time. -/
def movedMessage : Message := ⟨10004, 100, 51600000000, openSignature⟩

/-- It says something else, and the signature is good for it all the same. -/
theorem movedMessage_verifies :
    movedMessage.content ≠ openMessage.content ∧
    movedMessage.signingText = openMessage.signingText ∧
    movedMessage.signature = openMessage.signature ∧
    movedMessage.verifies openAuthority = true := by
  have htext : movedMessage.signingText = openMessage.signingText := by decide +kernel
  refine ⟨by decide, htext, rfl, ?_⟩
  unfold Message.verifies
  rw [htext]
  exact openMessage_verifies

end SporkNode.Spork
