import SporkNode.Proofs.Results
import SporkNode.Proofs.Wire.RoundTrip
import SporkNode.Spork.Message

/-!
Messages as bytes. A byte string is the writing of at most one message and a message has one
writing, so what a peer sends and what it is read as determine each other. A writing that was cut
short, that runs on or that announces too much is refused for what is wrong with it.
-/

namespace SporkNode.Spork.Message

open Wire Parse

/-- The fields of a message, whatever comes after them. -/
def fields : Parse Message := do
  let id ← i32
  let value ← i64
  let time ← i64
  let signature ← var
  return ⟨id, value, time, signature⟩

theorem parse_eq : parse = fields >>= fun m => finish >>= fun _ => return m := by
  simp only [parse, fields, bind_assoc, pure_bind]

theorem reads_fields : Reads fields encode (·.signature.length ≤ maxSize) := by
  have hsignature : ∀ id value time,
      Reads (var >>= fun signature => return (⟨id, value, time, signature⟩ : Message))
        (fun m => encodeVar m.signature)
        (fun m => ((m.signature.length ≤ maxSize ∧ m.id = id) ∧ m.value = value) ∧
          m.time = time) := by
    intro id value time
    apply reads_var.map
    · exact fun signature h => ⟨⟨⟨⟨h, rfl⟩, rfl⟩, rfl⟩, rfl⟩
    · rintro m ⟨⟨⟨h, rfl⟩, rfl⟩, rfl⟩
      exact ⟨h, rfl⟩
  apply (reads_i32.bind (fun _ _ => trivial) fun id _ =>
    reads_i64.bind (fun _ _ => trivial) fun value _ =>
      reads_i64.bind (fun _ _ => trivial) fun time _ => hsignature id value time).congr
  · exact fun _ => Iff.rfl
  · intro m _
    simp [encode, identity, encodeAll]

/-! ## The whole and no more -/

theorem decode_encode {m : Message} (h : m.signature.length ≤ maxSize) :
    decode m.encode = .ok m := by
  have hfields := reads_fields.whole h []
  rw [List.append_nil] at hfields
  rw [decode, parse_eq, on_bind_of_ok hfields, on_bind_of_ok on_finish_nil, on_pure]

theorem decode_encode_append {m : Message} (h : m.signature.length ≤ maxSize) {rest : Bytes}
    (hrest : rest ≠ []) : decode (m.encode ++ rest) = .error (.trailingBytes rest.length) := by
  rw [decode, parse_eq, on_bind_of_ok (reads_fields.whole h rest),
    on_bind_of_error (on_finish_of_ne_nil hrest)]

theorem decode_eq_ok_iff {b : Bytes} {m : Message} :
    decode b = .ok m ↔ m.signature.length ≤ maxSize ∧ b = m.encode := by
  constructor
  · intro h
    obtain ⟨rest, hparse⟩ : ∃ rest, parse.on b = (.ok m, rest) := ⟨_, Prod.ext h rfl⟩
    rw [parse_eq] at hparse
    obtain ⟨m', mid, hfields, hend⟩ := on_bind_eq_ok.1 hparse
    obtain ⟨hm, rfl⟩ := reads_fields.only hfields
    by_cases hmid : mid = []
    · subst hmid
      rw [on_bind_of_ok on_finish_nil] at hend
      cases hend
      exact ⟨hm, List.append_nil _⟩
    · rw [on_bind_of_error (on_finish_of_ne_nil hmid)] at hend
      cases hend
  · rintro ⟨hm, rfl⟩
    exact decode_encode hm

/-! ## Too little and too much -/

/-- The input ends within a field: what is left of it is less than is needed. -/
def EndsEarly (cut : Bytes) : Prop :=
  ∃ needed left, left <:+ cut ∧ left.length < needed ∧
    decode cut = .error (.unexpectedEnd needed left.length)

theorem endsEarly_of_endsWithin {b cut more : Bytes} (h : fields.EndsWithin b)
    (hb : b = cut ++ more) (hmore : more ≠ []) : EndsEarly cut := by
  obtain ⟨needed, left, hleft, hlt, hfields⟩ := h cut more hb hmore
  refine ⟨needed, left, hleft, hlt, ?_⟩
  rw [decode, parse_eq, on_bind_of_error hfields]

/-- All that stands before the bytes of the signature. -/
def head (m : Message) : Bytes := m.identity ++ encodeSize m.signature.length

theorem encode_eq_head (m : Message) : m.encode = m.head ++ m.signature :=
  (List.append_assoc _ _ _).symm

theorem head_eq (m : Message) :
    m.head = (Item.i32 m.id).encode ++ ((Item.i64 m.value).encode ++
      ((Item.i64 m.time).encode ++ encodeSize m.signature.length)) := by
  simp [head, identity, encodeAll]

theorem endsWithin_head {m : Message} (h : m.signature.length < UInt64.size) :
    fields.EndsWithin m.head := by
  have hvar : var.EndsWithin (encodeSize m.signature.length) :=
    (endsWithin_encodeSize h).bind_left _
  rw [head_eq]
  exact reads_i32.endsWithin_bind trivial <| reads_i64.endsWithin_bind trivial <|
    reads_i64.endsWithin_bind trivial <| hvar.bind_left _

/-- A signature that is announced as too long is not looked at. -/
theorem decode_head_append {m : Message} (hmax : maxSize < m.signature.length)
    (h : m.signature.length < UInt64.size) (rest : Bytes) :
    decode (m.head ++ rest) = .error (.oversizedLength m.signature.length) := by
  have hvar : var.on (encodeSize m.signature.length ++ rest) =
      (.error (.oversizedLength m.signature.length), rest) :=
    on_bind_of_error (on_size_oversized h hmax rest)
  have hfields : fields.on (m.head ++ rest) =
      (.error (.oversizedLength m.signature.length), rest) := by
    simp only [head_eq, List.append_assoc]
    rw [fields, on_bind_of_ok (reads_i32.whole trivial _),
      on_bind_of_ok (reads_i64.whole trivial _), on_bind_of_ok (reads_i64.whole trivial _),
      on_bind_of_error hvar]
  rw [decode, parse_eq, on_bind_of_error hfields]

/-- Exactly the writings of messages whose signature is not too long are read, each as its message.
What is cut off anywhere ends early, and what runs on has the rest as trailing bytes. With too long
a signature a message ends early until its length can be told, and for that it is refused. Lengths
are machine words. -/
theorem encoding_canonical :
    (∀ b m, decode b = .ok m ↔ m.signature.length ≤ maxSize ∧ b = m.encode) ∧
    (∀ m : Message, m.signature.length ≤ maxSize →
      (∀ cut more, m.encode = cut ++ more → more ≠ [] → EndsEarly cut) ∧
      ∀ rest, rest ≠ [] → decode (m.encode ++ rest) = .error (.trailingBytes rest.length)) ∧
    ∀ m : Message, maxSize < m.signature.length → m.signature.length < UInt64.size →
      decode m.encode = .error (.oversizedLength m.signature.length) ∧
      (∀ cut more, m.head = cut ++ more → more ≠ [] → EndsEarly cut) ∧
      ∀ rest, decode (m.head ++ rest) = .error (.oversizedLength m.signature.length) := by
  refine ⟨fun _ _ => decode_eq_ok_iff, ?_, ?_⟩
  · intro m h
    refine ⟨?_, fun rest => decode_encode_append h⟩
    intro cut more
    exact endsEarly_of_endsWithin (reads_fields.short h)
  · intro m hmax h
    refine ⟨?_, ?_, decode_head_append hmax h⟩
    · rw [encode_eq_head]
      exact decode_head_append hmax h m.signature
    · intro cut more
      exact endsEarly_of_endsWithin (endsWithin_head h)

/-- An unsigned message, whole, cut within its value and followed by a byte, and one whose
signature is a byte too long. -/
theorem encoding_canonical_unsigned :
    let m := unsigned 10004 1005 1600000000
    let long : Message := { m with signature := List.replicate (maxSize + 1) 0 }
    decode m.encode = .ok m ∧
    EndsEarly (m.encode.take 10) ∧
    decode (m.encode ++ [0]) = .error (.trailingBytes 1) ∧
    decode long.encode = .error (.oversizedLength (maxSize + 1)) := by
  intro m long
  obtain ⟨hread, hwhole, htoo⟩ := encoding_canonical
  have hlong : long.signature.length = maxSize + 1 := List.length_replicate
  have hm : m.signature.length ≤ maxSize := by decide
  obtain ⟨hshort, htrailing⟩ := hwhole m hm
  refine ⟨(hread _ _).2 ⟨hm, rfl⟩, ?_, htrailing [0] (by decide), ?_⟩
  · exact hshort _ (m.encode.drop 10) (List.take_append_drop 10 m.encode).symm (by decide)
  · rw [← hlong]
    exact (htoo long (by omega) (by rw [hlong]; decide)).1

end SporkNode.Spork.Message
