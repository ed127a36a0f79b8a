import SporkNode.Bytes

/-!
Texts as UTF-8. A text is told by its bytes, an ASCII text has one byte for each character, and the
byte 255 is in no text.
-/

namespace SporkNode.Bytes

theorem toList_eq_data (b : ByteArray) : b.toList = b.data.toList := by
  have hloop : ∀ i seen, ByteArray.toList.loop b i seen = seen.reverse ++ b.data.toList.drop i := by
    intro i seen
    fun_induction ByteArray.toList.loop b i seen with
    | case1 i seen hlt ih =>
      have hi : i < b.data.toList.length := by simpa using hlt
      rw [ih, List.drop_eq_getElem_cons hi]
      simp [ByteArray.get!, hlt]
    | case2 i seen hle =>
      rw [List.drop_eq_nil_of_le (by simpa using Nat.le_of_not_lt hle), List.append_nil]
  exact (hloop 0 []).trans (List.nil_append _)

theorem ofString_injective {s t : String} (h : ofString s = ofString t) : s = t := by
  unfold ofString at h
  rw [toList_eq_data, toList_eq_data, Array.toList_inj] at h
  exact String.toByteArray_inj.1 (ByteArray.ext h)

/-- The bytes of a text are those of its characters. -/
theorem ofString_eq (s : String) : ofString s = s.toList.flatMap String.utf8EncodeChar := by
  have hchars : ∀ cs : List Char,
      cs.utf8Encode.data.toList = cs.flatMap String.utf8EncodeChar := by
    intro cs
    induction cs with
    | nil => rfl
    | cons c cs ih =>
      rw [List.utf8Encode_cons, List.utf8Encode_singleton, ByteArray.data_append,
        Array.toList_append, List.toList_data_toByteArray, ih, List.flatMap_cons]
  unfold ofString
  rw [toList_eq_data, ← hchars, String.utf8Encode_toList]
  rfl

theorem ofString_ofList_of_ascii {cs : List Char} (h : ∀ c ∈ cs, c.toNat < 128) :
    ofString (String.ofList cs) = cs.map (fun c => UInt8.ofNat c.toNat) := by
  rw [ofString_eq, String.toList_ofList]
  induction cs with
  | nil => rfl
  | cons c cs ih =>
    rw [List.forall_mem_cons] at h
    have hchar : String.utf8EncodeChar c = [UInt8.ofNat c.toNat] := if_pos (Nat.le_of_lt_succ h.1)
    rw [List.flatMap_cons, List.map_cons, ih h.2, hchar, List.singleton_append]

theorem lt_255_of_mem_ofString {s : String} {b : UInt8} (h : b ∈ ofString s) : b.toNat < 255 := by
  rw [ofString_eq, List.mem_flatMap] at h
  obtain ⟨c, -, hb⟩ := h
  -- each byte is a bounded part of the character's number behind a marker
  have hsmall : ∀ n : Nat, n < 255 → (UInt8.ofNat n).toNat < 255 := by
    intro n hn
    rw [UInt8.toNat_ofNat_of_lt' (Nat.lt_trans hn (by decide))]
    exact hn
  unfold String.utf8EncodeChar at hb
  dsimp only at hb
  split at hb
  · rw [List.mem_singleton] at hb
    exact hb ▸ hsmall _ (by omega)
  · split at hb
    · simp only [List.mem_cons, List.not_mem_nil, or_false] at hb
      obtain rfl | rfl := hb <;> exact hsmall _ (by omega)
    · split at hb
      · simp only [List.mem_cons, List.not_mem_nil, or_false] at hb
        obtain rfl | rfl | rfl := hb <;> exact hsmall _ (by omega)
      · simp only [List.mem_cons, List.not_mem_nil, or_false] at hb
        obtain rfl | rfl | rfl | rfl := hb <;> exact hsmall _ (by omega)

end SporkNode.Bytes
