import SporkNode.Proofs.Numerals
import SporkNode.Proofs.Wallet.Base58
import SporkNode.Wallet.ImportFormat

/-!
Secrets as text. The bytes behind a text determine the version, the secret and the form of the key
and are determined by them, and bytes and text determine each other. So under each version a key
has one text, and whatever else is read as that key is this text with blanks around it.
-/

namespace SporkNode

namespace Signature.Secret

theorem ofNat?_eq_some_iff {n : Nat} {k : Secret} : ofNat? n = some k ↔ k.scalar = n := by
  unfold ofNat?
  constructor
  · intro h
    split at h
    · cases h
      rfl
    · cases h
  · rintro rfl
    rw [dif_pos ⟨k.pos, k.lt_order⟩]

theorem ofBytes?_eq_some_iff {b : Bytes} (hb : b.length = 32) {k : Secret} :
    ofBytes? b = some k ↔ b = k.toBytes := by
  have hfits : k.scalar < 256 ^ 32 := Nat.lt_trans k.lt_order (by norm_num [Curve.order])
  rw [ofBytes?, ofNat?_eq_some_iff, toBytes]
  constructor
  · intro h
    rw [h, ← hb, Bytes.ofNatBig_toNatBig]
  · rintro rfl
    rw [Bytes.toNatBig_ofNatBig_of_lt hfits]

end Signature.Secret

namespace Wallet

open Signature

/-! ## Blanks -/

/-- `text` is `core` with blanks around it. -/
def Padded (core text : String) : Prop :=
  ∃ before after : List Char, (∀ c ∈ before, isBlank c = true) ∧
    (∀ c ∈ after, isBlank c = true) ∧ text.toList = before ++ core.toList ++ after

theorem padded_trim (text : String) : Padded (trim text) text := by
  let rest := text.toList.dropWhile isBlank
  refine ⟨text.toList.takeWhile isBlank, (rest.reverse.takeWhile isBlank).reverse, ?_, ?_, ?_⟩
  · exact fun c hc => List.mem_takeWhile_imp hc
  · exact fun c hc => List.mem_takeWhile_imp (List.mem_reverse.1 hc)
  · have hrest : rest = (rest.reverse.dropWhile isBlank).reverse ++
        (rest.reverse.takeWhile isBlank).reverse := by
      rw [← List.reverse_append, List.takeWhile_append_dropWhile, List.reverse_reverse]
    rw [trim, String.toList_ofList, List.append_assoc, ← hrest, List.takeWhile_append_dropWhile]

theorem dropWhile_eq_self_of_forall {cs : List Char} (h : ∀ c ∈ cs, isBlank c = false) :
    cs.dropWhile isBlank = cs := by
  cases cs with
  | nil => rfl
  | cons c cs => rw [List.dropWhile_cons_of_neg (by simp [h c List.mem_cons_self])]

theorem trim_of_padded {core text : String} (hcore : ∀ c ∈ core.toList, isBlank c = false)
    (h : Padded core text) : trim text = core := by
  obtain ⟨before, after, hbefore, hafter, htext⟩ := h
  have hafter' : ∀ c ∈ after.reverse, isBlank c = true :=
    fun c hc => hafter c (List.mem_reverse.1 hc)
  have hfront : text.toList.dropWhile isBlank = (core.toList ++ after).dropWhile isBlank := by
    rw [htext, List.append_assoc, List.dropWhile_append_of_pos hbefore]
  rw [trim, hfront, ← String.toList_inj, String.toList_ofList]
  cases hc : core.toList with
  | nil => rw [List.nil_append, List.dropWhile_eq_nil_iff.2 hafter]; rfl
  | cons c cs =>
    rw [hc] at hcore
    have hcore' : ∀ c' ∈ (c :: cs).reverse, isBlank c' = false :=
      fun c' hc' => hcore c' (List.mem_reverse.1 hc')
    rw [List.cons_append, List.dropWhile_cons_of_neg (by simp [hcore c List.mem_cons_self]),
      ← List.cons_append, List.reverse_append, List.dropWhile_append_of_pos hafter',
      dropWhile_eq_self_of_forall hcore', List.reverse_reverse]

/-- There are no blanks in the text of a byte string. -/
theorem isBlank_of_mem_encode {b : Bytes} {c : Char} (h : c ∈ (Base58.encode b).toList) :
    isBlank c = false := by
  have hletter : ∀ d, d < 58 → isBlank (Base58.letter d) = false := by
    intro d
    rw [Base58.letter, Base58.alphabet_eq]
    revert d
    decide +kernel
  rw [Base58.encode_eq, String.toList_ofList, List.mem_map] at h
  obtain ⟨d, hd, rfl⟩ := h
  refine hletter d (Base58.lt_of_mem_rebase (by decide : 1 < 256) (by decide) ?_ d hd)
  intro n hn
  obtain ⟨x, -, rfl⟩ := List.mem_map.1 hn
  exact x.toNat_lt

theorem trim_eq_encode_iff {text : String} {b : Bytes} :
    trim text = Base58.encode b ↔ Padded (Base58.encode b) text := by
  constructor
  · intro h
    exact h ▸ padded_trim text
  · exact trim_of_padded fun c => isBlank_of_mem_encode

/-! ## The bytes behind a text -/

/-- What a text says once it has been read as bytes. -/
def readBody (version : UInt8) (body : Bytes) : Except ImportError KeyPair := do
  let compressed ← flagOf body
  let payload := body.take (body.length - 4)
  if checksum payload ≠ body.drop (body.length - 4) then throw (.malformed .checksum)
  if payload.headD 0 ≠ version then throw (.malformed (.version (payload.headD 0)))
  match Secret.ofBytes? ((payload.drop 1).take 32) with
  | some secret => return ⟨secret, compressed⟩
  | none => throw .invalidSecret

theorem importKey_eq (version : UInt8) (text : String) :
    importKey version text =
      (Base58.decode (trim text)).mapError (fun e => .malformed (.base58 e)) >>=
        readBody version := rfl

/-- The bytes of a key, checksum included. -/
def bodyOf (version : UInt8) (k : KeyPair) : Bytes :=
  payload version k ++ checksum (payload version k)

theorem length_checksum (b : Bytes) : (checksum b).length = 4 := by
  rw [checksum, List.length_take, (Digest.sha256d b).length_eq]
  rfl

theorem length_toBytes (k : Secret) : k.toBytes.length = 32 := Bytes.length_ofNatBig _ _

theorem length_payload (version : UInt8) (k : KeyPair) :
    (payload version k).length = if k.compressed then 34 else 33 := by
  unfold payload
  split <;> simp [length_toBytes]

theorem flagOf_eq_ok_iff {body : Bytes} {compressed : Bool} :
    flagOf body = .ok compressed ↔
      body.length = (if compressed then 38 else 37) ∧ (compressed → body.getD 33 0 = 0x01) := by
  unfold flagOf
  cases compressed <;> grind

theorem flagOf_bodyOf (version : UInt8) (k : KeyPair) :
    flagOf (bodyOf version k) = .ok k.compressed := by
  rw [flagOf_eq_ok_iff, bodyOf, List.length_append, length_payload, length_checksum]
  refine ⟨by split <;> rfl, ?_⟩
  intro hcompressed
  have hfront : (version :: k.secret.toBytes).length = 33 := by
    rw [List.length_cons, length_toBytes]
  have hpayload : payload version k = (version :: k.secret.toBytes) ++ [0x01] := by
    rw [payload, if_pos hcompressed]
  rw [hpayload, List.append_assoc, List.getD_append_right _ _ _ _ (by omega), hfront]
  rfl

/-- A body is taken apart into what it was put together from. -/
theorem take_bodyOf (version : UInt8) (k : KeyPair) :
    (bodyOf version k).take ((bodyOf version k).length - 4) = payload version k ∧
    (bodyOf version k).drop ((bodyOf version k).length - 4) = checksum (payload version k) := by
  have hlength : (bodyOf version k).length - 4 = (payload version k).length := by
    rw [bodyOf, List.length_append, length_checksum, Nat.add_sub_cancel]
  rw [hlength, bodyOf]
  exact ⟨List.take_left, List.drop_left⟩

theorem readBody_bodyOf (version version' : UInt8) (k : KeyPair) :
    readBody version' (bodyOf version k) =
      if version' = version then .ok k else .error (.malformed (.version version)) := by
  obtain ⟨htake, hdrop⟩ := take_bodyOf version k
  have hhead : (payload version k).headD 0 = version := rfl
  have hsecret : ((payload version k).drop 1).take 32 = k.secret.toBytes := by
    rw [payload, List.cons_append, List.drop_one, List.tail_cons,
      List.take_left' (length_toBytes _)]
  unfold readBody
  rw [flagOf_bodyOf, ok_bind, htake, hdrop]
  dsimp only
  rw [if_neg (not_not.2 rfl), hhead, hsecret,
    (Secret.ofBytes?_eq_some_iff (length_toBytes _)).2 rfl]
  by_cases hv : version' = version
  · rw [if_pos hv, if_neg (not_not.2 hv.symm)]
    rfl
  · rw [if_neg hv, if_pos (Ne.symm hv)]
    rfl

/-- What stands after the secret is the flag. -/
theorem drop_33_of_flagOf {body : Bytes} {compressed : Bool}
    (h : flagOf body = .ok compressed) :
    (body.take (body.length - 4)).drop 33 = if compressed then [0x01] else [] := by
  obtain ⟨hlength, hflag⟩ := flagOf_eq_ok_iff.1 h
  cases compressed with
  | false => simp [hlength]
  | true =>
    have hlt : 33 < (body.take 34).length := by
      rw [List.length_take, hlength]
      decide
    have hbyte : (body.take 34)[33] = 0x01 := by
      rw [List.getElem_take, ← hflag rfl, List.getD_eq_getElem]
    rw [hlength, if_pos rfl, if_pos rfl, List.drop_eq_getElem_cons hlt, hbyte,
      List.drop_eq_nil_of_le (by rw [List.length_take]; omega)]

theorem readBody_eq_ok {version : UInt8} {body : Bytes} {k : KeyPair}
    (h : readBody version body = .ok k) : body = bodyOf version k := by
  obtain ⟨compressed, hflag, h⟩ := bind_eq_ok.1 h
  have hlength := (flagOf_eq_ok_iff.1 hflag).1
  have htail := drop_33_of_flagOf hflag
  dsimp only at h
  split at h
  · cases h
  rename_i hchecksum
  split at h
  · cases h
  rename_i hversion
  split at h
  · rename_i secret hsecret
    cases h
    rw [not_not] at hchecksum hversion
    have hbytes : ((body.take (body.length - 4)).drop 1).take 32 = secret.toBytes := by
      rw [← Secret.ofBytes?_eq_some_iff, hsecret]
      rw [List.length_take, List.length_drop, List.length_take]
      split at hlength <;> omega
    have hpayload : body.take (body.length - 4) = payload version ⟨secret, compressed⟩ := by
      have hpos : 0 < (body.take (body.length - 4)).length := by
        rw [List.length_take]
        split at hlength <;> omega
      rw [payload, ← hbytes, ← htail, ← hversion]
      cases hp : body.take (body.length - 4) with
      | nil => simp [hp] at hpos
      | cons v rest => simp
    rw [bodyOf, ← hpayload, hchecksum, List.take_append_drop]
  · cases h

/-- Under each version the texts that are read as a key are its one text and this with blanks
around it. -/
theorem importKey_canonical :
    (∀ version text k, importKey version text = .ok k ↔ trim text = exportKey version k) ∧
    (∀ version text k, importKey version text = .ok k ↔ Padded (exportKey version k) text) ∧
    ∀ version version' k, importKey version' (exportKey version k) =
      if version' = version then .ok k else .error (.malformed (.version version)) := by
  have hread : ∀ version text k,
      importKey version text = .ok k ↔ trim text = exportKey version k := by
    intro version text k
    rw [importKey_eq, bind_eq_ok]
    constructor
    · rintro ⟨body, hbody, h⟩
      rw [mapError_eq_ok, Base58.decode_eq_ok_iff] at hbody
      rw [hbody, readBody_eq_ok h]
      rfl
    · intro h
      refine ⟨bodyOf version k, ?_, ?_⟩
      · rw [mapError_eq_ok, Base58.decode_eq_ok_iff]
        exact h
      · rw [readBody_bodyOf, if_pos rfl]
  refine ⟨hread, ?_, ?_⟩
  · intro version text k
    rw [hread]
    exact trim_eq_encode_iff
  · intro version version' k
    have htrim : trim (exportKey version k) = Base58.encode (bodyOf version k) :=
      trim_eq_encode_iff.2 ⟨[], [], by simp, by simp, by simp [exportKey, bodyOf]⟩
    have hdecode := Base58.decode_eq_ok_iff.2 htrim
    rw [importKey_eq, mapError_eq_ok.2 hdecode, ok_bind, readBody_bodyOf]

end Wallet

end SporkNode
