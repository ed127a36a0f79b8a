import SporkNode.Proofs.Spork.Encoding

/-!
Messages and their signatures. A signature that verifies has its one length, so a message that
verifies can be written and read back; a signer that has the authority's key signs nothing that the
authority would refuse.
-/

namespace SporkNode

namespace Signature

variable [Scheme]

theorem verifyMessage_eq_ok {expected : PublicKey} {signature : Bytes} {magic text : String} :
    verifyMessage expected signature magic text = .ok () ↔
      ∃ signer, recoverSigner signature magic text = .ok signer ∧
        signer.toBytes = expected.toBytes := by
  unfold verifyMessage
  rw [bind_eq_ok]
  constructor
  · rintro ⟨signer, hr, h⟩
    split at h
    · exact ⟨signer, hr, by assumption⟩
    · cases h
  · rintro ⟨signer, hr, he⟩
    exact ⟨signer, hr, by rw [if_pos he]; rfl⟩

theorem length_of_recoverSigner {signature : Bytes} {magic text : String} {key : PublicKey}
    (h : recoverSigner signature magic text = .ok key) : signature.length = 65 := by
  obtain ⟨compact, hc, -⟩ := bind_eq_ok.1 h
  unfold CompactSignature.ofBytes at hc
  split at hc
  · assumption
  · cases hc

end Signature

namespace Spork

open Signature

/-- The key with which an authority's signatures are made. -/
def Signer.SpeaksFor [Scheme] (s : Signer) (a : Authority) : Prop :=
  ∃ key, a.key? = some key ∧ s.key.publicKey.toBytes = key.toBytes ∧ s.magic = a.magic

theorem Signer.magic_ofText {text : String} {s : Settings} {signer : Signer}
    (h : ofText text s = .ok signer) : signer.magic = s.magic := by
  unfold ofText at h
  split at h
  · cases h
    rfl
  · cases h

namespace Authority

theorem magic_ofSettings {s : Settings} {a : Authority} (h : ofSettings s = .ok a) :
    a.magic = s.magic := by
  unfold ofSettings at h
  split at h
  · cases h
    rfl
  · split at h
    · cases h
    · split at h
      · cases h
      · cases h
        rfl

variable [Scheme]

theorem verify_iff {a : Authority} {text : String} {signature : Bytes} :
    a.verify text signature = true ↔
      ∃ key, a.key? = some key ∧ verifyMessage key signature a.magic text = .ok () := by
  unfold verify
  cases a.key? with
  | none => simp
  | some key =>
    rw [isOk_iff]
    constructor
    · rintro ⟨⟨⟩, h⟩
      exact ⟨key, rfl, h⟩
    · rintro ⟨key', hk, h⟩
      cases hk
      exact ⟨(), h⟩

theorem length_of_verify {a : Authority} {text : String} {signature : Bytes}
    (h : a.verify text signature = true) : signature.length = 65 := by
  obtain ⟨key, -, hv⟩ := verify_iff.1 h
  obtain ⟨signer, hr, -⟩ := verifyMessage_eq_ok.1 hv
  exact length_of_recoverSigner hr

end Authority

section

variable [Scheme]

namespace Signer

/-- What a signer hands out verifies under its own key. -/
theorem verifyMessage_of_sign {s : Signer} {text : String} {signature : CompactSignature}
    (h : s.sign text = .ok signature) :
    verifyMessage s.key.publicKey signature.bytes s.magic text = .ok () := by
  obtain ⟨made, -, h⟩ := bind_eq_ok.1 (mapError_eq_ok.1 h)
  obtain ⟨⟨⟩, hv, h⟩ := bind_eq_ok.1 h
  cases h
  exact hv

/-- Keys are told apart by their bytes, and those are the authority's. -/
theorem SpeaksFor.verify {s : Signer} {a : Authority} (hs : s.SpeaksFor a) {text : String}
    {signature : CompactSignature} (h : s.sign text = .ok signature) :
    a.verify text signature.bytes = true := by
  obtain ⟨key, hk, he, hm⟩ := hs
  obtain ⟨signer, hr, hb⟩ := verifyMessage_eq_ok.1 (verifyMessage_of_sign h)
  rw [hm] at hr
  exact Authority.verify_iff.2 ⟨key, hk, verifyMessage_eq_ok.2 ⟨signer, hr, hb.trans he⟩⟩

/-- One text for which both agree is enough, as a signature and a text have one signer. -/
theorem speaksFor_of_verify {s : Signer} {a : Authority} (hm : s.magic = a.magic)
    {text : String} {signature : CompactSignature} (h : s.sign text = .ok signature)
    (hv : a.verify text signature.bytes = true) : s.SpeaksFor a := by
  obtain ⟨signer, hr, hb⟩ := verifyMessage_eq_ok.1 (verifyMessage_of_sign h)
  obtain ⟨key, hk, hv⟩ := Authority.verify_iff.1 hv
  obtain ⟨signer', hr', hb'⟩ := verifyMessage_eq_ok.1 hv
  rw [hm, hr'] at hr
  cases hr
  exact ⟨key, hk, hb.symm.trans hb', hm⟩

end Signer

namespace Message

theorem sign_eq_ok {m signed : Message} {s : Signer} :
    m.sign s = .ok signed ↔
      ∃ signature, s.sign m.signingText = .ok signature ∧
        signed = { m with signature := signature.bytes } := by
  unfold sign
  rw [bind_eq_ok]
  constructor
  · rintro ⟨signature, hs, h⟩
    cases h
    exact ⟨signature, hs, rfl⟩
  · rintro ⟨signature, hs, rfl⟩
    exact ⟨signature, hs, rfl⟩

/-- Signing leaves all but the signature as it was. -/
theorem of_sign {m signed : Message} {s : Signer} (h : m.sign s = .ok signed) :
    signed.id = m.id ∧ signed.value = m.value ∧ signed.time = m.time := by
  obtain ⟨signature, -, rfl⟩ := sign_eq_ok.1 h
  exact ⟨rfl, rfl, rfl⟩

theorem verifies_of_sign {m signed : Message} {s : Signer} {a : Authority} (hs : s.SpeaksFor a)
    (h : m.sign s = .ok signed) : signed.verifies a = true := by
  obtain ⟨signature, hsig, rfl⟩ := sign_eq_ok.1 h
  exact hs.verify hsig

theorem length_signature_of_verifies {m : Message} {a : Authority} (h : m.verifies a = true) :
    m.signature.length = 65 := Authority.length_of_verify h

theorem decode_encode_of_verifies {m : Message} {a : Authority} (h : m.verifies a = true) :
    decode m.encode = .ok m := by
  apply decode_encode
  rw [length_signature_of_verifies h]
  decide

end Message

end

/-! ## A network that anyone may sign for -/

/-- The key is that of the secret one. -/
def openSettings : Settings where
  publicKey? := some
    ("0479be667ef9dcbbac55a06295ce870b07029bfcdb2dce28d959f2815b16f81798" ++
      "483ada7726a3c4655da4fbfc0e1108a8fd17b448a68554199c47d08ffb10d4b8")
  magic := defaultMagic
  secretVersion := 221

def openAuthority : Authority := ⟨some ⟨Curve.generator, false⟩, defaultMagic⟩

theorem ofSettings_open : Authority.ofSettings openSettings = .ok openAuthority := by
  decide +kernel

def openSignature : Bytes :=
  [0x1c,
   0xcd, 0x1e, 0x04, 0x6a, 0x58, 0x13, 0x39, 0x9e, 0x9b, 0x5e, 0x08, 0xb1, 0xf2, 0x18, 0x12, 0x62,
   0x42, 0xe4, 0xcb, 0x9f, 0xe6, 0xc4, 0xf3, 0x4b, 0x23, 0xae, 0x87, 0x27, 0x79, 0x2c, 0x9a, 0x77,
   0x67, 0x46, 0xaf, 0x5a, 0x6f, 0x8a, 0x4e, 0xa6, 0x27, 0x77, 0x54, 0x23, 0xff, 0xb4, 0x8d, 0x66,
   0x9a, 0xd2, 0x2d, 0x55, 0xcf, 0x6b, 0xb7, 0xd8, 0x7a, 0x81, 0x63, 0xfc, 0xb3, 0x09, 0x51, 0x7e]

def openMessage : Message := ⟨10004, 1005, 1600000000, openSignature⟩

theorem openMessage_verifies : openMessage.verifies openAuthority = true := by decide +kernel

end Spork

end SporkNode
