import SporkNode.Proofs.Numerals
import SporkNode.Proofs.Results
import SporkNode.Proofs.Signature.Ecdsa
import SporkNode.Signature.Message

/-!
Signing and recovering. The lower signature, its flags and the form of the key are packed into 65
bytes and read back as they were. So over every scheme in which a low signature with the flags of
its nonce point gives its key, and the reflected signature is one as well, what a key signs recovers
to the key in its own form, and to no other form of it. The scheme of the curve is one of these.
-/

namespace SporkNode.Signature

open Curve

/-! ## The 65 bytes -/

namespace CompactSignature

theorem flags_lt (sig : RawSignature) (compressed : Bool) : flags sig compressed < 8 := by
  unfold flags
  cases sig.oddY <;> cases sig.reducedX <;> cases compressed <;> decide

/-- The three flags are the binary digits of their number. -/
theorem flags_digits (sig : RawSignature) (compressed : Bool) :
    (flags sig compressed % 2 = 1 ↔ sig.oddY = true) ∧
    (flags sig compressed / 2 % 2 = 1 ↔ sig.reducedX = true) ∧
    (flags sig compressed / 4 = 1 ↔ compressed = true) := by
  unfold flags
  cases sig.oddY <;> cases sig.reducedX <;> cases compressed <;> decide

variable {sig : RawSignature}

theorem toNat_header_ofRaw (sig : RawSignature) (compressed : Bool) :
    (ofRaw sig compressed).header.toNat = 27 + flags sig compressed := by
  have hlt := flags_lt sig compressed
  show (UInt8.ofNat (27 + flags sig compressed)).toNat = _
  rw [UInt8.toNat_ofNat', Nat.mod_eq_of_lt (by omega)]

theorem drop_ofRaw (sig : RawSignature) (compressed : Bool) :
    (ofRaw sig compressed).bytes.drop 33 = Bytes.ofNatBig 32 sig.s := by
  show (Bytes.ofNatBig 32 sig.r ++ Bytes.ofNatBig 32 sig.s).drop 32 = _
  rw [List.drop_left' (Bytes.length_ofNatBig 32 sig.r)]

theorem take_ofRaw (sig : RawSignature) (compressed : Bool) :
    ((ofRaw sig compressed).bytes.drop 1).take 32 = Bytes.ofNatBig 32 sig.r := by
  show (Bytes.ofNatBig 32 sig.r ++ Bytes.ofNatBig 32 sig.s).take 32 = _
  rw [List.take_left' (Bytes.length_ofNatBig 32 sig.r)]

theorem order_lt : order < 256 ^ 32 := by decide

theorem toRaw_ofRaw (h : sig.InRange) (compressed : Bool) :
    (ofRaw sig compressed).toRaw = .ok (sig, compressed) := by
  have hr : Bytes.toNatBig (Bytes.ofNatBig 32 sig.r) = sig.r :=
    Bytes.toNatBig_ofNatBig_of_lt (Nat.lt_trans h.r_lt order_lt)
  have hs : Bytes.toNatBig (Bytes.ofNatBig 32 sig.s) = sig.s :=
    Bytes.toNatBig_ofNatBig_of_lt (Nat.lt_trans h.s_lt order_lt)
  have hlt := flags_lt sig compressed
  obtain ⟨hodd, hreduced, hcompressed⟩ := flags_digits sig compressed
  unfold toRaw
  dsimp only
  rw [toNat_header_ofRaw, take_ofRaw, drop_ofRaw, hr, hs, if_neg (by omega),
    if_pos ⟨h.r_pos, h.r_lt, h.s_pos, h.s_lt⟩, Nat.add_sub_cancel_left]
  simp only [hodd, hreduced, hcompressed, Bool.decide_eq_true]

end CompactSignature

/-! ## Keys in their two forms -/

theorem PublicKey.length_toBytes (key : PublicKey) :
    key.toBytes.length = if key.compressed then 33 else 65 := by
  unfold toBytes
  cases key.compressed <;> simp

/-- The same key in the other form. -/
def KeyPair.otherForm (k : KeyPair) : KeyPair := { k with compressed := !k.compressed }

section

variable [Scheme] {Signs : Point → Hash → RawSignature → Prop}

theorem KeyPair.toBytes_otherForm_ne (k : KeyPair) :
    k.publicKey.toBytes ≠ k.otherForm.publicKey.toBytes := by
  intro h
  have hlength := congrArg List.length h
  rw [PublicKey.length_toBytes, PublicKey.length_toBytes] at hlength
  revert hlength
  show (if k.compressed then 33 else 65) = (if !k.compressed then 33 else 65) → False
  cases k.compressed <;> decide

/-! ## Signing -/

theorem KeyPair.sign_eq_ok {k : KeyPair} {digest : Hash} {c : CompactSignature} :
    k.sign digest = .ok c ↔
      ∃ sig, Scheme.sign k.secret digest = some sig ∧ c = .ofRaw sig.lower k.compressed := by
  unfold sign
  cases Scheme.sign k.secret digest <;> simp [eq_comm]

namespace Scheme.Lawful

variable {key : Point} {digest : Hash} {sig : RawSignature}

theorem lower (h : Scheme.Lawful Signs) (hsig : Signs key digest sig) :
    Signs key digest sig.lower := by
  rw [RawSignature.lower_eq]
  split
  · exact hsig
  · exact h.reflected hsig

theorem recover_ofRaw (h : Scheme.Lawful Signs) (hsig : Signs key digest sig)
    (compressed : Bool) :
    (CompactSignature.ofRaw sig.lower compressed).recover digest = .ok ⟨key, compressed⟩ := by
  have hlower := h.lower hsig
  unfold CompactSignature.recover
  rw [CompactSignature.toRaw_ofRaw (h.inRange hlower), ok_bind]
  dsimp only
  rw [h.recover hlower (RawSignature.isLow_lower (h.inRange hsig))]
  rfl

variable {k : KeyPair} {c : CompactSignature}

theorem recover_of_sign (h : Scheme.Lawful Signs) (hc : k.sign digest = .ok c) :
    c.recover digest = .ok k.publicKey := by
  obtain ⟨sig, hsig, rfl⟩ := KeyPair.sign_eq_ok.1 hc
  exact h.recover_ofRaw (h.sign hsig) k.compressed

theorem low_of_sign (h : Scheme.Lawful Signs) (hc : k.sign digest = .ok c) :
    Bytes.toNatBig (c.bytes.drop 33) ≤ order / 2 := by
  obtain ⟨sig, hsig, rfl⟩ := KeyPair.sign_eq_ok.1 hc
  have hlow := RawSignature.isLow_lower (h.inRange (h.sign hsig))
  have hlt := (h.inRange (h.lower (h.sign hsig))).s_lt
  rw [CompactSignature.drop_ofRaw,
    Bytes.toNatBig_ofNatBig_of_lt (Nat.lt_trans hlt CompactSignature.order_lt)]
  exact of_decide_eq_true hlow

end Scheme.Lawful

theorem KeyPair.header_of_sign {k : KeyPair} {digest : Hash} {c : CompactSignature}
    (hc : k.sign digest = .ok c) : 27 ≤ c.header.toNat ∧ c.header.toNat ≤ 34 := by
  obtain ⟨sig, -, rfl⟩ := KeyPair.sign_eq_ok.1 hc
  have hlt := CompactSignature.flags_lt sig.lower k.compressed
  rw [CompactSignature.toNat_header_ofRaw]
  omega

theorem recoverSigner_bytes (c : CompactSignature) (magic text : String) :
    recoverSigner c.bytes magic text = c.recover (messageDigest magic text) := by
  unfold recoverSigner CompactSignature.ofBytes
  rw [dif_pos c.length_eq, ok_bind]

/-- Over a lawful scheme, for every key in either form and every digest: a signature that is made
has a header from 27 to 34 and a low s, and it recovers to the key in its form. So the signature of
a text is accepted for the key that made it, and refused for the same key in its other form. -/
theorem signature_recovers (h : Scheme.Lawful Signs) (k : KeyPair) :
    (∀ (digest : Hash) (c : CompactSignature), k.sign digest = .ok c →
      (27 ≤ c.header.toNat ∧ c.header.toNat ≤ 34) ∧
      Bytes.toNatBig (c.bytes.drop 33) ≤ order / 2 ∧ c.recover digest = .ok k.publicKey) ∧
    ∀ (magic text : String) (c : CompactSignature), signMessage k magic text = .ok c →
      verifyMessage k.publicKey c.bytes magic text = .ok () ∧
      verifyMessage k.otherForm.publicKey c.bytes magic text = .error .verificationFailed := by
  constructor
  · intro digest c hc
    exact ⟨KeyPair.header_of_sign hc, h.low_of_sign hc, h.recover_of_sign hc⟩
  · intro magic text c hc
    have hsigner : recoverSigner c.bytes magic text = .ok k.publicKey := by
      rw [recoverSigner_bytes]
      exact h.recover_of_sign hc
    unfold verifyMessage
    rw [hsigner, ok_bind, ok_bind, if_pos rfl, if_neg k.toBytes_otherForm_ne]
    exact ⟨rfl, rfl⟩

end

/-! ## A signature of the curve -/

theorem one_lt_order : 1 < order := by decide

def unitSecret : Secret := ⟨1, Nat.one_pos, one_lt_order⟩

def unitDigest : Hash := messageDigest "magic" "texts"

/-- Its s is in the upper half. -/
def highSignature : RawSignature :=
  ⟨85249285658205901608574601007211150176940659578934468357401733820213679734038,
   97776286104332592323698834098268449045121057297155457125320202098211595050848, true, false⟩

theorem sign_unit : Ecdsa.sign unitSecret unitDigest = some highSignature := by decide +kernel

theorem publicPoint_unit : Ecdsa.publicPoint unitSecret = generator := by decide +kernel

/-- The key is compressed, and its signature is turned into the lower one. -/
theorem signature_recovers_lowered :
    let k : KeyPair := ⟨unitSecret, true⟩
    Scheme.Lawful Ecdsa.Signs ∧ ∃ c, signMessage k "magic" "texts" = .ok c ∧
      c.header = 31 ∧ c.recover unitDigest = .ok ⟨generator, true⟩ ∧
      verifyMessage k.publicKey c.bytes "magic" "texts" = .ok () ∧
      verifyMessage k.otherForm.publicKey c.bytes "magic" "texts" = .error .verificationFailed := by
  intro k
  obtain ⟨hsigned, htexts⟩ := signature_recovers Ecdsa.lawful k
  have hsign : signMessage k "magic" "texts" = .ok (.ofRaw highSignature.lower true) :=
    KeyPair.sign_eq_ok.2 ⟨highSignature, sign_unit, rfl⟩
  obtain ⟨-, -, hrecover⟩ := hsigned _ _ hsign
  refine ⟨Ecdsa.lawful, _, hsign, by decide, ?_, htexts _ _ _ hsign⟩
  rw [← publicPoint_unit]
  exact hrecover

end SporkNode.Signature
