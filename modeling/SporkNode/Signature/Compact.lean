import SporkNode.Signature.Key

/-!
Signatures in 65 bytes: a header, r and s. The header adds to 27 which nonce point was used and
whether the signer's key is written compressed, so a reader recovers the very bytes of the key.
Signers always emit the lower s.
-/

namespace SporkNode.Signature

open Curve

inductive FormatFault
  | length (n : Nat)
  | header (value : UInt8)
  | scalars
  deriving DecidableEq, Repr

def FormatFault.message : FormatFault → String
  | .length n => s!"expected 65 bytes, got {n}"
  | .header value => s!"bad header byte {value.toNat}"
  | .scalars => "signature error"

inductive SignatureError
  | verificationFailed
  | invalidFormat (fault : FormatFault)
  | invalidPublicKey
  | invalidPrivateKey
  | signingFailed
  deriving DecidableEq, Repr

def SignatureError.message : SignatureError → String
  | .verificationFailed => "Signature verification failed"
  | .invalidFormat fault => "Invalid signature format: " ++ fault.message
  | .invalidPublicKey => "Invalid public key"
  | .invalidPrivateKey => "Invalid private key"
  | .signingFailed => "Signing failed: signature error"

def RawSignature.isLow (sig : RawSignature) : Bool := sig.s ≤ order / 2

/-- The lower of the two signatures; replacing s by its negative reflects the nonce point. -/
def RawSignature.lower (sig : RawSignature) : RawSignature :=
  if sig.isLow then sig else ⟨sig.r, order - sig.s, !sig.oddY, sig.reducedX⟩

structure CompactSignature where
  bytes : Bytes
  length_eq : bytes.length = 65
  deriving DecidableEq

namespace CompactSignature

def ofBytes (b : Bytes) : Except SignatureError CompactSignature :=
  if h : b.length = 65 then .ok ⟨b, h⟩ else .error (.invalidFormat (.length b.length))

/-- The number that a header adds to 27. -/
def flags (sig : RawSignature) (compressed : Bool) : Nat :=
  sig.oddY.toNat + 2 * sig.reducedX.toNat + 4 * compressed.toNat

def ofRaw (sig : RawSignature) (compressed : Bool) : CompactSignature :=
  ⟨UInt8.ofNat (27 + flags sig compressed) ::
    (Bytes.ofNatBig 32 sig.r ++ Bytes.ofNatBig 32 sig.s), by simp⟩

def header (c : CompactSignature) : UInt8 := c.bytes.headD 0

/-- The signature inside, with the compression flag. -/
def toRaw (c : CompactSignature) : Except SignatureError (RawSignature × Bool) :=
  let header := c.header.toNat
  if header < 27 ∨ 35 ≤ header then .error (.invalidFormat (.header c.header))
  else
    let f := header - 27
    let r := Bytes.toNatBig ((c.bytes.drop 1).take 32)
    let s := Bytes.toNatBig (c.bytes.drop 33)
    if 0 < r ∧ r < order ∧ 0 < s ∧ s < order then
      .ok (⟨r, s, f % 2 = 1, f / 2 % 2 = 1⟩, f / 4 = 1)
    else .error (.invalidFormat .scalars)

def recover [Scheme] (c : CompactSignature) (digest : Hash) : Except SignatureError PublicKey := do
  let (sig, compressed) ← c.toRaw
  match Scheme.recover digest sig with
  | some point => return ⟨point, compressed⟩
  | none => throw .verificationFailed

end CompactSignature

def KeyPair.sign [Scheme] (k : KeyPair) (digest : Hash) :
    Except SignatureError CompactSignature :=
  match Scheme.sign k.secret digest with
  | some sig => .ok (.ofRaw sig.lower k.compressed)
  | none => .error .signingFailed

end SporkNode.Signature
