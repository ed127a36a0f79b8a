import SporkNode.Signature.Compact
import SporkNode.Wire.CompactSize

/-!
Signed texts. What is hashed is a magic and then the text, each behind its length, so a signature
given under one magic says nothing under another.
-/

namespace SporkNode.Signature

def messagePreimage (magic text : String) : Bytes :=
  Wire.encodeVar (Bytes.ofString magic) ++ Wire.encodeVar (Bytes.ofString text)

def messageDigest (magic text : String) : Hash := Digest.sha256d (messagePreimage magic text)

variable [Scheme]

def signMessage (k : KeyPair) (magic text : String) : Except SignatureError CompactSignature :=
  k.sign (messageDigest magic text)

def recoverSigner (signature : Bytes) (magic text : String) : Except SignatureError PublicKey := do
  (← CompactSignature.ofBytes signature).recover (messageDigest magic text)

/-- Keys are compared as written, so a key does not sign for its other form. -/
def verifyMessage (expected : PublicKey) (signature : Bytes) (magic text : String) :
    Except SignatureError Unit := do
  let signer ← recoverSigner signature magic text
  if signer.toBytes = expected.toBytes then return () else throw .verificationFailed

end SporkNode.Signature
