import SporkNode.Signature.Compact
import SporkNode.Wallet.Base58

/-!
Secrets as text: a version byte, the secret, a one if the public key is compressed, and the first
four bytes of the digest of all that, in base 58. Blanks around the text are not part of it.
-/

namespace SporkNode.Wallet

open Signature

inductive ImportFault
  | base58 (error : Base58.Error)
  | length (n : Nat)
  | compressionFlag
  | checksum
  | version (found : UInt8)
  deriving DecidableEq, Repr

def ImportFault.message : ImportFault → String
  | .base58 error => "base58: " ++ error.message
  | .length n => s!"invalid length {n}"
  | .compressionFlag => "invalid compression flag"
  | .checksum => "checksum mismatch"
  | .version found => "unexpected version byte 0x" ++ Text.hexPadded 2 found.toNat

inductive ImportError
  | malformed (fault : ImportFault)
  | invalidSecret
  deriving DecidableEq, Repr

def ImportError.message : ImportError → String
  | .malformed fault => "Invalid WIF key: " ++ fault.message
  | .invalidSecret => SignatureError.invalidPrivateKey.message

def checksum (payload : Bytes) : Bytes := (Digest.sha256d payload).bytes.take 4

def payload (version : UInt8) (k : KeyPair) : Bytes :=
  version :: k.secret.toBytes ++ (if k.compressed then [0x01] else [])

def exportKey (version : UInt8) (k : KeyPair) : String :=
  let body := payload version k
  Base58.encode (body ++ checksum body)

/-- Blanks in the sense of Unicode. -/
def isBlank (c : Char) : Bool :=
  let n := c.toNat
  (9 ≤ n && n ≤ 13) || n = 0x20 || n = 0x85 || n = 0xa0 || n = 0x1680 ||
    (0x2000 ≤ n && n ≤ 0x200a) || n = 0x2028 || n = 0x2029 || n = 0x202f || n = 0x205f || n = 0x3000

def trim (s : String) : String :=
  String.ofList ((s.toList.dropWhile isBlank).reverse.dropWhile isBlank).reverse

/-- The compression flag that the length of `body`, checksum included, implies. -/
def flagOf (body : Bytes) : Except ImportError Bool :=
  if body.length = 37 then .ok false
  else if body.length = 38 then
    if body.getD 33 0 = 0x01 then .ok true else .error (.malformed .compressionFlag)
  else .error (.malformed (.length body.length))

def importKey (version : UInt8) (text : String) : Except ImportError KeyPair := do
  let body ← (Base58.decode (trim text)).mapError fun e => .malformed (.base58 e)
  let compressed ← flagOf body
  let payload := body.take (body.length - 4)
  if checksum payload ≠ body.drop (body.length - 4) then throw (.malformed .checksum)
  if payload.headD 0 ≠ version then throw (.malformed (.version (payload.headD 0)))
  match Secret.ofBytes? ((payload.drop 1).take 32) with
  | some secret => return ⟨secret, compressed⟩
  | none => throw .invalidSecret

end SporkNode.Wallet
