import SporkNode.Digest.Sha256

/-!
Keyed digests over SHA-256. A key longer than a block stands for its digest.
-/

namespace SporkNode.Digest

private def blockKey (key : Bytes) : Bytes :=
  let short := if 64 < key.length then (sha256 key).bytes else key
  short ++ List.replicate (64 - short.length) 0

def hmac (key message : Bytes) : Bytes :=
  let k := blockKey key
  let inner := (sha256 (k.map (· ^^^ 0x36) ++ message)).bytes
  (sha256 (k.map (· ^^^ 0x5c) ++ inner)).bytes

end SporkNode.Digest
