import SporkNode.Wire.Parse

/-!
Lengths and the byte strings they announce. A length below 253 is one byte; above that a marker
byte says how wide the numeral after it is. The shortest form is the only one that is read, and
no announced length may pass `maxSize`.
-/

namespace SporkNode.Wire

def maxSize : Nat := 0x02000000

def encodeSize (n : Nat) : Bytes :=
  if n < 0xfd then [UInt8.ofNat n]
  else if n ≤ 0xffff then 0xfd :: Bytes.ofNat 2 n
  else if n ≤ 0xffffffff then 0xfe :: Bytes.ofNat 4 n
  else 0xff :: Bytes.ofNat 8 n

def encodeVar (b : Bytes) : Bytes := encodeSize b.length ++ b

namespace Parse

/-- A numeral of `width` bytes that a shorter form could not have held. -/
def wideSize (width least : Nat) : Parse Nat := do
  let n ← numeral width
  if n < least then throw .nonCanonicalSize else return n

def size : Parse Nat := do
  let marker ← u8
  let n ←
    if marker = 0xfd then wideSize 2 0xfd
    else if marker = 0xfe then wideSize 4 0x10000
    else if marker = 0xff then wideSize 8 0x100000000
    else pure marker.toNat
  if maxSize < n then throw (.oversizedLength n) else return n

def var : Parse Bytes := do take (← size)

end Parse

end SporkNode.Wire
