import SporkNode.Text.Hex

/-!
Object identities: 32 bytes, read as a number with the least significant byte first. People are
shown the number, so the display form runs backwards.
-/

namespace SporkNode

structure Hash where
  bytes : Bytes
  length_eq : bytes.length = 32
  deriving DecidableEq

namespace Hash

instance : Hashable Hash := ⟨fun h => hash h.bytes⟩

def ofBytes? (b : Bytes) : Option Hash :=
  if h : b.length = 32 then some ⟨b, h⟩ else none

def ofNat (n : Nat) : Hash := ⟨Bytes.ofNat 32 n, Bytes.length_ofNat 32 n⟩

def toNat (h : Hash) : Nat := Bytes.toNat h.bytes

def zero : Hash := ofNat 0

def display (h : Hash) : String := Text.hexOfBytes h.bytes.reverse

end Hash

end SporkNode
