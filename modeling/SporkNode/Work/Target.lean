/-!
Targets are 256-bit words: sums and products wrap, and a shift by the whole width or more leaves
nothing. A hash proves more work the smaller the target it stays under, so a higher target is an
easier one.
-/

namespace SporkNode.Work

abbrev Target := BitVec 256

namespace Target

def ofNat (n : Nat) : Target := BitVec.ofNat 256 n

def scale (t : Target) (n : Nat) : Target := t * ofNat n

def divide (t : Target) (n : Nat) : Target := t / ofNat n

def shiftLeft (t : Target) (n : Nat) : Target := if n < 256 then t <<< n else 0

def shiftRight (t : Target) (n : Nat) : Target := if n < 256 then t >>> n else 0

def bitLength (t : Target) : Nat := if t = 0 then 0 else t.toNat.log2 + 1

def decimal (t : Target) : String := toString t.toNat

end Target

end SporkNode.Work
