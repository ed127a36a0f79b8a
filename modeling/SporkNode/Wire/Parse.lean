import SporkNode.Bytes

/-!
Reading from a byte string. The state is what is left to read, and a failed step keeps whatever
it had consumed by then. Integers have a fixed width and come least significant byte first.
-/

namespace SporkNode.Wire

inductive WireError
  | unexpectedEnd (needed remaining : Nat)
  | nonCanonicalSize
  | oversizedLength (length : Nat)
  | trailingBytes (count : Nat)
  deriving DecidableEq, Repr

def WireError.message : WireError → String
  | .unexpectedEnd needed remaining =>
    s!"Unexpected end of input: needed {needed} bytes, {remaining} remaining"
  | .nonCanonicalSize => "Non-canonical CompactSize encoding"
  | .oversizedLength length => s!"Length {length} exceeds maximum"
  | .trailingBytes count => s!"Trailing bytes after message: {count}"

abbrev Parse (α : Type) : Type := ExceptT WireError (StateM Bytes) α

namespace Parse

/-- Run on `input`, with the bytes left over. -/
def on (p : Parse α) (input : Bytes) : Except WireError α × Bytes := p input

/-- Take exactly `n` bytes, or nothing. -/
def take (n : Nat) : Parse Bytes := do
  let rest ← get
  if rest.length < n then
    throw (.unexpectedEnd n rest.length)
  else
    set (rest.drop n)
    return rest.take n

def numeral (width : Nat) : Parse Nat := return Bytes.toNat (← take width)

def u8 : Parse UInt8 := return UInt8.ofNat (← numeral 1)

def u32 : Parse UInt32 := return UInt32.ofNat (← numeral 4)

def i32 : Parse Int32 := return (UInt32.ofNat (← numeral 4)).toInt32

def i64 : Parse Int64 := return (UInt64.ofNat (← numeral 8)).toInt64

/-- Nothing may be left. -/
def finish : Parse Unit := do
  match (← get).length with
  | 0 => return ()
  | n => throw (.trailingBytes n)

end Parse

end SporkNode.Wire
