import SporkNode.Bytes
import SporkNode.Text.Quoted

/-!
Hexadecimal text of byte strings, two digits a byte. Reading takes either letter case and works
on the bytes of the text, so a fault is located by its byte.
-/

namespace SporkNode.Text

inductive HexError
  | oddLength
  | invalidCharacter (c : Char) (index : Nat)
  deriving DecidableEq, Repr

def HexError.message : HexError → String
  | .oddLength => "Odd number of digits"
  | .invalidCharacter c index => s!"Invalid character {quoteChar c} at position {index}"

def hexOfByte (b : UInt8) : List Char := [hexDigit (b.toNat / 16), hexDigit (b.toNat % 16)]

def hexOfBytes (b : Bytes) : String := String.ofList (b.flatMap hexOfByte)

def nibble? (c : Char) : Option Nat :=
  if '0' ≤ c ∧ c ≤ '9' then some (c.toNat - '0'.toNat)
  else if 'a' ≤ c ∧ c ≤ 'f' then some (c.toNat - 'a'.toNat + 10)
  else if 'A' ≤ c ∧ c ≤ 'F' then some (c.toNat - 'A'.toNat + 10)
  else none

private def digitAt (b : UInt8) (index : Nat) : Except HexError Nat :=
  let c := Char.ofNat b.toNat
  match nibble? c with
  | some n => .ok n
  | none => .error (.invalidCharacter c index)

private def bytesOfDigits : Nat → Bytes → Except HexError Bytes
  | index, high :: low :: rest => do
    let h ← digitAt high index
    let l ← digitAt low (index + 1)
    let tail ← bytesOfDigits (index + 2) rest
    return UInt8.ofNat (16 * h + l) :: tail
  | _, _ => .ok []

def bytesOfHex (s : String) : Except HexError Bytes :=
  let digits := Bytes.ofString s
  if digits.length % 2 = 1 then .error .oddLength else bytesOfDigits 0 digits

/-- The number that a hexadecimal numeral of any length denotes. -/
def natOfHex? (cs : List Char) : Option Nat :=
  cs.foldlM (fun n c => (nibble? c).map (16 * n + ·)) 0

end SporkNode.Text
