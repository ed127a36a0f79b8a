import SporkNode.Bytes
import SporkNode.Text.Quoted

/-!
Byte strings as numerals in base 58. Leading zero bytes, which a numeral would lose, become
leading ones.
-/

namespace SporkNode.Wallet.Base58

inductive Error
  | nonAscii (index : Nat)
  | invalidCharacter (c : Char) (index : Nat)
  deriving DecidableEq, Repr

def Error.message : Error → String
  | .nonAscii index =>
    s!"provided string contained non-ascii character starting at byte {index}"
  | .invalidCharacter c index =>
    s!"provided string contained invalid character {Text.quoteChar c} at byte {index}"

def alphabet : List Char := "123456789ABCDEFGHJKLMNPQRSTUVWXYZabcdefghijkmnopqrstuvwxyz".toList

/-- Digits of `n`, least significant first. -/
def digits (base n : Nat) : List Nat :=
  if _ : base < 2 ∨ n = 0 then []
  else n % base :: digits base (n / base)
termination_by n
decreasing_by exact Nat.div_lt_self (by omega) (by omega)

def encode (b : Bytes) : String :=
  let zeros := b.takeWhile (· = 0)
  let numeral := (digits 58 (Bytes.toNatBig b)).reverse
  String.ofList (zeros.map (fun _ => '1') ++ numeral.map (alphabet.getD · '1'))

def readDigits : Nat → Bytes → Except Error (List Nat)
  | _, [] => .ok []
  | index, b :: rest =>
    if 128 ≤ b.toNat then .error (.nonAscii index)
    else
      let c := Char.ofNat b.toNat
      match alphabet.findIdx? (· = c) with
      | none => .error (.invalidCharacter c index)
      | some d => do return d :: (← readDigits (index + 1) rest)

def decode (s : String) : Except Error Bytes := do
  let ds ← readDigits 0 (Bytes.ofString s)
  let zeros := ds.takeWhile (· = 0)
  let n := ds.foldl (fun n d => 58 * n + d) 0
  return zeros.map (fun _ => 0) ++ (digits 256 n).reverse.map UInt8.ofNat

end SporkNode.Wallet.Base58
