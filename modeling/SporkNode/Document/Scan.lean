import SporkNode.Text.Hex

/-!
Reading a text character by character; a scanner fails or leaves the rest of the text.
-/

namespace SporkNode.Document

abbrev Scan (α : Type) : Type := StateT (List Char) Option α

namespace Scan

def peek? : Scan (Option Char) := return (← get).head?

def next : Scan Char := do
  match ← get with
  | [] => failure
  | c :: rest => set rest; return c

def atEnd : Scan Bool := return (← get).isEmpty

def char (c : Char) : Scan Unit := do if (← next) = c then return () else failure

/-- Take `word` if it comes next. -/
def accept (word : String) : Scan Bool := do
  let cs := word.toList
  let rest ← get
  if cs.isPrefixOf rest then
    set (rest.drop cs.length)
    return true
  else return false

def takeWhile (p : Char → Bool) : Scan (List Char) := do
  let rest ← get
  set (rest.dropWhile p)
  return rest.takeWhile p

def takeWhile1 (p : Char → Bool) : Scan (List Char) := do
  match ← takeWhile p with
  | [] => failure
  | cs => return cs

/-- A numeral of exactly `n` hexadecimal digits. -/
def hexadecimal (n : Nat) : Scan Nat := do
  let rest ← get
  let digits := rest.take n
  if digits.length = n then
    set (rest.drop n)
    StateT.lift (Text.natOfHex? digits)
  else failure

def run? (s : Scan α) (text : String) : Option α := do
  match s text.toList with
  | some (a, []) => some a
  | _ => none

end Scan

def isDigit (c : Char) : Bool := '0' ≤ c && c ≤ '9'

def natOfDigits (base : Nat) (cs : List Char) : Option Nat :=
  cs.foldlM (fun n c => do
    let d ← Text.nibble? c
    if d < base then some (base * n + d) else none) 0

/-- A code point that is a character. -/
def scalar? (n : Nat) : Option Char := if h : n.isValidChar then some (Char.ofNatAux n h) else none

end SporkNode.Document
