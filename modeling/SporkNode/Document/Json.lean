import SporkNode.Document.Scan
import SporkNode.Document.Value

/-!
JSON documents. A number without fraction and exponent that fits 64 bits, signed or not, is an
integer; minus zero is not. Text that escapes half of a surrogate pair is let through, since it may
stand where nothing looks at it.
-/

namespace SporkNode.Document.Json

def format : Format := ⟨true, false, fun v => v matches .null⟩

private def isBlank (c : Char) : Bool := c = ' ' || c = '\n' || c = '\t' || c = '\r'

private def blanks : Scan Unit := do let _ ← Scan.takeWhile isBlank

/-- The value of a number whose whole part is `digits`. -/
def integerOf (negative : Bool) (digits : Nat) : Value :=
  if negative then
    let n := -(digits : Int)
    if digits = 0 ∨ n < Int64.minValue.toInt then .foreign else .integer n
  else if UInt64.size ≤ digits then .foreign else .integer digits

private def number : Scan Value := do
  let negative ← Scan.accept "-"
  let digits ← Scan.takeWhile1 isDigit
  if digits.head? = some '0' ∧ 1 < digits.length then failure
  let fraction ← Scan.accept "."
  if fraction then let _ ← Scan.takeWhile1 isDigit
  let exponent := (← Scan.peek?) = some 'e' || (← Scan.peek?) = some 'E'
  if exponent then
    let _ ← Scan.next
    unless ← Scan.accept "+" do let _ ← Scan.accept "-"
    let _ ← Scan.takeWhile1 isDigit
  if fraction || exponent then return .foreign
  else return integerOf negative (← StateT.lift (natOfDigits 10 digits))

/-- One unit of a text; `none` for half of a surrogate pair. -/
private def escaped : Scan (Option Char) := do
  match ← Scan.next with
  | '"' => return some '"'
  | '\\' => return some '\\'
  | '/' => return some '/'
  | 'b' => return some '\x08'
  | 'f' => return some '\x0c'
  | 'n' => return some '\n'
  | 'r' => return some '\r'
  | 't' => return some '\t'
  | 'u' =>
    let high ← Scan.hexadecimal 4
    if 0xd800 ≤ high ∧ high < 0xdc00 then
      let rest ← get
      if ← Scan.accept "\\u" then
        let low ← Scan.hexadecimal 4
        if 0xdc00 ≤ low ∧ low < 0xe000 then
          return scalar? (0x10000 + (high - 0xd800) * 0x400 + (low - 0xdc00))
        else
          set rest
          return none
      else return none
    else return scalar? high
  | _ => failure

private def textUnits : Nat → Scan (List (Option Char))
  | 0 => failure
  | n + 1 => do
    match ← Scan.next with
    | '"' => return []
    | '\\' => return (← escaped) :: (← textUnits n)
    | c => if c.toNat < 0x20 then failure else return some c :: (← textUnits n)

/-- A text after its opening quote; `none` if it is no sequence of characters. -/
private def quoted : Scan (Option String) := do
  let units ← textUnits ((← get).length + 1)
  return (units.mapM id).map String.ofList

mutual

private def value : Nat → Scan Value
  | 0 => failure
  | n + 1 => do
    blanks
    if ← Scan.accept "null" then return .null
    else if ← Scan.accept "true" then return .bool true
    else if ← Scan.accept "false" then return .bool false
    else if ← Scan.accept "\"" then
      match ← quoted with
      | some s => return .text s
      | none => return .foreign
    else if ← Scan.accept "[" then
      blanks
      if ← Scan.accept "]" then return .list [] else return .list (← items n)
    else if ← Scan.accept "\x7b" then
      blanks
      if ← Scan.accept "\x7d" then return .table [] else return .table (← entries n)
    else number

private def items : Nat → Scan (List Value)
  | 0 => failure
  | n + 1 => do
    let v ← value n
    blanks
    if ← Scan.accept "," then return v :: (← items n)
    else do
      Scan.char ']'
      return [v]

private def entries : Nat → Scan (List (Option String × Value))
  | 0 => failure
  | n + 1 => do
    blanks
    Scan.char '"'
    let key ← quoted
    blanks
    Scan.char ':'
    let v ← value n
    blanks
    if ← Scan.accept "," then return (key, v) :: (← entries n)
    else do
      Scan.char '\x7d'
      return [(key, v)]

end

/-- Each step of the fuel takes at least one character, or ends. -/
def parse (text : String) : Option Value :=
  Scan.run? (do
    let v ← value (2 * text.length + 2)
    blanks
    return v) text

def decode (d : Decode α) (text : String) : Option α := do d format (← parse text)

end SporkNode.Document.Json
