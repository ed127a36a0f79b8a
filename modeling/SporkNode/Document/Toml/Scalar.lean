import SporkNode.Document.Scan
import SporkNode.Document.Value
import SporkNode.Text.Calendar

/-!
TOML scalars that are not text: booleans, numbers, dates and times of day. Fractions and dates are
checked and then forgotten, since no record holds them.
-/

namespace SporkNode.Document.Toml

/-- Digits that may be grouped by single underscores. -/
private def ungroup (p : Char → Bool) : List Char → Option (List Char)
  | [] => none
  | [c] => if p c then some [c] else none
  | c :: '_' :: rest => if p c then (ungroup p rest).map (c :: ·) else none
  | c :: rest => if p c then (ungroup p rest).map (c :: ·) else none

private def signSplit : List Char → Bool × List Char
  | '-' :: cs => (true, cs)
  | '+' :: cs => (false, cs)
  | cs => (false, cs)

private def signed (negative : Bool) (n : Nat) : Int := if negative then -n else n

/-- Decimal digits without a zero in front. -/
private def wholeDigits (cs : List Char) : Option (List Char) := do
  let digits ← ungroup isDigit cs
  if digits.head? = some '0' ∧ 1 < digits.length then none else some digits

/-! ## Integers -/

private def ranged (n : Int) : Option Value :=
  if Int64.minValue.toInt ≤ n ∧ n ≤ Int64.maxValue.toInt then some (.integer n) else none

private def integerOf? (cs : List Char) : Option Value :=
  let based (base : Nat) (digits : List Char) : Option Value := do
    let digits ← ungroup (fun c => ((Text.nibble? c).map (decide <| · < base)).getD false) digits
    ranged (← natOfDigits base digits)
  match cs with
  | '0' :: 'x' :: rest => based 16 rest
  | '0' :: 'o' :: rest => based 8 rest
  | '0' :: 'b' :: rest => based 2 rest
  | cs => do
    let (negative, digits) := signSplit cs
    ranged (signed negative (← natOfDigits 10 (← wholeDigits digits)))

/-! ## Fractions -/

/-- A numeral with a fraction, an exponent or both. Its magnitude is zero, a point and `digits`,
times ten to the power `point`; the first of the digits is not zero. -/
structure Fraction where
  negative : Bool
  digits : List Char
  point : Int

private def isExponentMark (c : Char) : Bool := c = 'e' || c = 'E'

private def exponent? : List Char → Option Int
  | [] => some 0
  | _ :: cs => do
    let (negative, digits) := signSplit cs
    return signed negative (← natOfDigits 10 (← ungroup isDigit digits))

def fraction? (cs : List Char) : Option Fraction := do
  let (negative, body) := signSplit cs
  let mantissa := body.takeWhile (!isExponentMark ·)
  let exponent := body.dropWhile (!isExponentMark ·)
  let decimals := mantissa.dropWhile (· ≠ '.')
  if decimals.isEmpty ∧ exponent.isEmpty then none
  let whole ← wholeDigits (mantissa.takeWhile (· ≠ '.'))
  let decimals ← if decimals.isEmpty then some [] else ungroup isDigit (decimals.drop 1)
  let digits := whole ++ decimals
  let significant := digits.dropWhile (· = '0')
  return ⟨negative, significant,
    whole.length + (← exponent? exponent) - (digits.length - significant.length : Nat)⟩

/-- The least number that rounds to infinity: half a unit above the greatest double, since a tie
goes up to the even neighbour. It has 309 digits. -/
def doubleBound : Nat := (1 <<< 1024) - (1 <<< 970)

/-- Whether the magnitude reaches `doubleBound`. -/
def Fraction.isHuge (x : Fraction) : Bool :=
  if x.digits.isEmpty ∨ x.point < 309 then false
  else
    309 < x.point ||
      ((natOfDigits 10 ((x.digits ++ List.replicate 309 '0').take 309)).map
        (decide <| doubleBound ≤ ·)).getD false

/-- A fraction may be as far below zero as it likes, though not above. -/
private def fractionOf? (cs : List Char) : Option Value := do
  let x ← fraction? cs
  if !x.negative && x.isHuge then none else some .foreign

private def plain? (cs : List Char) : Option Value :=
  match String.ofList cs with
  | "true" => some (.bool true)
  | "false" => some (.bool false)
  | "inf" | "+inf" | "-inf" | "nan" | "+nan" | "-nan" => some .foreign
  | _ => (integerOf? cs).orElse fun _ => fractionOf? cs

private def isScalarChar (c : Char) : Bool :=
  isDigit c || c.isAlpha || c = '_' || c = '-' || c = '+' || c = '.'

/-! ## Dates and times -/

/-- A numeral of `width` digits that lies between two bounds. -/
private def field (width low high : Nat) : Scan Nat := do
  let rest ← get
  let digits := rest.take width
  if digits.length = width ∧ digits.all isDigit then
    set (rest.drop width)
    let n ← StateT.lift (natOfDigits 10 digits)
    if low ≤ n ∧ n ≤ high then return n else failure
  else failure

private def date : Scan Unit := do
  let year ← field 4 0 9999
  Scan.char '-'
  let month ← field 2 1 12
  Scan.char '-'
  let _ ← field 2 1 (Text.daysInMonth year month)

private def hourAndMinute : Scan Unit := do
  let _ ← field 2 0 23
  Scan.char ':'
  let _ ← field 2 0 59

/-- Any minute may have a leap second. -/
private def timeOfDay : Scan Unit := do
  hourAndMinute
  Scan.char ':'
  let _ ← field 2 0 60
  if ← Scan.accept "." then let _ ← Scan.takeWhile1 isDigit

private def offset : Scan Unit := do
  match ← get with
  | 'Z' :: rest | 'z' :: rest => set rest
  | '+' :: rest | '-' :: rest =>
    set rest
    hourAndMinute
  | _ => return ()

/-- A time may follow a date after a blank, but so may anything else. -/
private def timeOfDate : Scan Unit := do
  match ← get with
  | 'T' :: rest | 't' :: rest =>
    set rest
    timeOfDay
    offset
  | ' ' :: c :: rest =>
    if isDigit c then
      set (c :: rest)
      timeOfDay
      offset
  | _ => return ()

/-- Whether `width` digits and then `mark` come first. -/
private def opens (width : Nat) (mark : Char) (cs : List Char) : Bool :=
  (cs.take width).all isDigit && cs[width]? = some mark

/-- A boolean, a number, or a moment in time. -/
def scalar : Scan Value := do
  let rest ← get
  if opens 4 '-' rest then
    date
    timeOfDate
    return .foreign
  else if opens 2 ':' rest then
    timeOfDay
    return .foreign
  else StateT.lift (plain? (← Scan.takeWhile1 isScalarChar))

end SporkNode.Document.Toml
