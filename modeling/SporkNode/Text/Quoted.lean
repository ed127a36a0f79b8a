import SporkNode.Text.Printable

/-!
Quoted text for reports: the delimiter, the backslash and the common controls take a backslash,
and every other character that does not print takes its code point in hexadecimal.
-/

namespace SporkNode.Text

def hexDigit (n : Nat) : Char := "0123456789abcdef".toList.getD n '0'

/-- Hexadecimal numeral without leading zeros. -/
def hexNumeral (n : Nat) : String := String.ofList ((Nat.toDigits 16 n))

/-- Hexadecimal numeral filled up with zeros on the left. -/
def hexPadded (width n : Nat) : String :=
  let digits := Nat.toDigits 16 n
  String.ofList (List.replicate (width - digits.length) '0' ++ digits)

private def escape (delimiter c : Char) : List Char :=
  if c = '\x00' then ['\\', '0']
  else if c = '\t' then ['\\', 't']
  else if c = '\r' then ['\\', 'r']
  else if c = '\n' then ['\\', 'n']
  else if c = '\\' then ['\\', '\\']
  else if c = delimiter then ['\\', c]
  else if isPrintable c then [c]
  else ['\\', 'u', '\x7b'] ++ Nat.toDigits 16 c.toNat ++ ['\x7d']

private def quoteWith (delimiter : Char) (cs : List Char) : String :=
  String.ofList (delimiter :: cs.flatMap (escape delimiter) ++ [delimiter])

def quote (s : String) : String := quoteWith '"' s.toList

def quoteChar (c : Char) : String := quoteWith '\'' [c]

/-- A record written on one line with its field names. -/
def record (name : String) (fields : List (String × String)) : String :=
  name ++ " \x7b " ++ ", ".intercalate (fields.map fun f => f.1 ++ ": " ++ f.2) ++ " \x7d"

end SporkNode.Text
