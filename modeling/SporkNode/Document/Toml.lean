import SporkNode.Document.Toml.Scalar
import SporkNode.Document.Toml.Tree

/-!
TOML documents: comments, tables, dotted keys, basic and literal text on one or many lines,
scalars, lists and inline tables. Values within values and the parts of a key have a limit.
-/

namespace SporkNode.Document.Toml

private def isHollow : Value → Bool
  | .table entries => entries.isEmpty
  | .list items => items.isEmpty
  | _ => false

def format : Format := ⟨false, true, isHollow⟩

/-- A key has fewer parts than this, and fewer lists and inline tables lie within each other. -/
def depthLimit : Nat := 80

private def isSpace (c : Char) : Bool := c = ' ' || c = '\t'

private def spaces : Scan Unit := do let _ ← Scan.takeWhile isSpace

/-- Characters that may stand in a comment or a literal text. -/
private def isPlain (c : Char) : Bool := c = '\t' || (0x20 ≤ c.toNat && c.toNat ≠ 0x7f)

private def newline : Scan Bool := do
  if ← Scan.accept "\n" then return true else Scan.accept "\r\n"

private def comment : Scan Unit := do
  if ← Scan.accept "#" then let _ ← Scan.takeWhile isPlain

/-- The rest of a line that holds nothing more. -/
private def lineEnd : Scan Unit := do
  spaces
  comment
  if ← Scan.atEnd then return ()
  else if ← newline then return ()
  else failure

/-- Blanks, comments and line ends, between statements or the items of a list. -/
private def gap : Nat → Scan Unit
  | 0 => return ()
  | n + 1 => do
    spaces
    comment
    if ← newline then gap n else return ()

private def escapedChar : Scan Char := do
  match ← Scan.next with
  | 'b' => return '\x08'
  | 'f' => return '\x0c'
  | 'n' => return '\n'
  | 'r' => return '\r'
  | 't' => return '\t'
  | '"' => return '"'
  | '\\' => return '\\'
  | 'u' => StateT.lift (scalar? (← Scan.hexadecimal 4))
  | 'U' => StateT.lift (scalar? (← Scan.hexadecimal 8))
  | _ => failure

private def basicText : Nat → Scan (List Char)
  | 0 => failure
  | n + 1 => do
    match ← Scan.next with
    | '"' => return []
    | '\\' => return (← escapedChar) :: (← basicText n)
    | c => if isPlain c then return c :: (← basicText n) else failure

private def literalText : Nat → Scan (List Char)
  | 0 => failure
  | n + 1 => do
    match ← Scan.next with
    | '\'' => return []
    | c => if isPlain c then return c :: (← literalText n) else failure

/-- The end of a text of many lines, which up to two delimiters of its own may precede. -/
private def closing (delimiter : Char) : Scan (Option (List Char)) := do
  let run := (← get).takeWhile (· = delimiter)
  if 3 ≤ run.length ∧ run.length ≤ 5 then
    set ((← get).drop run.length)
    return some (run.drop 3)
  else if 5 < run.length then failure
  else return none

/-- Without the blanks and the line ends in front. -/
private def dropBlank : List Char → List Char
  | [] => []
  | '\r' :: '\n' :: cs => dropBlank cs
  | c :: cs => if isSpace c || c = '\n' then dropBlank cs else c :: cs

/-- What a backslash at the end of a line skips. -/
private def skipBlank : Scan Bool := do
  let rest ← get
  spaces
  if ← newline then
    set (dropBlank (← get))
    return true
  else
    set rest
    return false

private def basicLines : Nat → Scan (List Char)
  | 0 => failure
  | n + 1 => do
    match ← closing '"' with
    | some tail => return tail
    | none =>
      if ← newline then return '\n' :: (← basicLines n)
      else if ← Scan.accept "\\" then
        if ← skipBlank then basicLines n else return (← escapedChar) :: (← basicLines n)
      else
        let c ← Scan.next
        if isPlain c then return c :: (← basicLines n) else failure

private def literalLines : Nat → Scan (List Char)
  | 0 => failure
  | n + 1 => do
    match ← closing '\'' with
    | some tail => return tail
    | none =>
      if ← newline then return '\n' :: (← literalLines n)
      else
        let c ← Scan.next
        if isPlain c then return c :: (← literalLines n) else failure

private def isBare (c : Char) : Bool := isDigit c || c.isAlpha || c = '_' || c = '-'

private def simpleKey (n : Nat) : Scan String := do
  if ← Scan.accept "\"" then return String.ofList (← basicText n)
  else if ← Scan.accept "'" then return String.ofList (← literalText n)
  else return String.ofList (← Scan.takeWhile1 isBare)

private def keyParts : Nat → Scan (List String)
  | 0 => failure
  | n + 1 => do
    spaces
    let part ← simpleKey n
    spaces
    if ← Scan.accept "." then return part :: (← keyParts n) else return [part]

private def key (n : Nat) : Scan Key := do
  let parts ← keyParts n
  if depthLimit ≤ parts.length then failure
  match parts.reverse with
  | [] => failure
  | last :: path => return ⟨path.reverse, last⟩

private def text? (n : Nat) : Scan (Option String) := do
  if ← Scan.accept "\"\"\"" then
    let _ ← newline
    return some (String.ofList (← basicLines n))
  else if ← Scan.accept "'''" then
    let _ ← newline
    return some (String.ofList (← literalLines n))
  else if ← Scan.accept "\"" then return some (String.ofList (← basicText n))
  else if ← Scan.accept "'" then return some (String.ofList (← literalText n))
  else return none

private def deeper (depth : Nat) : Scan Nat :=
  if depth + 1 < depthLimit then return depth + 1 else failure

mutual

private def item : Nat → Nat → Scan Value
  | 0, _ => failure
  | n + 1, depth => do
    match ← text? n with
    | some s => return .text s
    | none =>
      if ← Scan.accept "[" then return .list (← items n (← deeper depth))
      else if ← Scan.accept "\x7b" then
        let depth ← deeper depth
        spaces
        if ← Scan.accept "\x7d" then return .table []
        else StateT.lift (inlineTable (← pairs n depth))
      else scalar

private def items : Nat → Nat → Scan (List Value)
  | 0, _ => failure
  | n + 1, depth => do
    gap n
    if ← Scan.accept "]" then return []
    else
      let v ← item n depth
      gap n
      if ← Scan.accept "," then return v :: (← items n depth)
      else do
        Scan.char ']'
        return [v]

private def pairs : Nat → Nat → Scan (List (Key × Value))
  | 0, _ => failure
  | n + 1, depth => do
    let k ← key n
    Scan.char '='
    spaces
    let v ← item n depth
    spaces
    if ← Scan.accept "," then return (k, v) :: (← pairs n depth)
    else do
      Scan.char '\x7d'
      return [(k, v)]

end

private def statement (n : Nat) : Scan Statement := do
  if ← Scan.accept "[[" then
    let k ← key n
    Scan.char ']'
    Scan.char ']'
    return .series k
  else if ← Scan.accept "[" then
    let k ← key n
    Scan.char ']'
    return .table k
  else
    let k ← key n
    Scan.char '='
    spaces
    return .entry k (← item n 0)

private def statements : Nat → Scan (List Statement)
  | 0 => failure
  | n + 1 => do
    gap n
    if ← Scan.atEnd then return []
    else
      let s ← statement n
      lineEnd
      return s :: (← statements n)

/-- A mark of the byte order may precede the document. A value within another comes with two
brackets, and every other step takes a character, so that the length of the text bounds them. -/
def parse (text : String) : Option Value := do
  let body := match text.toList with
    | '\ufeff' :: rest => rest
    | cs => cs
  documentOf (← Scan.run? (statements (body.length + 1)) (String.ofList body))

def decode (d : Decode α) (text : String) : Option α := do d format (← parse text)

end SporkNode.Document.Toml
