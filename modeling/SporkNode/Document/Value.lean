/-!
Documents and the records read from them. A record is a table with its fields by name or a list
with its fields in order. Decoding is strict about what it knows: a field may not come twice, must
have its type and its range; what it does not know it skips, unless the record is closed.
-/

namespace SporkNode.Document

inductive Value
  | null
  | bool (b : Bool)
  | integer (n : Int)
  | text (s : String)
  /-- A well-formed scalar that no record holds, such as a fraction. -/
  | foreign
  | list (items : List Value)
  /-- A key that is not a text has no name. -/
  | table (entries : List (Option String × Value))

namespace Value

def object (entries : List (String × Value)) : Value :=
  .table (entries.map fun e => (some e.1, e.2))

def optional (encode : α → Value) : Option α → Value
  | some a => encode a
  | none => .null

end Value

/-- What document languages disagree on. -/
structure Format where
  /-- A list that has more items than the record fields is refused. -/
  exactLists : Bool
  /-- A large number may be a list of its bytes. -/
  byteLists : Bool
  isUnit : Value → Bool

abbrev Decode (α : Type) : Type := Format → Value → Option α

namespace Decode

def bool : Decode Bool
  | _, .bool b => some b
  | _, _ => none

def text : Decode String
  | _, .text s => some s
  | _, _ => none

def integer (low high : Int) : Decode Int
  | _, .integer n => if low ≤ n ∧ n ≤ high then some n else none
  | _, _ => none

def int32 : Decode Int := integer Int32.minValue.toInt Int32.maxValue.toInt

def int64 : Decode Int := integer Int64.minValue.toInt Int64.maxValue.toInt

/-- A number below `size`. -/
def below (size : Nat) : Decode Nat := fun f v => (integer 0 (size - 1) f v).map Int.toNat

def byte : Decode UInt8 := fun f v => (below UInt8.size f v).map UInt8.ofNat

def word32 : Decode UInt32 := fun f v => (below UInt32.size f v).map UInt32.ofNat

def word64 : Decode Nat := below UInt64.size

def optional (decode : Decode α) : Decode (Option α)
  | _, .null => some none
  | f, v => (decode f v).map some

def list (decode : Decode α) : Decode (List α)
  | f, .list items => items.mapM (decode f)
  | _, _ => none

/-- A list of exactly `n` items; a format may allow more, which are dropped. -/
def tuple (n : Nat) (decode : Decode α) : Decode (List α)
  | f, .list items =>
    if items.length = n ∨ (n < items.length ∧ !f.exactLists) then (items.take n).mapM (decode f)
    else none
  | _, _ => none

/-- A name alone, or the only key of a table with nothing to say. -/
def name (known : String → Option α) : Decode α
  | _, .text s => known s
  | f, .table [(some s, v)] => if f.isUnit v then known s else none
  | _, _ => none

end Decode

/-- The fields of a record, found by name. -/
structure Fields where
  format : Format
  entries : List (String × Value)
  inOrder : Bool

namespace Fields

/-- `closed` records refuse fields that they do not know. -/
def ofValue? (names : List String) (closed : Bool) : Decode Fields
  | f, .table entries => do
    let entries ← entries.mapM fun e => e.1.map (·, e.2)
    let known := entries.filter (·.1 ∈ names)
    if (known.map (·.1)).Nodup ∧ (closed → known.length = entries.length) then
      some ⟨f, known, false⟩
    else none
  | f, .list items =>
    if names.length < items.length ∧ f.exactLists then none
    else some ⟨f, names.zip items, true⟩
  | _, _ => none

def get? (r : Fields) (name : String) : Option Value := r.entries.lookup name

def required (r : Fields) (name : String) (decode : Decode α) : Option α := do
  decode r.format (← r.get? name)

def withDefault (r : Fields) (name : String) (decode : Decode α) (value : α) : Option α :=
  match r.get? name with
  | some v => decode r.format v
  | none => some value

/-- A field that may be missing from a table, though not from a list. -/
def optional (r : Fields) (name : String) (decode : Decode α) : Option (Option α) :=
  match r.get? name with
  | some v => decode.optional r.format v
  | none => if r.inOrder then none else some none

end Fields

end SporkNode.Document
