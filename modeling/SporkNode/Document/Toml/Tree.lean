import SporkNode.Document.Value

/-!
Tables as a configuration file builds them, statement by statement. A table may be opened by one
header only, a table spelled out by dotted keys is closed to headers, and a list of tables grows by
its own kind of header; whatever else names a table twice is refused.
-/

namespace SporkNode.Document.Toml

inductive Origin
  | header
  /-- Named on the way to another table. -/
  | implied
  | dotted
  deriving DecidableEq, Repr

inductive Node
  | leaf (v : Value)
  | table (origin : Origin) (entries : List (String × Node))
  | series (tables : List (List (String × Node)))

abbrev Entries : Type := List (String × Node)

mutual

def Node.toValue : Node → Value
  | .leaf v => v
  | .table _ entries => .table (entriesToValue entries)
  | .series tables => .list (seriesToValue tables)

def entriesToValue : List (String × Node) → List (Option String × Value)
  | [] => []
  | e :: rest => (some e.1, e.2.toValue) :: entriesToValue rest

def seriesToValue : List (List (String × Node)) → List Value
  | [] => []
  | t :: rest => .table (entriesToValue t) :: seriesToValue rest

end

def put (key : String) (n : Node) : Entries → Entries
  | [] => [(key, n)]
  | e :: rest => if e.1 = key then (key, n) :: rest else e :: put key n rest

/-- Change the table at the end of a path, making the tables on the way. -/
def within (dotted : Bool) (change : Origin → Entries → Option Entries) :
    List String → Origin → Entries → Option Entries
  | [], origin, entries => change origin entries
  | key :: path, _, entries =>
    match entries.lookup key with
    | none => do
      let origin := if dotted then .dotted else .implied
      return put key (.table origin (← within dotted change path origin [])) entries
    | some (.leaf _) => none
    | some (.table origin inner) =>
      if dotted ∧ origin = .header then none
      else do return put key (.table origin (← within dotted change path origin inner)) entries
    | some (.series tables) => do
      let inner ← within dotted change path .header (tables.getLast?.getD [])
      return put key (.series (tables.dropLast ++ [inner])) entries

/-- Add an entry under a dotted key; tables on the way must be spelled out by dotted keys too. -/
def addEntry (path : List String) (key : String) (v : Value) : Origin → Entries → Option Entries :=
  within true (fun origin entries =>
    if (origin = .dotted) = path.isEmpty ∨ (entries.lookup key).isSome then none
    else some (put key (.leaf v) entries)) path

def openTable (path : List String) (key : String) (root : Entries) : Option Entries :=
  within false (fun _ entries =>
    match entries.lookup key with
    | none => some (put key (.table .header []) entries)
    | some (.table .implied inner) => some (put key (.table .header inner) entries)
    | some _ => none) path .header root

def openSeries (path : List String) (key : String) (root : Entries) : Option Entries :=
  within false (fun _ entries =>
    match entries.lookup key with
    | none => some (put key (.series [[]]) entries)
    | some (.series tables) => some (put key (.series (tables ++ [[]])) entries)
    | some _ => none) path .header root

/-- A key with the path before it. -/
structure Key where
  path : List String
  last : String
  deriving DecidableEq, Repr

inductive Statement
  | entry (key : Key) (v : Value)
  | table (key : Key)
  | series (key : Key)

/-- Entries belong to the table of the last header. -/
def build : List Statement → List String → Entries → Option Entries
  | [], _, root => some root
  | .entry k v :: rest, current, root => do
    build rest current (← within false (addEntry k.path k.last v) current .header root)
  | .table k :: rest, _, root => do
    build rest (k.path ++ [k.last]) (← openTable k.path k.last root)
  | .series k :: rest, _, root => do
    build rest (k.path ++ [k.last]) (← openSeries k.path k.last root)

def documentOf (statements : List Statement) : Option Value :=
  (build statements [] []).map fun root => .table (entriesToValue root)

/-- A table written within braces. -/
def inlineTable (entries : List (Key × Value)) : Option Value :=
  (entries.foldlM (fun es e => addEntry e.1.path e.1.last e.2 .header es) []).map fun es =>
    .table (entriesToValue es)

end SporkNode.Document.Toml
