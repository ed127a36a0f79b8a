import Std.Data.HashMap
import SporkNode.Spork.Message

/-!
The last accepted message of each parameter, kept as its wire form under its number. The store
below is a map of byte strings that may be out of order, and then every access fails alike.
-/

namespace SporkNode.Spork

structure Store where
  records : Std.HashMap Bytes Bytes
  fault? : Option StoreError

namespace Store

def empty : Store := ⟨∅, none⟩

def attempt (s : Store) (result : α) : Except StoreError α :=
  match s.fault? with
  | none => .ok result
  | some e => .error e

def get (s : Store) (key : Bytes) : Except StoreError (Option Bytes) := s.attempt s.records[key]?

def put (s : Store) (key value : Bytes) : Except StoreError Store :=
  s.attempt { s with records := s.records.insert key value }

def has (s : Store) (key : Bytes) : Except StoreError Bool := s.attempt (s.records.contains key)

def flush (s : Store) : Except StoreError Unit := s.attempt ()

/-- The key of a parameter's record. -/
def keyOf (id : Int32) : Bytes := (Wire.Item.i32 id).encode

def write (s : Store) (m : Message) : Except StoreError Store := s.put (keyOf m.id) m.encode

def read (s : Store) (id : Int32) : Except StoreError (Option Message) := do
  match ← s.get (keyOf id) with
  | none => return none
  | some b =>
    match Message.decode b with
    | .ok m => return some m
    | .error e => throw (.corruption id e)

def exists? (s : Store) (id : Int32) : Except StoreError Bool := s.has (keyOf id)

end Store

end SporkNode.Spork
