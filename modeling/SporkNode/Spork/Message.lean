import SporkNode.Spork.Authority
import SporkNode.Spork.Registry
import SporkNode.Wire.Item

/-!
A signed override of one parameter. Its identity covers the number, the value and the time, not
the signature, so writing the signature differently does not make another message. What is signed
is the three of them in decimal, run together.
-/

namespace SporkNode.Spork

open Signature Wire

structure Message where
  id : Int32
  value : Int64
  time : Int64
  signature : Bytes
  deriving DecidableEq, Repr

namespace Message

def unsigned (id : Int32) (value time : Int64) : Message := ⟨id, value, time, []⟩

def signingText (m : Message) : String :=
  toString m.id.toInt ++ toString m.value.toInt ++ toString m.time.toInt

/-- The bytes that make a message what it is. -/
def identity (m : Message) : Bytes := encodeAll [.i32 m.id, .i64 m.value, .i64 m.time]

def hash (m : Message) : Hash := Digest.sha256d m.identity

def encode (m : Message) : Bytes := m.identity ++ encodeVar m.signature

def parse : Parse Message := do
  let id ← Parse.i32
  let value ← Parse.i64
  let time ← Parse.i64
  let signature ← Parse.var
  Parse.finish
  return ⟨id, value, time, signature⟩

/-- A message and nothing after it. -/
def decode (b : Bytes) : Except WireError Message := (parse.on b).1

def sign [Scheme] (m : Message) (s : Signer) : Except SporkError Message := do
  return { m with signature := (← s.sign m.signingText).bytes }

def verifies [Scheme] (m : Message) (a : Authority) : Bool := a.verify m.signingText m.signature

def display (m : Message) : String :=
  s!"{nameOf m.id} ({m.id.toInt}) = {m.value.toInt} signed at {m.time.toInt}"

def report (m : Message) : String :=
  Text.record "SporkMessage"
    [("spork_id", toString m.id.toInt), ("value", toString m.value.toInt),
     ("time_signed", toString m.time.toInt),
     ("signature", Text.quote (Text.hexOfBytes m.signature))]

end Message

end SporkNode.Spork
