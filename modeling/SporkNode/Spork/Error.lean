import SporkNode.Signature.Message
import SporkNode.Wallet.ImportFormat

/-!
What can go wrong with a spork.
-/

namespace SporkNode.Spork

inductive StoreError
  | io (reason : String)
  | corruption (id : Int32) (error : Wire.WireError)
  deriving DecidableEq, Repr

inductive KeyFault
  | hex (error : Text.HexError)
  | notAPoint
  | importing (error : Wallet.ImportError)
  | notTheAuthority
  deriving DecidableEq, Repr

inductive SporkError
  | malformed (error : Wire.WireError)
  | invalidKey (fault : KeyFault)
  | signing (error : Signature.SignatureError)
  | noSigningKey
  | store (error : StoreError)
  deriving DecidableEq, Repr

def malformedMessage (e : Wire.WireError) : String :=
  "malformed spork message: " ++ e.message

def StoreError.message : StoreError → String
  | .io reason => "KV store I/O error: " ++ reason
  | .corruption id e => s!"KV store corruption: spork {id.toInt}: " ++ malformedMessage e

def KeyFault.message : KeyFault → String
  | .hex e => "spork pubkey: " ++ e.message
  | .notAPoint => Signature.SignatureError.invalidPublicKey.message
  | .importing e => e.message
  | .notTheAuthority => "key does not match the network spork key"

def SporkError.message : SporkError → String
  | .malformed e => malformedMessage e
  | .invalidKey fault => "invalid spork signing key: " ++ fault.message
  | .signing e => "signing failed: " ++ e.message
  | .noSigningKey => "no spork signing key configured"
  | .store e => "spork store failure: " ++ e.message

/-- The text of an error, then that of the error within it. -/
def SporkError.causes (e : SporkError) : List String :=
  e.message ::
    match e with
    | .malformed inner => [inner.message]
    | .signing inner => [inner.message]
    | .store inner => [inner.message]
    | .invalidKey _ | .noSigningKey => []

end SporkNode.Spork
