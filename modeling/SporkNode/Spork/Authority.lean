import SporkNode.Spork.Error
import SporkNode.Work.Params

/-!
Who may set sporks. A network names one public key and a magic for signatures; a signer holds the
private half, written in the network's own version of the import format.
-/

namespace SporkNode.Spork

open Signature

/-- How a network recognises its sporks. Without a key it accepts none. -/
structure Settings where
  publicKey? : Option String
  magic : String
  secretVersion : UInt8
  deriving DecidableEq, Repr

def defaultMagic : String := "Exosis Signed Message:\n"

namespace Settings

def main : Settings where
  publicKey? := some
    ("04b04aa6945d4c96bdd7a12263ea204a1172f6ea4ebc3b0fa148375f54bb42b365" ++
      "7e1dfee1a90fdf6387e07ad69920523d63d6e71fb3edda3afe0e7661f2e32bbe")
  magic := defaultMagic
  secretVersion := 111

def regtest : Settings := ⟨none, defaultMagic, 221⟩

def ofNetwork : Work.Network → Settings
  | .main => main
  | .test => main
  | .regtest => regtest

end Settings

structure Authority where
  key? : Option PublicKey
  magic : String
  deriving DecidableEq, Repr

namespace Authority

def ofSettings (s : Settings) : Except SporkError Authority :=
  match s.publicKey? with
  | none => .ok ⟨none, s.magic⟩
  | some text =>
    match Text.bytesOfHex text with
    | .error e => .error (.invalidKey (.hex e))
    | .ok b =>
      match PublicKey.ofBytes? b with
      | none => .error (.invalidKey .notAPoint)
      | some key => .ok ⟨some key, s.magic⟩

def verify [Scheme] (a : Authority) (text : String) (signature : Bytes) : Bool :=
  match a.key? with
  | none => false
  | some key => (verifyMessage key signature a.magic text).isOk

end Authority

structure Signer where
  key : KeyPair
  magic : String
  deriving DecidableEq

namespace Signer

def ofText (text : String) (s : Settings) : Except SporkError Signer :=
  match Wallet.importKey s.secretVersion text with
  | .ok key => .ok ⟨key, s.magic⟩
  | .error e => .error (.invalidKey (.importing e))

/-- A signature is handed out only once it verifies. -/
def sign [Scheme] (s : Signer) (text : String) : Except SporkError CompactSignature :=
  Except.mapError .signing do
    let signature ← signMessage s.key s.magic text
    verifyMessage s.key.publicKey signature.bytes s.magic text
    return signature

end Signer

end SporkNode.Spork
