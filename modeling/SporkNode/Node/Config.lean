import SporkNode.Document.Records
import SporkNode.Document.Toml

/-!
The configuration of a node: defaults, then a document, then the environment. What cannot be run
with is refused before anything is opened. Reports never show the signing key.
-/

namespace SporkNode.Node

open Document

inductive Backend
  | memory | sled | rocksDb
  deriving DecidableEq, Repr

namespace Backend

def name : Backend → String
  | memory => "memory"
  | sled => "sled"
  | rocksDb => "rocksdb"

def label : Backend → String
  | memory => "Memory"
  | sled => "Sled"
  | rocksDb => "RocksDb"

def ofName? : String → Option Backend
  | "memory" => some memory
  | "sled" => some sled
  | "rocksdb" => some rocksDb
  | _ => none

/-- Whether nothing survives a restart. -/
def isVolatile (b : Backend) : Bool := b = memory

end Backend

inductive Variable
  | network | dataDir | sporkKey | log
  deriving DecidableEq, Repr

def Variable.name : Variable → String
  | network => "GC_NETWORK"
  | dataDir => "GC_DATA_DIR"
  | sporkKey => "GC_SPORK_KEY"
  | log => "GC_LOG"

inductive ConfigError
  | unreadable
  | parse
  | invalidValue (key value : String)
  | backendUnavailable (b : Backend)
  deriving DecidableEq, Repr

def ConfigError.message : ConfigError → String
  | .unreadable => "failed to read config file"
  | .parse => "invalid config"
  | .invalidValue key value => "invalid value for " ++ key ++ ": " ++ value
  | .backendUnavailable b => "storage backend '" ++ b.name ++ "' is not available in this build"

structure Storage where
  backend : Backend := .sled
  dataDir : String := "./data"
  deriving DecidableEq, Repr

structure Sporks where
  signingKey? : Option String := none
  publicKey? : Option String := none
  limits : Spork.Limits := .default
  deriving DecidableEq, Repr

structure Config where
  network : Work.Network := .main
  storage : Storage := {}
  sporks : Sporks := {}
  logLevel : String := "info"
  deriving DecidableEq, Repr

/-! ## Documents -/

def Storage.decode : Decode Storage := fun f v => do
  let r ← Fields.ofValue? ["backend", "data_dir"] true f v
  return ⟨← r.withDefault "backend" (.name Backend.ofName?) .sled,
    ← r.withDefault "data_dir" .text "./data"⟩

def Sporks.decode : Decode Sporks := fun f v => do
  let r ← Fields.ofValue? ["signing_key", "spork_pubkey", "governor"] true f v
  return ⟨← r.withDefault "signing_key" (.optional .text) none,
    ← r.withDefault "spork_pubkey" (.optional .text) none,
    ← r.withDefault "governor" .limits .default⟩

namespace Config

private def logging : Decode String := fun f v => do
  let r ← Fields.ofValue? ["level"] true f v
  r.withDefault "level" .text "info"

def decode : Decode Config := fun f v => do
  let r ← Fields.ofValue? ["network", "storage", "sporks", "logging"] true f v
  return ⟨← r.withDefault "network" .network .main,
    ← r.withDefault "storage" Storage.decode {}, ← r.withDefault "sporks" Sporks.decode {},
    ← r.withDefault "logging" logging "info"⟩

def ofText (text : String) : Except ConfigError Config :=
  match Toml.decode decode text with
  | some c => .ok c
  | none => .error .parse

/-! ## Environment and checks -/

def override (c : Config) (lookup : Variable → Option String) : Except ConfigError Config := do
  let network ← match lookup .network with
    | none => pure c.network
    | some name =>
      (Work.Network.ofName name).mapError fun _ => .invalidValue Variable.network.name name
  return { network := network
           storage := { c.storage with dataDir := (lookup .dataDir).getD c.storage.dataDir }
           sporks := { c.sporks with signingKey? := (lookup .sporkKey).or c.sporks.signingKey? }
           logLevel := (lookup .log).getD c.logLevel }

def validate (c : Config) : Except ConfigError Unit :=
  if c.storage.backend = .rocksDb then .error (.backendUnavailable .rocksDb)
  else if c.sporks.limits.minInterval < 0 then
    .error (.invalidValue "sporks.governor.min_interval_secs"
      (toString c.sporks.limits.minInterval))
  else if c.sporks.limits.maxBlocks < 0 then
    .error (.invalidValue "sporks.governor.max_blocks" (toString c.sporks.limits.maxBlocks))
  else .ok ()

/-- From the text of the configuration file, if one is named. -/
def load (file? : Option (Option String)) (lookup : Variable → Option String) :
    Except ConfigError Config := do
  let c ← match file? with
    | none => pure {}
    | some none => throw .unreadable
    | some (some text) => ofText text
  let c ← c.override lookup
  c.validate
  return c

/-! ## What follows from it -/

def chainParams (c : Config) : Work.ChainParams := .ofNetwork c.network

def sporkSettings (c : Config) : Spork.Settings :=
  let s := Spork.Settings.ofNetwork c.network
  { s with publicKey? := c.sporks.publicKey?.or s.publicKey? }

/-- A relative name below a directory, which may end in a slash of its own or be empty. -/
private def below (dir name : String) : String :=
  if dir.isEmpty ∨ dir.toList.getLast? = some '/' then dir ++ name else dir ++ "/" ++ name

def storePath (c : Config) : String := below (below c.storage.dataDir c.network.name) "sporks"

private def networkLabel : Work.Network → String
  | .main => "Main"
  | .test => "Test"
  | .regtest => "Regtest"

private def optionReport : Option String → String
  | none => "None"
  | some s => "Some(" ++ Text.quote s ++ ")"

private def limitsReport (l : Spork.Limits) : String :=
  Text.record "GovernorConfig"
    [("min_interval_secs", toString l.minInterval), ("max_blocks", toString l.maxBlocks)]

def report (c : Config) : String :=
  Text.record "NodeConfig"
    [("network", networkLabel c.network),
     ("storage", Text.record "StorageConfig"
       [("backend", c.storage.backend.label), ("data_dir", Text.quote c.storage.dataDir)]),
     ("sporks", Text.record "SporkConfig"
       [("signing_key", optionReport (c.sporks.signingKey?.map fun _ => "<redacted>")),
        ("spork_pubkey", optionReport c.sporks.publicKey?),
        ("governor", limitsReport c.sporks.limits)]),
     ("logging", Text.record "LoggingConfig" [("level", Text.quote c.logLevel)])]

end Config

end SporkNode.Node
