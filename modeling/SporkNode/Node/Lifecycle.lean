import SporkNode.Chain.BlockIndex
import SporkNode.Node.Config
import SporkNode.Spork.Manager
import SporkNode.Work.Required

/-!
A running node. Peers' messages wait until the node is started and are handled as they come from
then on; after a shutdown none are taken. A restart keeps what the store keeps and forgets the
rest.
-/

namespace SporkNode

open Spork

namespace Node

inductive StartupError
  | params (error : Work.WorkError)
  | store (path reason : String)
  | settings (error : SporkError)
  | signingKey (error : SporkError)
  deriving DecidableEq, Repr

/-- What failed, then the causes in turn. A cause is named again though the text before it may
quote it. -/
def StartupError.causes : StartupError → List String
  | .params e => ["invalid chain parameters", e.message]
  | .store path reason =>
    ["failed to open spork store at " ++ path, "failed to create " ++ path ++ ": " ++ reason,
      reason]
  | .settings e => "invalid spork network configuration" :: e.causes
  | .signingKey e => "spork signing key rejected" :: e.causes

def StartupError.message (e : StartupError) : String := ": ".intercalate e.causes

inductive Inbound
  | spork (peer : PeerId) (payload : Bytes)
  | getSporks (peer : PeerId)
  deriving DecidableEq, Repr

inductive Handled
  | spork (outcome : Outcome)
  | malformed
  | sent (count : Nat)
  deriving DecidableEq, Repr

inductive Phase
  | waiting (queue : List Inbound)
  | running
  | stopped
  deriving DecidableEq, Repr

end Node

structure Node where
  config : Node.Config
  chain : Chain.BlockIndex
  sporks : Manager
  phase : Node.Phase
  /-- Whether anyone takes the node's outbound messages. -/
  listening : Bool

namespace Node

/-- What is done up to the end of a start; a start that fails late has done something too. -/
structure Startup where
  result : Except StartupError Node
  effects : List Effect

/-- The manager that has loaded nothing yet. `obstacle?` tells why the data directory cannot be
made, if it cannot. -/
private def prepare [Signature.Scheme] (config : Config) (store : Store)
    (obstacle? : Option String) : Except StartupError Manager := do
  config.chainParams.validate.mapError .params
  match obstacle? with
  | some reason =>
    unless config.storage.backend.isVolatile do throw (.store config.storePath reason)
  | none => pure ()
  (Manager.start config.sporkSettings config.sporks.limits store).mapError .settings

/-- The store is loaded before the signing key is looked at. -/
def start [Signature.Scheme] (config : Config) (store : Store) (obstacle? : Option String)
    (listening : Bool) : Startup :=
  let node (sporks : Manager) : Node := ⟨config, .empty, sporks, .waiting [], listening⟩
  match prepare config store obstacle? with
  | .error e => ⟨.error e, []⟩
  | .ok manager =>
    let loaded := manager.load
    match config.sporks.signingKey? with
    | none => ⟨.ok (node loaded.state), loaded.effects⟩
    | some text =>
      let installed := loaded.state.setKey text
      ⟨(installed.reply.mapError .signingKey).map fun _ => node installed.state,
        loaded.effects ++ installed.effects⟩

def world (n : Node) (clock : Clock) : World :=
  ⟨clock, fun _ => if n.listening then none else some "chain layer is not listening"⟩

def withSporks (n : Node) (s : Step Manager α) : Step Node α :=
  ⟨{ n with sporks := s.state }, s.reply, s.effects⟩

def handle [Signature.Scheme] (n : Node) (clock : Clock) : Inbound → Step Node Handled
  | .spork peer payload =>
    match Message.decode payload with
    | .error _ => ⟨n, .malformed, []⟩
    | .ok msg =>
      let s := n.sporks.process (n.world clock) peer msg
      n.withSporks ⟨s.state, .spork s.reply, s.effects⟩
  | .getSporks peer =>
    let s := n.sporks.sendAll peer
    n.withSporks ⟨s.state, .sent s.reply, s.effects⟩

/-- What the handler itself has to say; the manager's entries are effects of the step. -/
def handleLog : Inbound → List Log.Entry
  | .spork peer payload =>
    match Message.decode payload with
    | .error e =>
      [⟨.warn, "Dropping malformed spork message",
        [("peer", .text peer.display), ("error", .text (SporkError.malformed e).message)]⟩]
    | .ok _ => []
  | .getSporks _ => []

def handleAll [Signature.Scheme] (n : Node) (clock : Clock) (messages : List Inbound) :
    Step Node Unit :=
  messages.foldl (fun s m =>
    let next := s.state.handle clock m
    ⟨next.state, (), s.effects ++ next.effects⟩) ⟨n, (), []⟩

/-- Open for messages; false if that has been done before. -/
def run [Signature.Scheme] (n : Node) (clock : Clock) : Step Node Bool :=
  match n.phase with
  | .waiting queue =>
    let s := { n with phase := .running }.handleAll clock queue
    ⟨s.state, true, s.effects⟩
  | _ => ⟨n, false, []⟩

/-- Take a message from a peer; false if the node is shut. -/
def deliver [Signature.Scheme] (n : Node) (clock : Clock) (m : Inbound) : Step Node Bool :=
  match n.phase with
  | .waiting queue => ⟨{ n with phase := .waiting (queue ++ [m]) }, true, []⟩
  | .running =>
    let s := n.handle clock m
    ⟨s.state, true, s.effects⟩
  | .stopped => ⟨n, false, []⟩

/-- A node that was never started still waits. -/
def shutdown (n : Node) : Node :=
  match n.phase with
  | .running => { n with phase := .stopped }
  | _ => n

/-- A shutdown flushes the store, which takes nothing from it, and goes on if that fails. -/
def shutdownLog (n : Node) : List Log.Entry :=
  let flushed :=
    match n.sporks.store.flush with
    | .ok () => []
    | .error e =>
      [⟨.error, "Failed to flush spork store: " ++ (SporkError.store e).message, []⟩]
  [⟨.info, "Initiating graceful shutdown...", []⟩] ++ flushed ++ [⟨.info, "Shutdown complete", []⟩]

/-- What the store of a node holds once the node is built again. -/
def survivingStore (n : Node) : Store :=
  if n.config.storage.backend.isVolatile then .empty else n.sporks.store

def restart [Signature.Scheme] (n : Node) : Startup :=
  start n.config n.survivingStore none n.listening

def append (n : Node) (version : Int32) (time : Int) (bits : Work.CompactTarget) : Node :=
  { n with chain := n.chain.append version time bits }

end Node

end SporkNode
