import Std.Data.TreeMap
import SporkNode.Spork.Effect
import SporkNode.Spork.Governor
import SporkNode.Spork.Store
import SporkNode.Text.Calendar

/-!
The sporks in force on a node. A message takes the place of the one held for its parameter only if
it was signed later; one that was not is dropped before its signature is looked at, so a replay
costs nothing. What was once accepted stays known by its hash, for peers that ask for it.
-/

namespace SporkNode.Spork

open Signature

inductive Outcome
  | new | updated | seen | invalidSignature
  deriving DecidableEq, Repr

namespace Outcome

def name : Outcome → String
  | new => "New"
  | updated => "Updated"
  | seen => "Seen"
  | invalidSignature => "InvalidSignature"

def isAccepted : Outcome → Bool
  | new | updated => true
  | seen | invalidSignature => false

end Outcome

structure Manager where
  settings : Settings
  authority : Authority
  governor : Governor
  store : Store
  signer? : Option Signer
  active : Std.TreeMap Int32 Message
  byHash : Std.HashMap Hash Message

namespace Manager

def start (settings : Settings) (limits : Limits) (store : Store) : Except SporkError Manager := do
  return ⟨settings, ← Authority.ofSettings settings, .new limits, store, none, ∅, ∅⟩

/-! ## Queries -/

def message? (m : Manager) (id : Int32) : Option Message := m.active[id]?

def byHash? (m : Manager) (h : Hash) : Option Message := m.byHash[h]?

/-- The messages in force, by rising number. -/
def messages (m : Manager) : List Message := m.active.values

def valueOf (m : Manager) (p : Parameter) : Int64 :=
  ((m.message? p.id).map (·.value)).getD p.default

/-- The value in force or by default; none for an unknown parameter that nobody has set. -/
def effective? (m : Manager) (id : Int32) : Option Int64 :=
  ((m.message? id).map (·.value)).or ((Parameter.ofId? id).map (·.default))

def value (m : Manager) (id : Int32) : Int64 := (m.effective? id).getD (-1)

def isActive (m : Manager) (clock : Clock) (id : Int32) : Bool :=
  ((m.effective? id).getD never).toInt < clock.adjusted

def hasKey (m : Manager) : Bool := m.signer?.isSome

/-- The sporks that tune the proof of work. The spacing fix moves only once it has been set. -/
def networkParameters (m : Manager) : Work.NetworkParameters where
  handbrakeHeight := (m.valueOf .handbrakeHeight).toInt
  handbrakeForce
    | .timeTravel => (m.valueOf .handbrakeForceTimeTravel).toInt
    | .x16r => (m.valueOf .handbrakeForceX16R).toInt
  spacingFixHeight := (m.message? Parameter.fixHeight.id).map (·.value.toInt)

/-! ## Changes -/

def insert (m : Manager) (msg : Message) : Manager :=
  { m with active := m.active.insert msg.id msg, byHash := m.byHash.insert msg.hash msg }

def persist (m : Manager) (msg : Message) : Step Manager (Except SporkError Unit) :=
  match m.store.write msg with
  | .ok store => ⟨{ m with store := store }, .ok (), [.stored (Store.keyOf msg.id) msg.encode]⟩
  | .error e =>
    let error := SporkError.store e
    ⟨m, .error error,
      [Effect.note .error "Failed to persist spork"
        [("spork_id", .number msg.id.toInt), ("error", .text error.message)]]⟩

/-- What the governor's decision calls for. -/
def carryOut (w : World) (limits : Limits) : Decision → List Effect
  | .ignored => []
  | .execute blocks =>
    [Effect.note .info "Reconsidering recent blocks" [("blocks", .number blocks)],
     .reprocess blocks] ++
      match w.reprocess blocks with
      | none => []
      | some e =>
        [Effect.note .error "Block reprocessing failed"
          [("blocks", .number blocks), ("error", .text e)]]
  | .tooSoon elapsed =>
    [Effect.note .warn "Reconsider request too soon after the previous one"
      [("elapsed", .number elapsed), ("min_interval", .number limits.minInterval)]]
  | .tooDeep requested =>
    [Effect.note .warn "Reconsider request exceeds the block limit"
      [("requested", .number requested), ("max_blocks", .number limits.maxBlocks)]]

/-- Some parameters do something when they are set. -/
def react (m : Manager) (w : World) (msg : Message) : Step Manager Unit :=
  if msg.id = Parameter.reconsiderBlocks.id then
    let (governor, decision) := m.governor.request msg.value.toInt w.clock.now
    ⟨{ m with governor := governor }, (), carryOut w governor.limits decision⟩
  else ⟨m, (), []⟩

/-- Whether a message as late as this one is already held. -/
def isStale (m : Manager) (msg : Message) : Bool :=
  (m.message? msg.id).any (msg.time ≤ ·.time)

def invalidSignaturePenalty : Nat := 100

/-- Make a verified message take force. A failed write leaves it in force. -/
def accept (m : Manager) (w : World) (peer : PeerId) (msg : Message) : Step Manager Outcome :=
  let outcome := if (m.message? msg.id).isSome then Outcome.updated else .new
  let reacted := (m.insert msg).react w msg
  let persisted := reacted.state.persist msg
  ⟨persisted.state, outcome,
    [Effect.note .info "Accepted spork"
      [("peer", .text peer.display), ("spork", .text (nameOf msg.id)),
       ("spork_id", .number msg.id.toInt), ("value", .number msg.value.toInt),
       ("time_signed", .number msg.time.toInt), ("outcome", .text outcome.name)],
     .relay ⟨.spork, msg.hash⟩] ++ reacted.effects ++ persisted.effects⟩

/-- Handle a message from a peer. The step is atomic: nothing comes between the look at the message
held and the one that takes its place, so a second look after the signature has been verified would
find the same. -/
def process [Scheme] (m : Manager) (w : World) (peer : PeerId) (msg : Message) :
    Step Manager Outcome :=
  if m.isStale msg then
    ⟨m, .seen,
      [Effect.note .debug "Spork already seen"
        [("peer", .text peer.display), ("spork_id", .number msg.id.toInt),
         ("hash", .text msg.hash.display)]]⟩
  else if msg.verifies m.authority then m.accept w peer msg
  else
    ⟨m, .invalidSignature,
      [Effect.note .warn "Invalid spork signature"
        [("peer", .text peer.display), ("spork_id", .number msg.id.toInt)],
       .penalize peer invalidSignaturePenalty]⟩

/-- Send a peer all that is in force; the answer is how many. -/
def sendAll (m : Manager) (peer : PeerId) : Step Manager Nat :=
  let count := m.messages.length
  ⟨m, count, m.messages.map (.send peer) ++
    [Effect.note .debug "Sent active sporks"
      [("peer", .text peer.display), ("count", .number count)]]⟩

/-- Set a parameter under the node's own key. -/
def update [Scheme] (m : Manager) (w : World) (p : Parameter) (value : Int64) :
    Step Manager (Except SporkError Message) :=
  match m.signer? with
  | none => ⟨m, .error .noSigningKey, []⟩
  | some signer =>
    match (Message.unsigned p.id value (Int64.ofInt w.clock.adjusted)).sign signer with
    | .error e => ⟨m, .error e, []⟩
    | .ok msg =>
      let persisted := (m.insert msg).persist msg
      ⟨persisted.state, persisted.reply.map fun _ => msg,
        [.relay ⟨.spork, msg.hash⟩,
         Effect.note .info "Updated spork"
          [("spork", .text p.name), ("value", .number value.toInt)]] ++ persisted.effects⟩

/-- Install a key, which must prove by a signature that it is the authority's. -/
def setKey [Scheme] (m : Manager) (text : String) : Step Manager (Except SporkError Unit) :=
  let signer : Except SporkError Signer := do
    let signer ← Signer.ofText text m.settings
    let probe ← (Message.unsigned 0 0 0).sign signer
    if probe.verifies m.authority then return signer else throw (.invalidKey .notTheAuthority)
  match signer with
  | .error e => ⟨m, .error e, []⟩
  | .ok signer =>
    ⟨{ m with signer? := some signer }, .ok (),
      [Effect.note .info "Spork signing key installed" []]⟩

/-- Values above this are times. -/
def timeThreshold : Int := 1000000

def loadedNote (p : Parameter) (value : Int) : Effect :=
  let fields := [("spork", Log.Field.text p.name), ("value", .number value)]
  Effect.note .info "Loaded spork from store"
    (if timeThreshold < value then
      fields ++ [("activation", .text (Text.timestamp value.toNat))]
    else fields)

def loadOne (s : Step Manager Nat) (p : Parameter) : Step Manager Nat :=
  match s.state.store.read p.id with
  | .ok (some msg) =>
    ⟨s.state.insert msg, s.reply + 1, s.effects ++ [loadedNote p msg.value.toInt]⟩
  | .ok none =>
    { s with effects := s.effects ++
      [Effect.note .debug "No previous value in store" [("spork", .text p.name)]] }
  | .error e =>
    { s with effects := s.effects ++
      [Effect.note .warn "Failed to read spork from store"
        [("spork", .text p.name), ("error", .text (SporkError.store e).message)]] }

/-- Take over what the store holds for the known parameters. It was verified before it was
written, and is not verified again. -/
def load (m : Manager) : Step Manager Nat := Parameter.all.foldl loadOne ⟨m, 0, []⟩

end Manager

end SporkNode.Spork
