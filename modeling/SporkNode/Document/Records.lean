import SporkNode.Document.Value
import SporkNode.Inventory
import SporkNode.Spork.Authority
import SporkNode.Spork.Governor
import SporkNode.Text.Hex
import SporkNode.Work.Block

/-!
The domain's records as documents. Hashes are lists of 32 bytes; targets are hexadecimal text, read
with or without the mark in front. Some formats also read a target from the list of its bytes, the
most significant first.
-/

namespace SporkNode.Document

open Work

namespace Decode

def network : Decode Network :=
  name fun
    | "main" => some .main
    | "test" => some .test
    | "regtest" => some .regtest
    | _ => none

def algorithm : Decode Algorithm :=
  name fun
    | "timetravel" => some .timeTravel
    | "x16r" => some .x16r
    | _ => none

def inventoryKind : Decode InventoryKind :=
  name fun
    | "Transaction" => some .transaction
    | "Block" => some .block
    | "Spork" => some .spork
    | _ => none

def peer : Decode PeerId := fun f v => (word64 f v).map PeerId.mk

def compactTarget : Decode CompactTarget := fun f v => (word32 f v).map CompactTarget.mk

def version : Decode Int32 := fun f v => (int32 f v).map Int32.ofInt

/-- Digits make bytes in pairs, counted as though the blanks among them were digits too: an odd
number of blanks leaves the last digit without its partner, and it is dropped. -/
private def packed (digits : List Char) : List Char :=
  let written := digits.filter fun c => !(c = ' ' || c = '\r' || c = '\n' || c = '\t')
  if (digits.length - written.length) % 2 = 1 then written.dropLast else written

private def writtenTarget (s : String) : Option Target := do
  let digits := match s.toList with
    | '0' :: 'x' :: rest => rest
    | cs => cs
  if digits.isEmpty ∨ 64 < digits.length then none
  else return Target.ofNat (← Text.natOfHex? (packed digits))

def target : Decode Target
  | _, .text s => writtenTarget s
  | f, .list items => do
    let bytes ← if f.byteLists then items.mapM (byte f) else none
    if bytes.isEmpty ∨ 32 < bytes.length then none else some (Target.ofNat (Bytes.toNatBig bytes))
  | _, _ => none

def hash : Decode Hash := fun f v => do
  Hash.ofBytes? (← tuple 32 byte f v)

def inventoryItem : Decode InventoryItem := fun f v => do
  let r ← Fields.ofValue? ["kind", "hash"] false f v
  return ⟨← r.required "kind" inventoryKind, ← r.required "hash" hash⟩

def candidate : Decode Candidate := fun f v => do
  let r ← Fields.ofValue? ["version", "time"] false f v
  return ⟨← r.required "version" version, ← r.required "time" int64⟩

def block : Decode Block := fun f v => do
  let r ← Fields.ofValue? ["hash", "prev_hash", "height", "version", "time", "bits"] false f v
  return ⟨← r.required "hash" hash, ← r.optional "prev_hash" hash,
    ← r.required "height" word64, ← r.required "version" version,
    ← r.required "time" int64, ← r.required "bits" compactTarget⟩

def retirement : Decode Retirement := fun f v => do
  let r ← Fields.ofValue? ["algorithm", "after_height", "force"] false f v
  return ⟨← r.required "algorithm" algorithm, ← r.required "after_height" word64,
    ← r.required "force" word32⟩

def chainParams : Decode ChainParams := fun f v => do
  let r ← Fields.ofValue?
    ["network", "pow_limit", "pow_target_spacing", "pow_target_timespan",
     "pow_target_timespan_fix_height", "pow_allow_min_difficulty_blocks", "pow_no_retargeting",
     "retarget_max_adjust_down", "retarget_max_adjust_up", "retired_algorithms"] false f v
  return {
    network := ← r.required "network" network
    powLimit := ← r.required "pow_limit" target
    spacing := ← r.required "pow_target_spacing" int64
    timespan := ← r.required "pow_target_timespan" int64
    fixHeight := ← r.required "pow_target_timespan_fix_height" int64
    allowMinDifficulty := ← r.required "pow_allow_min_difficulty_blocks" bool
    noRetargeting := ← r.required "pow_no_retargeting" bool
    maxAdjustDown := ← r.withDefault "retarget_max_adjust_down" int64 4
    maxAdjustUp := ← r.withDefault "retarget_max_adjust_up" int64 4
    retired := ← r.withDefault "retired_algorithms" (list retirement) [] }

def limits : Decode Spork.Limits := fun f v => do
  let r ← Fields.ofValue? ["min_interval_secs", "max_blocks"] false f v
  return ⟨← r.required "min_interval_secs" int64, ← r.required "max_blocks" int64⟩

def settings : Decode Spork.Settings := fun f v => do
  let r ← Fields.ofValue? ["spork_pubkey", "message_magic", "secret_key_prefix"] false f v
  return ⟨← r.optional "spork_pubkey" text,
    ← r.withDefault "message_magic" text Spork.defaultMagic,
    ← r.required "secret_key_prefix" byte⟩

end Decode

namespace Value

def ofHash (h : Hash) : Value := .list (h.bytes.map fun b => .integer b.toNat)

def ofTarget (t : Target) : Value := .text ("0x" ++ Text.hexNumeral t.toNat)

def ofCompactTarget (c : CompactTarget) : Value := .integer c.word.toNat

def ofInventoryItem (i : InventoryItem) : Value :=
  object [("kind", .text i.kind.name), ("hash", ofHash i.hash)]

def ofCandidate (c : Candidate) : Value :=
  object [("version", .integer c.version.toInt), ("time", .integer c.time)]

def ofBlock (b : Block) : Value :=
  object [("hash", ofHash b.hash), ("prev_hash", optional ofHash b.parent?),
    ("height", .integer b.height), ("version", .integer b.version.toInt),
    ("time", .integer b.time), ("bits", ofCompactTarget b.bits)]

def ofRetirement (r : Retirement) : Value :=
  object [("algorithm", .text r.algorithm.name), ("after_height", .integer r.afterHeight),
    ("force", .integer r.force.toNat)]

def ofChainParams (p : ChainParams) : Value :=
  object [("network", .text p.network.name), ("pow_limit", ofTarget p.powLimit),
    ("pow_target_spacing", .integer p.spacing), ("pow_target_timespan", .integer p.timespan),
    ("pow_target_timespan_fix_height", .integer p.fixHeight),
    ("pow_allow_min_difficulty_blocks", .bool p.allowMinDifficulty),
    ("pow_no_retargeting", .bool p.noRetargeting),
    ("retarget_max_adjust_down", .integer p.maxAdjustDown),
    ("retarget_max_adjust_up", .integer p.maxAdjustUp),
    ("retired_algorithms", .list (p.retired.map ofRetirement))]

def ofLimits (l : Spork.Limits) : Value :=
  object [("min_interval_secs", .integer l.minInterval), ("max_blocks", .integer l.maxBlocks)]

def ofSettings (s : Spork.Settings) : Value :=
  object [("spork_pubkey", optional .text s.publicKey?), ("message_magic", .text s.magic),
    ("secret_key_prefix", .integer s.secretVersion.toNat)]

end Value

end SporkNode.Document
