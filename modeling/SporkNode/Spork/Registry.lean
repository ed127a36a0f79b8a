/-!
The network parameters that a signed message can override, with their numbers on the wire, their
names and what holds until they are overridden. Most are switches: the value is a time, and the
switch is on once that time has passed.
-/

namespace SporkNode.Spork

/-- A time that means never: the first second of 2099. -/
def never : Int64 := 4070908800

inductive Parameter
  | instantSendEnabled
  | instantSendBlockFiltering
  | instantSendMaxValue
  | masternodePaymentEnforcement
  | superblocksEnabled
  | masternodePayUpdatedNodes
  | reconsiderBlocks
  | oldSuperblockFlag
  | requireSentinelFlag
  | handbrakeHeight
  | handbrakeForceTimeTravel
  | handbrakeForceX16R
  | ignoreSlightlyHigherCoinbase
  | ignoreFounderRewardCheck
  | ignoreFounderRewardValue
  | ignoreMasternodeRewardValue
  | ignoreMasternodeRewardPayee
  | blockRewardSmoothHalvingStart
  | fixHeight
  deriving DecidableEq, Repr

namespace Parameter

/-- All parameters, by rising number. -/
def all : List Parameter :=
  [instantSendEnabled, instantSendBlockFiltering, instantSendMaxValue,
   masternodePaymentEnforcement, superblocksEnabled, masternodePayUpdatedNodes, reconsiderBlocks,
   oldSuperblockFlag, requireSentinelFlag, handbrakeHeight, handbrakeForceTimeTravel,
   handbrakeForceX16R, ignoreSlightlyHigherCoinbase, ignoreFounderRewardCheck,
   ignoreFounderRewardValue, ignoreMasternodeRewardValue, ignoreMasternodeRewardPayee,
   blockRewardSmoothHalvingStart, fixHeight]

def id : Parameter → Int32
  | instantSendEnabled => 10001
  | instantSendBlockFiltering => 10002
  | instantSendMaxValue => 10004
  | masternodePaymentEnforcement => 10007
  | superblocksEnabled => 10008
  | masternodePayUpdatedNodes => 10009
  | reconsiderBlocks => 10011
  | oldSuperblockFlag => 10012
  | requireSentinelFlag => 10013
  | handbrakeHeight => 94680010
  | handbrakeForceTimeTravel => 94680011
  | handbrakeForceX16R => 94680016
  | ignoreSlightlyHigherCoinbase => 94680021
  | ignoreFounderRewardCheck => 94680022
  | ignoreFounderRewardValue => 94680023
  | ignoreMasternodeRewardValue => 94680024
  | ignoreMasternodeRewardPayee => 94680025
  | blockRewardSmoothHalvingStart => 94680031
  | fixHeight => 94680051

def name : Parameter → String
  | instantSendEnabled => "SPORK_2_INSTANTSEND_ENABLED"
  | instantSendBlockFiltering => "SPORK_3_INSTANTSEND_BLOCK_FILTERING"
  | instantSendMaxValue => "SPORK_5_INSTANTSEND_MAX_VALUE"
  | masternodePaymentEnforcement => "SPORK_8_MASTERNODE_PAYMENT_ENFORCEMENT"
  | superblocksEnabled => "SPORK_9_SUPERBLOCKS_ENABLED"
  | masternodePayUpdatedNodes => "SPORK_10_MASTERNODE_PAY_UPDATED_NODES"
  | reconsiderBlocks => "SPORK_12_RECONSIDER_BLOCKS"
  | oldSuperblockFlag => "SPORK_13_OLD_SUPERBLOCK_FLAG"
  | requireSentinelFlag => "SPORK_14_REQUIRE_SENTINEL_FLAG"
  | handbrakeHeight => "SPORK_EXOSIS_01_HANDBRAKE_HEIGHT"
  | handbrakeForceTimeTravel => "SPORK_EXOSIS_01_HANDBRAKE_FORCE_EXOSIS"
  | handbrakeForceX16R => "SPORK_EXOSIS_01_HANDBRAKE_FORCE_X16R"
  | ignoreSlightlyHigherCoinbase => "SPORK_EXOSIS_02_IGNORE_SLIGHTLY_HIGHER_COINBASE"
  | ignoreFounderRewardCheck => "SPORK_EXOSIS_02_IGNORE_FOUNDER_REWARD_CHECK"
  | ignoreFounderRewardValue => "SPORK_EXOSIS_02_IGNORE_FOUNDER_REWARD_VALUE"
  | ignoreMasternodeRewardValue => "SPORK_EXOSIS_02_IGNORE_MASTERNODE_REWARD_VALUE"
  | ignoreMasternodeRewardPayee => "SPORK_EXOSIS_02_IGNORE_MASTERNODE_REWARD_PAYEE"
  | blockRewardSmoothHalvingStart => "SPORK_EXOSIS_03_BLOCK_REWARD_SMOOTH_HALVING_START"
  | fixHeight => "SPORK_EXOSIS_05_FIX_HEIGHT"

/-- A shorter name for reports. -/
def label : Parameter → String
  | instantSendEnabled => "InstantSendEnabled"
  | instantSendBlockFiltering => "InstantSendBlockFiltering"
  | instantSendMaxValue => "InstantSendMaxValue"
  | masternodePaymentEnforcement => "MasternodePaymentEnforcement"
  | superblocksEnabled => "SuperblocksEnabled"
  | masternodePayUpdatedNodes => "MasternodePayUpdatedNodes"
  | reconsiderBlocks => "ReconsiderBlocks"
  | oldSuperblockFlag => "OldSuperblockFlag"
  | requireSentinelFlag => "RequireSentinelFlag"
  | handbrakeHeight => "HandbrakeHeight"
  | handbrakeForceTimeTravel => "HandbrakeForceExosis"
  | handbrakeForceX16R => "HandbrakeForceX16R"
  | ignoreSlightlyHigherCoinbase => "IgnoreSlightlyHigherCoinbase"
  | ignoreFounderRewardCheck => "IgnoreFounderRewardCheck"
  | ignoreFounderRewardValue => "IgnoreFounderRewardValue"
  | ignoreMasternodeRewardValue => "IgnoreMasternodeRewardValue"
  | ignoreMasternodeRewardPayee => "IgnoreMasternodeRewardPayee"
  | blockRewardSmoothHalvingStart => "BlockRewardSmoothHalvingStart"
  | fixHeight => "FixHeight"

def default : Parameter → Int64
  | instantSendEnabled => 0
  | instantSendBlockFiltering => 0
  | instantSendMaxValue => 1000
  | reconsiderBlocks => 0
  | handbrakeForceTimeTravel => 1
  | handbrakeForceX16R => 1
  | fixHeight => 105000
  | _ => never

def ofId? (id : Int32) : Option Parameter := all.find? (·.id = id)

def ofName? (name : String) : Option Parameter := all.find? (·.name = name)

end Parameter

def nameOf (id : Int32) : String := ((Parameter.ofId? id).map (·.name)).getD "Unknown"

end SporkNode.Spork
