import RabbitLqc.Basic

/-!
# Chain configuration

The consensus parameters, the fork switches read from them, and the fork order a node checks
before it runs a configuration. A fork block of zero is never active.
-/

namespace RabbitLqc
open Lib

structure LqcConfig where
  vrfAvailabilityV2Block : Nat := 0
  committeeMin : Nat := 0
  committeeMax : Nat := 0
  committeeRatioBps : Nat := 0
  fallbackSlots : Nat := 0
  fallbackWindowMs : Nat := 0
  targetBlockTimeMs : Nat := 0
  eraLength : Nat := 0
  proofDifficulty : Nat := 0
  epochLength : Nat := 0
  bootstrapParticipants : List Address := []
  registryProtocolBlock : Nat := 0
  consensusHardeningBlock : Nat := 0
  consensusStabilizationBlock : Nat := 0
  consensusFairnessBlock : Nat := 0
  consensusLivenessV3Block : Nat := 0
  consensusLivenessV4Block : Nat := 0
  consensusLivenessV5Block : Nat := 0
  consensusLivenessV6Block : Nat := 0
  vrfProtocolBlock : Nat := 0
  vrfEconomicsV2Block : Nat := 0
  workSeatAdmissionV2Block : Nat := 0
  workSeatLivenessV2Block : Nat := 0
  miningRewardV5Block : Nat := 0
  activationDelay : Nat := 0
  heartbeatWindow : Nat := 0
  heartbeatGrace : Nat := 0
  recoveryTimeoutMs : Nat := 0
  committeeSize : Nat := 0
  fallbackCount : Nat := 0
  jailBlocks : Nat := 0
  maxMissedTurns : Nat := 0

/-- A fork scheduled at `fork` is active at `block`. -/
def forkActive (fork block : Nat) : Bool := decide (fork ≠ 0 ∧ fork ≤ block)

/-- `block` is the activation block of the fork. -/
def forkBlock (fork block : Nat) : Bool := decide (fork ≠ 0 ∧ block = fork)

namespace LqcConfig

variable (config : LqcConfig)

def isConsensusStabilizationBlock (block : Nat) : Bool :=
  forkBlock config.consensusStabilizationBlock block

def isConsensusFairnessBlock (block : Nat) : Bool :=
  forkBlock config.consensusFairnessBlock block

def consensusFairnessActive (block : Nat) : Bool := forkActive config.consensusFairnessBlock block

def consensusLivenessV3Active (block : Nat) : Bool :=
  forkActive config.consensusLivenessV3Block block

def consensusLivenessV4Active (block : Nat) : Bool :=
  forkActive config.consensusLivenessV4Block block

def consensusLivenessV5Active (block : Nat) : Bool :=
  forkActive config.consensusLivenessV5Block block

def consensusLivenessV6Active (block : Nat) : Bool :=
  forkActive config.consensusLivenessV6Block block

def vrfForkLivenessActive (block : Nat) : Bool := forkActive config.vrfProtocolBlock block

def isRabbitVRF (block : Nat) : Bool := forkActive config.vrfProtocolBlock block

def consensusCommitteeLivenessActive (block : Nat) : Bool :=
  decide (config.consensusStabilizationBlock ≠ 0 ∧ config.consensusStabilizationBlock < block)

def registryProtocolEnabled (block : Nat) : Bool := forkActive config.registryProtocolBlock block

/-! ### Fork order -/

def validateWorkSeatLivenessV2 : Bool :=
  config.workSeatLivenessV2Block = 0 ∨
    (config.workSeatAdmissionV2Block ≠ 0 ∧
      config.workSeatAdmissionV2Block < config.workSeatLivenessV2Block) ∧
    (config.consensusLivenessV5Block ≠ 0 ∧
      config.consensusLivenessV5Block < config.workSeatLivenessV2Block)

def validateRabbitForkV2Order : Bool :=
  (config.vrfEconomicsV2Block = 0 ∨
    (config.vrfProtocolBlock ≠ 0 ∧ config.vrfProtocolBlock < config.vrfEconomicsV2Block)) ∧
  (config.workSeatAdmissionV2Block = 0 ∨
    (config.consensusLivenessV5Block ≠ 0 ∧
      config.consensusLivenessV5Block < config.workSeatAdmissionV2Block ∧
      (config.consensusLivenessV6Block = 0 ∨
        config.consensusLivenessV6Block < config.workSeatAdmissionV2Block)))

def validateRegistryProtocol : Bool :=
  config.registryProtocolBlock = 0 ∨
    (config.proofDifficulty ≠ 0 ∧ distinctParticipants config.bootstrapParticipants)

def validateConsensusLivenessV3 : Bool :=
  config.consensusLivenessV3Block = 0 ∨ config.consensusFairnessBlock = 0 ∨
    config.consensusFairnessBlock ≤ config.consensusLivenessV3Block

def validateSuccessor (before fork : Nat) : Bool := fork = 0 ∨ (before ≠ 0 ∧ before ≤ fork)

def validateConsensusLivenessV4 : Bool :=
  validateSuccessor config.consensusLivenessV3Block config.consensusLivenessV4Block

def validateConsensusLivenessV5 : Bool :=
  validateSuccessor config.consensusLivenessV4Block config.consensusLivenessV5Block

def validateConsensusLivenessV6 : Bool :=
  validateSuccessor config.consensusLivenessV5Block config.consensusLivenessV6Block

def validateMiningRewardV5 : Bool :=
  config.miningRewardV5Block = 0 ∨
    (config.vrfProtocolBlock ≠ 0 ∧ config.vrfProtocolBlock < config.miningRewardV5Block) ∧
    (config.consensusLivenessV3Block ≠ 0 ∧
      config.consensusLivenessV3Block < config.miningRewardV5Block)

def validateVRFAvailabilityV2 : Bool :=
  config.vrfAvailabilityV2Block = 0 ∨
    (config.registryProtocolBlock ≠ 0 ∧ config.vrfProtocolBlock ≠ 0 ∧
      config.vrfProtocolBlock < config.vrfAvailabilityV2Block ∧ config.epochLength ≠ 0 ∧
      (config.vrfAvailabilityV2Block - 1) % config.epochLength = 0 ∧ config.heartbeatWindow ≠ 0 ∧
      config.heartbeatGrace ≤ maxUint64 - config.heartbeatWindow)

def validateRabbitVRFProtocol : Bool :=
  config.vrfProtocolBlock = 0 ∨
    (config.epochLength ≠ 0 ∧ (config.vrfProtocolBlock - 1) % config.epochLength = 0 ∧
      4 ≤ (config.vrfProtocolBlock - 1) / config.epochLength + 1)

def checkConfigForkOrder : Bool :=
  config.validateWorkSeatLivenessV2 && config.validateRabbitForkV2Order &&
    config.validateRegistryProtocol && config.validateConsensusLivenessV3 &&
    config.validateConsensusLivenessV4 && config.validateConsensusLivenessV5 &&
    config.validateConsensusLivenessV6 && config.validateMiningRewardV5 &&
    config.validateVRFAvailabilityV2 && config.validateRabbitVRFProtocol

end LqcConfig

end RabbitLqc
