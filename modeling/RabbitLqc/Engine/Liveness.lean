import RabbitLqc.Registry.Snapshot

/-!
# Seat liveness

What the turns of a block do to the registry records of the seats. Preparation and verification
of a header apply the same transition.
-/

namespace RabbitLqc
open Lib

namespace LqcConfig

variable (config : LqcConfig)

/-- From the second seat rule on, a seat without a record gets one to count its turns in. -/
def workSeatMissedTurnWithLivenessV2 (registry : CanonicalRegistry) (address : Address)
    (blockNumber maxMissedTurns jailBlocks : Nat) : Except LqcError CanonicalRegistry :=
  if forkActive config.workSeatLivenessV2Block blockNumber then do
    ensure (address ≠ 0 ∧ blockNumber ≠ 0) .invalidRegistryAddress
    let known := match registry.participant? address with
      | some _ => registry
      | none => registry.put { address, registeredAt := blockNumber }
    CanonicalRegistry.applyWorkSeatMissedTurn known address blockNumber maxMissedTurns jailBlocks
  else registry.applyWorkSeatMissedTurn address blockNumber maxMissedTurns jailBlocks

def seatLivenessRestored (blockNumber : Nat) : Bool :=
  blockNumber = config.consensusHardeningBlock || config.isConsensusStabilizationBlock blockNumber ||
    config.isConsensusFairnessBlock blockNumber || forkBlock config.consensusLivenessV4Block blockNumber ||
    forkBlock config.consensusLivenessV5Block blockNumber

def seatTurns (registry : CanonicalRegistry) (blockNumber : Nat) (ordered : List Address)
    (queuePos : Nat) : Except LqcError CanonicalRegistry :=
  let rules := config.registryRules
  if config.seatLivenessRestored blockNumber then
    if forkBlock config.consensusLivenessV5Block blockNumber then
      registry.restoreWorkSeatLiveness ordered blockNumber
    else registry.restoreWorkSeatLivenessLegacy ordered blockNumber
  else if config.consensusLivenessV4Active blockNumber ||
      !config.consensusFairnessActive blockNumber then
    (ordered.take queuePos).foldlM (fun registry address =>
      config.workSeatMissedTurnWithLivenessV2 registry address blockNumber
        rules.maxMissedTurns rules.jailBlocks) registry
  else .ok registry

/-- What the turns of a block do to the seats: shared by preparation and verification. -/
def workV1EngineLabApplySeatLiveness (registry : CanonicalRegistry) (blockNumber : Nat)
    (selection : HybridSelection) (producer : Address) : Except LqcError CanonicalRegistry :=
  if !forkActive config.consensusHardeningBlock blockNumber then .ok registry
  else match config.isAuthorAllowedAt blockNumber selection producer with
    | none => .error .unauthorizedRegistryProducer
    | some queuePos => do
      let moved ← config.seatTurns registry blockNumber selection.ordered queuePos
      CanonicalRegistry.markWorkSeatProducerHeartbeat moved producer blockNumber

end LqcConfig

end RabbitLqc
