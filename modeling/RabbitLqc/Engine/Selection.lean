import RabbitLqc.Registry.Snapshot
import RabbitLqc.Work.BoundedSelection
import RabbitLqc.Work.Runtime

/-!
# The selection of a block

Who may produce a block on a given parent, and who sits on its committee. Seats come from the
closed work epoch; until there are any, and for identities an open activation brought in, the
registry supplies the queue.
-/

namespace RabbitLqc
open Lib

/-! ### Roles by seat -/

namespace LqcConfig

variable (config : LqcConfig)

def workV1EngineLabCommitteeSize (seatCount : Nat) : Nat := config.committeeSizeFor seatCount

def admissionV2Active (block : Nat) : Bool := forkActive config.workSeatAdmissionV2Block block

end LqcConfig

/-- The committee is served before the fallbacks; under the bounded rule one fallback is reserved. -/
def workV1EngineLabRoleCounts (seatCount fallbackCount committeeSize : Nat)
    (reserveBoundedFallback : Bool) : Nat × Nat :=
  if seatCount = 0 then (0, 0)
  else
    let available := seatCount - 1
    let committeeSize := min committeeSize available
    let committeeSize :=
      if reserveBoundedFallback ∧ fallbackCount > 0 ∧ available > 0 ∧ committeeSize = available
      then committeeSize - 1 else committeeSize
    (min fallbackCount (available - committeeSize), committeeSize)

def workV1EngineLabHybridSelection (selection : WorkSelectionV1) : HybridSelection where
  ordered := selection.ordered.map (·.participant)
  fallbacks := selection.fallbacks.map (·.participant)
  committee := selection.committee.map (·.participant)

/-! ### Order by liveness -/

def workV1EngineLabSeatAvailableAt (registry : CanonicalRegistry) (seat : WorkSeatV1)
    (blockNumber : Nat) (rules : RegistrySnapshotRules) : Bool :=
  match registry.participant? seat.participant with
  | none => false
  | some participant =>
    participant.lastHeartbeat ≠ 0 &&
      (checkedRegistryBlockAdd [participant.lastHeartbeat, rules.heartbeatWindow,
        rules.heartbeatGrace]).any (blockNumber ≤ ·)

namespace LqcConfig

variable (config : LqcConfig) (registry : CanonicalRegistry)

/-- From the fifth liveness rule on a jail excludes a seat, and until the second admission rule so
does a missing heartbeat. -/
def seatKeptV5 (blockNumber : Nat) (seat : WorkSeatV1) : Bool :=
  match registry.participant? seat.participant with
  | none => config.admissionV2Active blockNumber
  | some participant =>
    (config.admissionV2Active blockNumber || participant.lastHeartbeat ≠ 0) &&
      participant.jailedUntil ≤ blockNumber

/-- Under the fourth liveness rule a jail or a missing heartbeat excludes a seat. -/
def seatKeptV4 (registry : CanonicalRegistry) (blockNumber : Nat) (seat : WorkSeatV1) : Bool :=
  match registry.participant? seat.participant with
  | none => false
  | some participant => participant.lastHeartbeat ≠ 0 && participant.jailedUntil ≤ blockNumber

/-- The rule from the fifth liveness fork on. The fork blocks themselves keep every seat. -/
def workV1EngineLabOrderSeatsByLivenessV4 (ordered : List WorkSeatV1) (blockNumber : Nat) :
    List WorkSeatV1 :=
  if forkBlock config.consensusLivenessV4Block blockNumber ||
      forkBlock config.consensusLivenessV5Block blockNumber then ordered
  else ordered.filter (config.seatKeptV5 registry blockNumber)

/-- The rule between the fourth and the fifth liveness fork: stale seats go last. -/
def workV1EngineLabOrderSeatsByLivenessV4Legacy (ordered : List WorkSeatV1) (blockNumber : Nat) :
    List WorkSeatV1 :=
  if forkBlock config.consensusLivenessV4Block blockNumber then ordered
  else
    let live := ordered.filter (seatKeptV4 registry blockNumber)
    let available := fun seat =>
      workV1EngineLabSeatAvailableAt registry seat blockNumber config.registryRules
    live.filter available ++ live.filter (!available ·)

def workV1EngineLabSelectRolesV3 (crypto : Crypto) (seats : List WorkSeatV1) (selectionSeed : Hash)
    (blockNumber roleLimit : Nat) : Except LqcError (List WorkSeatV1) :=
  deterministicallySelectWorkSeatsV1 crypto seats selectionSeed roleLimit <| some fun seat =>
    workV1EngineLabSeatAvailableAt registry seat blockNumber config.registryRules

def workV1EngineLabOrderSeatsByLiveness (ordered : List WorkSeatV1) (blockNumber : Nat) :
    Except LqcError (List WorkSeatV1) :=
  if config.consensusLivenessV3Active blockNumber then
    let available := fun seat =>
      workV1EngineLabSeatAvailableAt registry seat blockNumber config.registryRules
    .ok (ordered.filter available ++ ordered.filter (!available ·))
  else if config.consensusHardeningBlock = 0 ∨ blockNumber ≤ config.consensusHardeningBlock ∨
      config.isConsensusStabilizationBlock blockNumber ∨ config.consensusFairnessActive blockNumber then
    .ok ordered
  else do
    ordered.forM fun seat => ensure (registry.participant? seat.participant ≠ none) .participantNotActive
    let jailed := fun seat : WorkSeatV1 =>
      (registry.participant? seat.participant).any (·.jailedUntil > blockNumber)
    .ok (ordered.filter (!jailed ·) ++ ordered.filter jailed)

def orderSeatsAt (crypto : Crypto) (seats : List WorkSeatV1) (selectionSeed : Hash)
    (blockNumber roleLimit : Nat) : Except LqcError (List WorkSeatV1) :=
  if config.consensusLivenessV5Active blockNumber then do
    let ordered ← deterministicallyOrderWorkSeatsV1 crypto seats selectionSeed
    .ok (config.workV1EngineLabOrderSeatsByLivenessV4 registry ordered blockNumber)
  else if config.consensusLivenessV4Active blockNumber then do
    let ordered ← deterministicallyOrderWorkSeatsV1 crypto seats selectionSeed
    .ok (config.workV1EngineLabOrderSeatsByLivenessV4Legacy registry ordered blockNumber)
  else if config.consensusLivenessV3Active blockNumber then
    config.workV1EngineLabSelectRolesV3 registry crypto seats selectionSeed blockNumber roleLimit
  else do
    let ordered ← deterministicallyOrderWorkSeatsV1 crypto seats selectionSeed
    config.workV1EngineLabOrderSeatsByLiveness registry ordered blockNumber

end LqcConfig

/-! ### Committee by liveness -/

def workV1EngineLabFilterCommitteeByLiveness (selection : WorkSelectionV1)
    (registry : CanonicalRegistry) (blockNumber : Nat) : WorkSelectionV1 :=
  { selection with committee := selection.committee.filter fun seat =>
      (registry.participant? seat.participant).any (·.jailedUntil ≤ blockNumber) }

def workV1EngineLabFilterCommitteeByAvailabilityV3 (selection : WorkSelectionV1)
    (registry : CanonicalRegistry) (blockNumber : Nat) (rules : RegistrySnapshotRules) :
    WorkSelectionV1 :=
  { selection with committee := selection.committee.filter fun seat =>
      workV1EngineLabSeatAvailableAt registry seat blockNumber rules }

def LqcConfig.filterCommitteeAt (config : LqcConfig) (registry : CanonicalRegistry)
    (blockNumber : Nat) (selection : WorkSelectionV1) : WorkSelectionV1 :=
  if config.consensusLivenessV5Active blockNumber then
    workV1EngineLabFilterCommitteeByLiveness selection registry blockNumber
  else if config.consensusLivenessV3Active blockNumber then
    workV1EngineLabFilterCommitteeByAvailabilityV3 selection registry blockNumber config.registryRules
  else if config.consensusCommitteeLivenessActive blockNumber then
    workV1EngineLabFilterCommitteeByLiveness selection registry blockNumber
  else selection

def workV1EngineLabBuildSeatSelection (crypto : Crypto) (config : LqcConfig)
    (chainID sourceEpoch : Nat) (selectionRoot : Hash) (seats : List WorkSeatV1) (datasetKey : Hash)
    (blockNumber : Nat) (registry : CanonicalRegistry) : Except LqcError (HybridSelection × Bool) := do
  ensure (chainID ≠ 0 ∧ sourceEpoch ≠ 0 ∧ selectionRoot ≠ 0 ∧ datasetKey ≠ 0 ∧ blockNumber ≠ 0)
    .workV1EngineLabSelectionUnavailable
  if seats = [] then .ok ({}, false)
  else do
    ensure (∀ seat ∈ seats, seat.ticketHash ≠ 0 ∧ seat.participant ≠ 0) .invalidWorkSelectionV1
    let seed ← deterministicWorkSelectionSeedV1 crypto chainID sourceEpoch selectionRoot datasetKey
      blockNumber
    let counts := workV1EngineLabRoleCounts seats.length config.hybridFallbackCount
      (config.workV1EngineLabCommitteeSize seats.length) (config.vrfForkLivenessActive blockNumber)
    let ordered ← config.orderSeatsAt registry crypto seats seed.2 blockNumber (1 + counts.1 + counts.2)
    if ordered = [] ∧ config.admissionV2Active blockNumber then .ok ({}, false)
    else .ok (workV1EngineLabHybridSelection (config.filterCommitteeAt registry blockNumber
      (buildWorkSelectionFromOrderedSeatsV1 ordered counts.1 counts.2)), true)

/-! ### Activation identities -/

/-- An active identity without operations of its own: it came in by an open activation or the
bootstrap list. -/
def CanonicalParticipant.isActivationIdentity (participant : CanonicalParticipant) : Bool :=
  participant.active && participant.sequence = 0

def workV1EngineLabActivationSelection (crypto : Crypto) (parent : RegistrySnapshot) (header : Header)
    (fallbackCount : Nat) : Except LqcError HybridSelection := do
  let registry ← parent.open crypto
  let anchors := registry.participants.filter CanonicalParticipant.isActivationIdentity
  let ordered := (deterministicallyOrderParticipants crypto header.parentHash header.number
    (anchors.map (·.address))).take (1 + fallbackCount)
  .ok { ordered, fallbacks := ordered.drop 1 }

def workV1EngineLabActivationFallback (crypto : Crypto) (parent : RegistrySnapshot) (header : Header) :
    Except LqcError HybridSelection :=
  workV1EngineLabActivationSelection crypto parent header 0

def workV1EngineLabActivationFallbackAt (crypto : Crypto) (config : LqcConfig)
    (parent : RegistrySnapshot) (header : Header) : Except LqcError HybridSelection :=
  if config.vrfForkLivenessActive header.number then
    workV1EngineLabActivationSelection crypto parent header config.hybridFallbackCount
  else workV1EngineLabActivationFallback crypto parent header

/-- An activation identity without a seat holds a lease on the next block. -/
def workV2EngineLabActivationLease (crypto : Crypto) (parent : RegistrySnapshot) (header : Header)
    (seats : List WorkSeatV1) : Except LqcError HybridSelection := do
  let selection ← workV1EngineLabActivationFallback crypto parent header
  match selection.producer? with
  | none => .ok {}
  | some producer => if seats.any (·.participant = producer) then .ok {} else .ok selection

/-- Seats behind a leased block, as many as the seat selection has fallbacks. -/
def workV2EngineLabBoundActivationLeaseFallbacks (lease work : HybridSelection) : HybridSelection :=
  match lease.producer? with
  | none => lease
  | some producer =>
    if work.fallbacks = [] then lease
    else
      let candidates := work.ordered.filter fun address => address ≠ 0 && address ≠ producer
      let taken := candidates.take (max 1 (work.fallbacks.length - lease.fallbacks.length))
      { lease with ordered := lease.ordered ++ taken, fallbacks := lease.fallbacks ++ taken }

/-! ### Selection on a parent -/

section SelectionForHeader

variable (crypto : Crypto) (config : LqcConfig) (chainID : Nat) (anchor : Nat → Option Hash)
  (parent : CanonicalWorkRuntimeStateV1) (parentRegistry : RegistrySnapshot) (header : Header)

/-- The seat selection of a header; `anchor` finds the hash of an ancestor. -/
def seatSelectionForHeader (source : WorkEpochSnapshotV1) : Except LqcError (HybridSelection × Bool) := do
  let datasetNumber ← workDatasetAnchorBlockV1 source.epoch parent.work.epochLength
  match anchor datasetNumber with
  | none => .error .workV1EngineLabParentMissing
  | some datasetHash => do
    let datasetKey ← randomXWorkDatasetKeyV1 crypto chainID source.epoch datasetHash
    let registry ← parentRegistry.open crypto
    workV1EngineLabBuildSeatSelection crypto config chainID source.epoch source.root source.seats
      datasetKey header.number registry

def inactiveFallback : Except LqcError (HybridSelection × Bool) := do
  let selection ← workV1EngineLabActivationFallbackAt crypto config parentRegistry header
  .ok (selection, false)

/-- The selection once the seat selection is known, under the rule of the randomness fork: a lease
goes first and seats stand behind it. -/
def leasedSelection (lease : HybridSelection) (seats : HybridSelection × Bool) :
    Except LqcError (HybridSelection × Bool) :=
  if seats.2 then .ok (workV2EngineLabBoundActivationLeaseFallbacks lease seats.1, false)
  else inactiveFallback crypto config parentRegistry header

/-- The selection once the seat selection is known, without a lease in front: active seats go
first, then from the sixth liveness rule on a lease. -/
def unleasedSelection (source : WorkEpochSnapshotV1) (seats : HybridSelection × Bool) :
    Except LqcError (HybridSelection × Bool) :=
  if seats.2 then .ok (seats.1, true)
  else if config.consensusLivenessV6Active header.number then do
    let lease ← workV2EngineLabActivationLease crypto parentRegistry header source.seats
    if lease.producer?.isSome then .ok (lease, false)
    else inactiveFallback crypto config parentRegistry header
  else inactiveFallback crypto config parentRegistry header

def earlyLease (source : WorkEpochSnapshotV1) : Except LqcError HybridSelection :=
  if config.vrfForkLivenessActive header.number || !config.consensusLivenessV6Active header.number then
    workV2EngineLabActivationLease crypto parentRegistry header source.seats
  else .ok {}

/-- The selection of a header on its parent, and whether it is an active seat selection. -/
def workV1EngineLabSelectionForHeader : Except LqcError (HybridSelection × Bool) := do
  ensure (header.number ≠ 0) .workV1EngineLabSelectionUnavailable
  match ← workSelectionSourceEpochV1 header.number parent.work.epochLength with
  | none => inactiveFallback crypto config parentRegistry header
  | some sourceEpoch => match parent.work.selection with
    | none => .error .workV1EngineLabSelectionUnavailable
    | some source => do
      ensure (source.epoch = sourceEpoch ∧ source.root ≠ 0) .workV1EngineLabSelectionUnavailable
      let lease ← earlyLease crypto config parentRegistry header source
      if !config.vrfForkLivenessActive header.number && lease.producer?.isSome then .ok (lease, false)
      else do
        let seats ← seatSelectionForHeader crypto config chainID anchor parent parentRegistry header
          source
        if lease.producer?.isSome then leasedSelection crypto config parentRegistry header lease seats
        else unleasedSelection crypto config parentRegistry header source seats

end SelectionForHeader

end RabbitLqc
