import RabbitLqc.Registry.Snapshot
import RabbitLqc.Vrf.Keyset
import RabbitLqc.Work.BoundedSelection

/-!
# Key generation sessions

A closed work epoch fixes the committee that generates a keyset, the epoch it does so in and the epoch the keyset
is for. The first rule draws the committee from all seats, the second from those of participants that were heard
from when the preparation began.
-/

namespace RabbitLqc
open Lib RlpCodec

/-! ### Schedule -/

/-- Seats of an epoch elect two epochs later, and their committee generates its keyset in that epoch. -/
def rabbitVRFDKGPreparationEpochForSourceV1 (sourceWorkEpoch : Nat) : Except LqcError Nat := do
  ensure (sourceWorkEpoch ≠ 0 ∧ sourceWorkEpoch ≤ maxUint64 - 2) .invalidRabbitVRFEpochV1
  .ok (sourceWorkEpoch + 2)

def rabbitVRFTargetEpochForSourceWorkEpochV1 (sourceWorkEpoch : Nat) : Except LqcError Nat := do
  let preparationEpoch ← rabbitVRFDKGPreparationEpochForSourceV1 sourceWorkEpoch
  ensure (preparationEpoch ≤ maxUint64 - 1) .invalidRabbitVRFEpochV1
  .ok (preparationEpoch + 1)

def rabbitVRFSourceWorkEpochForTargetEpochV1 (targetVRFEpoch : Nat) : Except LqcError (Option Nat) := do
  ensure (targetVRFEpoch ≠ 0) .invalidRabbitVRFEpochV1
  .ok (if targetVRFEpoch ≤ 3 then none else some (targetVRFEpoch - 3))

def rabbitVRFEpochStartBlockV1 (vrfEpoch epochLength : Nat) : Except LqcError Nat :=
  failAs .invalidRabbitVRFEpochV1 (workEpochStartBlockV1 vrfEpoch epochLength)

def rabbitVRFDKGPreparationStartBlockV1 (sourceWorkEpoch epochLength : Nat) : Except LqcError Nat := do
  let preparationEpoch ← rabbitVRFDKGPreparationEpochForSourceV1 sourceWorkEpoch
  rabbitVRFEpochStartBlockV1 preparationEpoch epochLength

/-! ### Committees -/

section Committees

variable (crypto : Crypto) (chainID : Nat)

def rabbitVRFCommitteeSizeV1 (seatCount minSize maxSize : Nat) : Nat :=
  if seatCount = 0 then 0 else min (LqcConfig.computeCommitteeSizeWithBounds seatCount minSize maxSize) seatCount

def rabbitVRFCommitteeMembersV1 (committee : List WorkSeatV1) : Except LqcError (List RabbitVRFCommitteeMemberV1) := do
  ensure ((∀ seat ∈ committee, seat.ticketHash ≠ 0 ∧ seat.participant ≠ 0) ∧
    (committee.map (·.ticketHash)).Nodup ∧ (committee.map (·.participant)).Nodup)
    .invalidRabbitVRFCommitteeCommitmentV1
  .ok (committee.mapIdx fun index seat => ⟨UInt64.ofNat (index + 1), seat.ticketHash, seat.participant⟩)

def RabbitVRFCommitteeMemberV1.item (member : RabbitVRFCommitteeMemberV1) : Rlp.Item :=
  .list [toItem member.shareID, toItem member.ticketHash, toItem member.participant]

def rabbitVRFCommitteeRootV1 (sourceEpoch : Nat) (selectionRoot committeeSeed : Hash) (committee : List WorkSeatV1) :
    Except LqcError (Hash × List RabbitVRFCommitteeMemberV1) := do
  ensure (chainID ≠ 0 ∧ sourceEpoch ≠ 0 ∧ selectionRoot ≠ 0 ∧ committeeSeed ≠ 0)
    .invalidRabbitVRFCommitteeCommitmentV1
  let members ← rabbitVRFCommitteeMembersV1 committee
  ensure (members ≠ []) .invalidRabbitVRFCommitteeCommitmentV1
  let root := crypto.keccak256 <| Rlp.encode <| .list [textItem "RABBIT-VRF-COMMITTEE-ROOT-V1", natItem 1,
    natItem chainID, natItem sourceEpoch, toItem selectionRoot, toItem committeeSeed,
    .list (members.map RabbitVRFCommitteeMemberV1.item)]
  ensure (root ≠ 0) .invalidRabbitVRFCommitteeCommitmentV1
  .ok (root, members)

/-! ### Available participants -/

/-- The participant of a seat is active, free of penalties and was heard from within the window. -/
def availableAt (registry : CanonicalRegistry) (referenceBlock heartbeatWindow : Nat) (seat : WorkSeatV1) : Bool :=
  (registry.participant? seat.participant).any fun participant =>
    participant.active && decide (participant.jailedUntil ≤ referenceBlock ∧ participant.lastHeartbeat ≠ 0 ∧
      participant.lastHeartbeat ≤ referenceBlock ∧ referenceBlock - participant.lastHeartbeat ≤ heartbeatWindow)

def rabbitVRFAvailableCandidatesV2 (seats : List WorkSeatV1) (registry : RegistrySnapshot)
    (referenceBlock heartbeatWindow : Nat) : Except LqcError (List WorkSeatV1) := do
  ensure (registry.number = referenceBlock ∧ heartbeatWindow ≠ 0) .invalidVRFAvailabilityReference
  ensure (registry.registry.participant? 0 = none) .zeroRegistryParticipant
  ensure ((∀ seat ∈ seats, seat.participant ≠ 0) ∧ (seats.map (·.participant)).Nodup) .duplicateVRFCandidate
  .ok (seats.filter (availableAt registry.registry referenceBlock heartbeatWindow))

/-- The root, the seed and the members of the committee of those available. -/
def rabbitVRFAvailableCommitteeWithSeedV2 (snapshot : WorkEpochSnapshotV1) (registry : RegistrySnapshot)
    (referenceBlock heartbeatWindow maxSize : Nat) (entropy : Hash) :
    Except LqcError (Hash × Hash × List RabbitVRFCommitteeMemberV1) := do
  ensure (chainID ≠ 0 ∧ registry.hash ≠ 0 ∧ registry.registry.root crypto ≠ 0 ∧ entropy ≠ 0 ∧ 1 ≤ maxSize ∧
    maxSize ≤ 128) .invalidVRFV2CommitteeContext
  snapshot.validate crypto chainID
  let candidates ← rabbitVRFAvailableCandidatesV2 snapshot.seats registry referenceBlock heartbeatWindow
  ensure (candidates ≠ []) .insufficientVRFV2Candidates
  let seed := crypto.keccak256 <| Rlp.encode <| .list [textItem "RABBIT-VRF-AVAILABLE-COMMITTEE-V2",
    natItem chainID, natItem snapshot.epoch, toItem snapshot.root, natItem referenceBlock, toItem registry.hash,
    toItem (registry.registry.root crypto), natItem heartbeatWindow, natItem maxSize, toItem entropy,
    seatItems candidates]
  let committee ← deterministicallySelectWorkSeatsV1 crypto candidates seed
    (rabbitVRFCommitteeSizeV1 candidates.length 32 maxSize) none
  let rooted ← rabbitVRFCommitteeRootV1 crypto chainID snapshot.epoch snapshot.root seed committee
  .ok (rooted.1, seed, rooted.2)

/-! ### Sessions -/

def newRabbitVRFDKGSessionContextV1 (targetVRFEpoch : Nat) (committeeRoot : Hash) (committeeSize : Nat) :
    Except LqcError RabbitVRFDKGSessionContextV1 := do
  ensure (chainID ≠ 0 ∧ targetVRFEpoch ≠ 0 ∧ committeeRoot ≠ 0) .invalidRabbitVRFDKGSessionV1
  let policy ← orFail .invalidRabbitVRFDKGSessionV1 (rabbitVRFThresholdPolicyV1 committeeSize)
  .ok ⟨1, chainID, targetVRFEpoch, committeeRoot, committeeSize, policy.1, policy.2⟩

structure RabbitVRFDKGBridgeV1 where
  sourceWorkEpoch : Nat
  preparationEpoch : Nat
  targetVRFEpoch : Nat
  selectionRoot : Hash
  datasetKey : Hash
  entropy : Hash
  committeeSeed : Hash
  committeeRoot : Hash
  members : List RabbitVRFCommitteeMemberV1
  session : RabbitVRFDKGSessionContextV1
  sessionID : Hash

def bridgeOfCommittee (snapshot : WorkEpochSnapshotV1) (datasetKey entropy : Hash)
    (committee : Hash × Hash × List RabbitVRFCommitteeMemberV1) : Except LqcError RabbitVRFDKGBridgeV1 := do
  let preparationEpoch ← rabbitVRFDKGPreparationEpochForSourceV1 snapshot.epoch
  let targetVRFEpoch ← rabbitVRFTargetEpochForSourceWorkEpochV1 snapshot.epoch
  let session ← newRabbitVRFDKGSessionContextV1 chainID targetVRFEpoch committee.1 committee.2.2.length
  let sessionID ← orFail .invalidRabbitVRFDKGSessionV1 (rabbitVRFDKGSessionIDV1 crypto session)
  .ok ⟨snapshot.epoch, preparationEpoch, targetVRFEpoch, snapshot.root, datasetKey, entropy, committee.2.1,
    committee.1, committee.2.2, session, sessionID⟩

def rabbitVRFAvailableBridgeV2 (snapshot : WorkEpochSnapshotV1) (datasetKey : Hash) (registry : RegistrySnapshot)
    (epochLength window : Nat) : Except LqcError (Option RabbitVRFDKGBridgeV1) := do
  snapshot.validate crypto chainID
  let start ← failAs .invalidRabbitVRFEpochV1 (rabbitVRFDKGPreparationStartBlockV1 snapshot.epoch epochLength)
  ensure (start ≠ 0) .invalidRabbitVRFEpochV1
  ensure (registry.number = start - 1) .frozenPreparationRegistry
  let _ ← registry.open crypto
  let candidates ← rabbitVRFAvailableCandidatesV2 snapshot.seats registry registry.number window
  if candidates = [] then .ok none
  else do
    let entropy ← deriveWorkSelectionEntropyV1 crypto chainID snapshot.epoch snapshot.root datasetKey
    let committee ← rabbitVRFAvailableCommitteeWithSeedV2 crypto chainID snapshot registry registry.number window 128
      entropy
    let bridge ← bridgeOfCommittee crypto chainID snapshot datasetKey entropy committee
    .ok (some bridge)

end Committees

end RabbitLqc
