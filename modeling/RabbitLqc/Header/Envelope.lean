import RabbitLqc.Claims.Group
import RabbitLqc.Vrf.Finalization
import RabbitLqc.Work.Ticket

/-!
# Consensus envelopes

The third envelope version adds work tickets to the registry content, the fourth committee
claims, the fifth randomness artifacts. Encoders put every list into canonical order; decoders
accept only what an encoder could have written.
-/

namespace RabbitLqc
open Lib RlpCodec

def maxRegistryOperationsWithCommitteeClaimsV1 : Nat := 48

def maxRabbitVRFFinalizationsPerBlockV1 : Nat := 32

def maxRabbitVRFKeysetCertificatesPerBlockV1 : Nat := 1

/-! ### Version 3 -/

structure LQCHeaderEnvelopeV3 where
  version : UInt8
  blockNumber : UInt64
  registryRoot : Hash
  workStateRoot : Hash
  registryOperations : List RegistryOperation
  workTickets : List SignedRandomXWorkTicketV1
  deriving DecidableEq

instance : RlpCodec LQCHeaderEnvelopeV3 where
  toItem envelope := .list [toItem envelope.version, toItem envelope.blockNumber,
    toItem envelope.registryRoot, toItem envelope.workStateRoot, toItem envelope.registryOperations,
    toItem envelope.workTickets]
  ofItem
    | .list [version, blockNumber, registryRoot, workStateRoot, operations, tickets] => do
      some ⟨← ofItem version, ← ofItem blockNumber, ← ofItem registryRoot, ← ofItem workStateRoot,
        ← ofItem operations, ← ofItem tickets⟩
    | _ => none
  ofItem_toItem envelope := by simp

/-- Decoded operations are valid and in canonical order. -/
def checkCanonicalOperations (operations : List RegistryOperation) : Except LqcError Unit := do
  let canonical := canonicalRegistryOperations operations
  validateRegistryHeaderOperations canonical
  ensure (canonical = operations) .nonCanonicalRegistryOperations

def checkCanonicalTickets (tickets : List SignedRandomXWorkTicketV1) (maxWorkTickets : Nat) :
    Except LqcError Unit := do
  let canonical ← canonicalWorkTicketsV3 tickets maxWorkTickets
  ensure (canonical = tickets) .nonCanonicalWorkTicketsV3

def encodeLQCHeaderExtraV3 (blockNumber : UInt64) (registryRoot workStateRoot : Hash)
    (registryOperations : List RegistryOperation) (workTickets : List SignedRandomXWorkTicketV1)
    (maxWorkTickets : Nat) : Except LqcError Bytes := do
  ensure (blockNumber ≠ 0 ∧ registryRoot ≠ 0 ∧ workStateRoot ≠ 0) .invalidLQCHeaderExtraV3
  ensure (maxWorkTickets ≠ 0) .invalidWorkTicketLimitV3
  let canonicalRegistry := canonicalRegistryOperations registryOperations
  validateRegistryHeaderOperations canonicalRegistry
  let canonicalTickets ← canonicalWorkTicketsV3 workTickets maxWorkTickets
  frameExtra .invalidLQCHeaderExtraV3
    (⟨3, blockNumber, registryRoot, workStateRoot, canonicalRegistry, canonicalTickets⟩
      : LQCHeaderEnvelopeV3)

def decodeLQCHeaderExtraV3 (extra : Bytes) (maxWorkTickets : Nat) :
    Except LqcError LQCHeaderEnvelopeV3 := do
  ensure (maxWorkTickets ≠ 0) .invalidWorkTicketLimitV3
  let opened : Bytes × LQCHeaderEnvelopeV3 ← openExtra .invalidLQCHeaderExtraV3 extra
  let envelope := opened.2
  ensure (envelope.version = 3) .unsupportedLQCHeaderV3
  ensure (envelope.blockNumber ≠ 0 ∧ envelope.registryRoot ≠ 0 ∧ envelope.workStateRoot ≠ 0)
    .invalidLQCHeaderExtraV3
  checkCanonicalOperations envelope.registryOperations
  checkCanonicalTickets envelope.workTickets maxWorkTickets
  let reencoded ← encodeLQCHeaderExtraV3 envelope.blockNumber envelope.registryRoot
    envelope.workStateRoot envelope.registryOperations envelope.workTickets maxWorkTickets
  sameEnvelope .invalidLQCHeaderExtraV3 reencoded opened.1
  .ok envelope

def validateLQCHeaderExtraV3 (blockNumber maxWorkTickets : Nat) (extra : Bytes) :
    Except LqcError LQCHeaderEnvelopeV3 := do
  let envelope ← decodeLQCHeaderExtraV3 extra maxWorkTickets
  ensure (envelope.blockNumber.toNat = blockNumber) .lqcHeaderBlockMismatchV3
  .ok envelope

/-! ### Version 4 -/

/-- From this version on a header claims rewards for the committees of earlier blocks. -/
structure LQCHeaderEnvelopeV4 where
  version : UInt8
  blockNumber : UInt64
  registryRoot : Hash
  workStateRoot : Hash
  committeeClaimRoot : Hash
  registryOperations : List RegistryOperation
  workTickets : List SignedRandomXWorkTicketV1
  committeeParticipationClaims : List CommitteeParticipationClaimGroupV1
  deriving DecidableEq

instance : RlpCodec LQCHeaderEnvelopeV4 where
  toItem envelope := .list [toItem envelope.version, toItem envelope.blockNumber,
    toItem envelope.registryRoot, toItem envelope.workStateRoot, toItem envelope.committeeClaimRoot,
    toItem envelope.registryOperations, toItem envelope.workTickets,
    toItem envelope.committeeParticipationClaims]
  ofItem
    | .list [version, blockNumber, registryRoot, workStateRoot, claimRoot, operations, tickets,
        claims] => do
      some ⟨← ofItem version, ← ofItem blockNumber, ← ofItem registryRoot, ← ofItem workStateRoot,
        ← ofItem claimRoot, ← ofItem operations, ← ofItem tickets, ← ofItem claims⟩
    | _ => none
  ofItem_toItem envelope := by simp

/-- Claims leave room for fewer registry operations. -/
def validateClaimRegistryOperationCapacityV4 (operations : List RegistryOperation)
    (claims : List CommitteeParticipationClaimGroupV1) : Except LqcError Unit :=
  ensure (claims ≠ [] → operations.length ≤ maxRegistryOperationsWithCommitteeClaimsV1)
    .tooManyClaimRegistryOperationsV4

def encodeLQCHeaderExtraV4 (blockNumber : UInt64)
    (registryRoot workStateRoot committeeClaimRoot : Hash)
    (registryOperations : List RegistryOperation) (workTickets : List SignedRandomXWorkTicketV1)
    (committeeClaims : List CommitteeParticipationClaimGroupV1) (maxWorkTickets : Nat) :
    Except LqcError Bytes := do
  ensure (blockNumber ≠ 0 ∧ registryRoot ≠ 0 ∧ workStateRoot ≠ 0 ∧ committeeClaimRoot ≠ 0 ∧
    maxWorkTickets ≠ 0) .invalidLQCHeaderExtraV4
  let canonicalRegistry := canonicalRegistryOperations registryOperations
  validateRegistryHeaderOperations canonicalRegistry
  let canonicalTickets ← canonicalWorkTicketsV3 workTickets maxWorkTickets
  let canonicalClaims ←
    canonicalCommitteeParticipationClaimGroupsV1 blockNumber.toNat committeeClaims
  validateClaimRegistryOperationCapacityV4 canonicalRegistry canonicalClaims
  frameExtra .invalidLQCHeaderExtraV4
    (⟨4, blockNumber, registryRoot, workStateRoot, committeeClaimRoot, canonicalRegistry,
      canonicalTickets, canonicalClaims⟩ : LQCHeaderEnvelopeV4)

def decodeLQCHeaderExtraV4 (extra : Bytes) (maxWorkTickets : Nat) :
    Except LqcError LQCHeaderEnvelopeV4 := do
  ensure (maxWorkTickets ≠ 0) .invalidLQCHeaderExtraV4
  let opened : Bytes × LQCHeaderEnvelopeV4 ← openExtra .invalidLQCHeaderExtraV4 extra
  let envelope := opened.2
  ensure (envelope.version = 4) .unsupportedLQCHeaderV4
  ensure (envelope.blockNumber ≠ 0 ∧ envelope.registryRoot ≠ 0 ∧ envelope.workStateRoot ≠ 0 ∧
    envelope.committeeClaimRoot ≠ 0) .invalidLQCHeaderExtraV4
  checkCanonicalOperations envelope.registryOperations
  checkCanonicalTickets envelope.workTickets maxWorkTickets
  validateCanonicalCommitteeParticipationClaimGroupsV1 envelope.blockNumber.toNat
    envelope.committeeParticipationClaims
  validateClaimRegistryOperationCapacityV4 envelope.registryOperations
    envelope.committeeParticipationClaims
  let reencoded ← encodeLQCHeaderExtraV4 envelope.blockNumber envelope.registryRoot
    envelope.workStateRoot envelope.committeeClaimRoot envelope.registryOperations
    envelope.workTickets envelope.committeeParticipationClaims maxWorkTickets
  sameEnvelope .invalidLQCHeaderExtraV4 reencoded opened.1
  .ok envelope

def validateLQCHeaderExtraV4 (blockNumber maxWorkTickets : Nat) (extra : Bytes) :
    Except LqcError LQCHeaderEnvelopeV4 := do
  let envelope ← decodeLQCHeaderExtraV4 extra maxWorkTickets
  ensure (envelope.blockNumber.toNat = blockNumber) .lqcHeaderBlockMismatchV4
  .ok envelope

/-! ### Version 5 -/

/-- The last version adds a keyset certificate and finalized randomness. -/
structure LQCHeaderEnvelopeV5 where
  version : UInt8
  blockNumber : UInt64
  registryRoot : Hash
  workStateRoot : Hash
  committeeClaimRoot : Hash
  registryOperations : List RegistryOperation
  workTickets : List SignedRandomXWorkTicketV1
  committeeParticipationClaims : List CommitteeParticipationClaimGroupV1
  rabbitVRFKeysetCertificates : List RabbitVRFKeysetCertificateV1
  rabbitVRFFinalizations : List RabbitVRFFinalizationV1
  deriving DecidableEq

instance : RlpCodec LQCHeaderEnvelopeV5 where
  toItem envelope := .list [toItem envelope.version, toItem envelope.blockNumber,
    toItem envelope.registryRoot, toItem envelope.workStateRoot, toItem envelope.committeeClaimRoot,
    toItem envelope.registryOperations, toItem envelope.workTickets,
    toItem envelope.committeeParticipationClaims, toItem envelope.rabbitVRFKeysetCertificates,
    toItem envelope.rabbitVRFFinalizations]
  ofItem
    | .list [version, blockNumber, registryRoot, workStateRoot, claimRoot, operations, tickets,
        claims, certificates, finalizations] => do
      some ⟨← ofItem version, ← ofItem blockNumber, ← ofItem registryRoot, ← ofItem workStateRoot,
        ← ofItem claimRoot, ← ofItem operations, ← ofItem tickets, ← ofItem claims,
        ← ofItem certificates, ← ofItem finalizations⟩
    | _ => none
  ofItem_toItem envelope := by simp

def encodeLQCHeaderExtraV5 (blockNumber : UInt64)
    (registryRoot workStateRoot committeeClaimRoot : Hash)
    (registryOperations : List RegistryOperation) (workTickets : List SignedRandomXWorkTicketV1)
    (committeeClaims : List CommitteeParticipationClaimGroupV1)
    (vrfKeysetCertificates : List RabbitVRFKeysetCertificateV1)
    (vrfFinalizations : List RabbitVRFFinalizationV1) (maxWorkTickets : Nat) :
    Except LqcError Bytes := do
  ensure (blockNumber ≠ 0 ∧ registryRoot ≠ 0 ∧ workStateRoot ≠ 0 ∧ committeeClaimRoot ≠ 0 ∧
    maxWorkTickets ≠ 0) .invalidLQCHeaderExtraV5
  ensure (vrfFinalizations.length ≤ maxRabbitVRFFinalizationsPerBlockV1)
    .tooManyRabbitVRFFinalizationsPerBlock
  let canonicalRegistry := canonicalRegistryOperations registryOperations
  validateRegistryHeaderOperations canonicalRegistry
  let canonicalTickets ← canonicalWorkTicketsV3 workTickets maxWorkTickets
  let canonicalClaims ←
    canonicalCommitteeParticipationClaimGroupsV1 blockNumber.toNat committeeClaims
  validateClaimRegistryOperationCapacityV4 canonicalRegistry canonicalClaims
  let canonicalFinalizations ← canonicalRabbitVRFFinalizationsV1 vrfFinalizations
  frameExtra .invalidLQCHeaderExtraV5
    (⟨5, blockNumber, registryRoot, workStateRoot, committeeClaimRoot, canonicalRegistry,
      canonicalTickets, canonicalClaims, vrfKeysetCertificates, canonicalFinalizations⟩
      : LQCHeaderEnvelopeV5)

def decodeLQCHeaderExtraV5 (bls : Bls) (extra : Bytes) (maxWorkTickets : Nat) :
    Except LqcError LQCHeaderEnvelopeV5 := do
  ensure (maxWorkTickets ≠ 0) .invalidLQCHeaderExtraV5
  let opened : Bytes × LQCHeaderEnvelopeV5 ← openExtra .invalidLQCHeaderExtraV5 extra
  let envelope := opened.2
  ensure (envelope.version = 5) .unsupportedLQCHeaderV5
  ensure (envelope.blockNumber ≠ 0 ∧ envelope.registryRoot ≠ 0 ∧ envelope.workStateRoot ≠ 0 ∧
    envelope.committeeClaimRoot ≠ 0 ∧
    envelope.rabbitVRFKeysetCertificates.length ≤ maxRabbitVRFKeysetCertificatesPerBlockV1 ∧
    envelope.rabbitVRFFinalizations.length ≤ maxRabbitVRFFinalizationsPerBlockV1)
    .invalidLQCHeaderExtraV5
  checkCanonicalOperations envelope.registryOperations
  checkCanonicalTickets envelope.workTickets maxWorkTickets
  validateCanonicalCommitteeParticipationClaimGroupsV1 envelope.blockNumber.toNat
    envelope.committeeParticipationClaims
  validateClaimRegistryOperationCapacityV4 envelope.registryOperations
    envelope.committeeParticipationClaims
  envelope.rabbitVRFKeysetCertificates.forM (validateRabbitVRFKeysetCertificateShapeV1 bls)
  validateCanonicalRabbitVRFFinalizationsV1 envelope.rabbitVRFFinalizations
  let reencoded ← encodeLQCHeaderExtraV5 envelope.blockNumber envelope.registryRoot
    envelope.workStateRoot envelope.committeeClaimRoot envelope.registryOperations
    envelope.workTickets envelope.committeeParticipationClaims
    envelope.rabbitVRFKeysetCertificates envelope.rabbitVRFFinalizations maxWorkTickets
  sameEnvelope .invalidLQCHeaderExtraV5 reencoded opened.1
  .ok envelope

def validateLQCHeaderExtraV5 (bls : Bls) (blockNumber maxWorkTickets : Nat) (extra : Bytes) :
    Except LqcError LQCHeaderEnvelopeV5 := do
  let envelope ← decodeLQCHeaderExtraV5 bls extra maxWorkTickets
  ensure (envelope.blockNumber.toNat = blockNumber) .lqcHeaderBlockMismatchV5
  .ok envelope

/-- The longest run of finalizations, from the first `count` of them down, that still fits. -/
def encodeFittingFrom (encode : List RabbitVRFFinalizationV1 → Except LqcError Bytes)
    (finalizations : List RabbitVRFFinalizationV1) : Nat → Except LqcError Bytes
  | 0 => encode []
  | count + 1 => match encode (finalizations.take (count + 1)) with
    | .ok extra => .ok extra
    | .error _ => encodeFittingFrom encode finalizations count

def encodeLQCHeaderExtraV5FittingFinalizationsV1 (blockNumber : UInt64)
    (registryRoot workStateRoot committeeClaimRoot : Hash)
    (registryOperations : List RegistryOperation) (workTickets : List SignedRandomXWorkTicketV1)
    (committeeClaims : List CommitteeParticipationClaimGroupV1)
    (vrfKeysetCertificates : List RabbitVRFKeysetCertificateV1)
    (vrfFinalizations : List RabbitVRFFinalizationV1) (maxWorkTickets : Nat) :
    Except LqcError Bytes := do
  ensure (vrfFinalizations.length ≤ maxRabbitVRFFinalizationsPerBlockV1)
    .tooManyRabbitVRFFinalizationsPerBlock
  let canonicalFinalizations ← canonicalRabbitVRFFinalizationsV1 vrfFinalizations
  encodeFittingFrom (fun kept => encodeLQCHeaderExtraV5 blockNumber registryRoot workStateRoot
    committeeClaimRoot registryOperations workTickets committeeClaims vrfKeysetCertificates kept
    maxWorkTickets) canonicalFinalizations canonicalFinalizations.length

end RabbitLqc
