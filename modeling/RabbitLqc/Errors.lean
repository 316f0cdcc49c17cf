/-!
# Sentinel errors

The errors the consensus code returns, one constructor for each `Err…` value that a modelled
function can produce.
-/

namespace RabbitLqc

inductive LqcError where
  -- committee participation claims
  | invalidCommitteeParticipationClaimV1
  | expiredCommitteeParticipationClaimV1
  | duplicateCommitteeParticipationClaimV1
  | nonCanonicalCommitteeClaimsV1
  | tooManyCommitteeParticipationsV1
  | duplicateCommitteeParticipationV1
  | mixedCommitteeParticipationV1
  | invalidCommitteeClaimLedgerV1
  | committeeParticipationClaimedV1
  | invalidCommitteeParticipationV1
  | invalidCommitteeSignatureV1
  | committeeParticipantNotSelectedV1
  | invalidCompactCommitteeParticipationV1
  | nonCanonicalCommitteeParticipationV1
  | invalidCommitteeParticipationVerificationV1
  | invalidCommitteeClaimRewardV1
  -- registry operations
  | invalidRegistryVersion
  | invalidRegistryAction
  | invalidRegistryAddress
  | invalidRegistrySequence
  | expiredRegistryOperation
  | registryOperationTooFar
  | invalidRegistrySignature
  | invalidLightHashProof
  | participantNotActive
  | participantAlreadyActive
  | registryPoolFull
  | registryOperationKnown
  | registryOperationPending
  -- registry headers and snapshots
  | invalidRegistryHeaderExtra
  | unsupportedRegistryHeader
  | registryHeaderBlockMismatch
  | invalidRegistryRoot
  | tooManyRegistryOperations
  | duplicateRegistryOperation
  | nonCanonicalRegistryOperations
  | invalidRegistrySnapshot
  | registrySnapshotChainMismatch
  | registryRootMismatch
  | unauthorizedRegistryProducer
  -- work tickets
  | invalidRandomXWorkTicket
  | invalidRandomXWorkSignature
  | invalidWorkTicketLimitV3
  | tooManyWorkTicketsV3
  | duplicateWorkTicketV3
  | duplicateWorkParticipantV1
  | nonCanonicalWorkTicketsV3
  | invalidRandomXWorkChainID
  | invalidRandomXWorkAnchor
  | invalidRandomXWorkDifficulty
  | randomXWorkTargetNotMet
  | randomXUnavailable
  | workV2AdmissionParticipantInvalid
  -- work state
  | invalidWorkSeat
  | duplicateRandomXWorkHash
  | workParticipantAlreadySeatedV1
  | invalidWorkEpochLengthV1
  | invalidWorkAnchorScheduleV1
  | invalidWorkEpochV1
  | invalidWorkEpochRootV1
  | invalidWorkChainSnapshotV1
  | workChainSnapshotMismatchV1
  | unexpectedWorkCommitV1
  | workCommitEpochMismatchV1
  | workCommitContextMismatchV1
  | workSelectionSnapshotMissingV1
  | invalidWorkDifficultyV1
  | invalidWorkDifficultyStateV1
  | workDifficultyEpochUnavailableV1
  | workDifficultyClosedEpochMismatchV1
  | invalidCanonicalWorkRuntimeStateV1
  | invalidLQCHeaderRuntimeV3
  | invalidLQCHeaderRuntimeV4
  | lqcHeaderWorkStateRootMismatchV3
  | lqcHeaderRegistryRootMismatchV3
  | lqcHeaderCommitteeClaimRootMismatchV4
  -- work pools and relays
  | workCommitPoolFullV1
  | workCommitPoolUninitializedV1
  | invalidWorkCommitV1
  | lqcWorkV1PoolJournal
  | lqcCommitteeClaimPool
  | emptyCommitteeClaimsPacket
  | lqcWorkV1Context
  -- seat selection
  | invalidWorkSelectionV1
  | invalidWorkSelectionBeaconV1
  | invalidWorkSelectionEntropyV1
  | workV1EngineLabSelectionUnavailable
  | workV1EngineLabParentMissing
  | workV1EngineLabUnavailable
  -- header envelopes
  | invalidLQCHeaderExtraV3
  | unsupportedLQCHeaderV3
  | lqcHeaderBlockMismatchV3
  | invalidLQCHeaderExtraV4
  | unsupportedLQCHeaderV4
  | lqcHeaderBlockMismatchV4
  | tooManyClaimRegistryOperationsV4
  | invalidLQCHeaderExtraV5
  | unsupportedLQCHeaderV5
  | lqcHeaderBlockMismatchV5
  | tooManyRabbitVRFFinalizationsPerBlock
  -- randomness artifacts
  | invalidRabbitVRFFinalizationV1
  | duplicateRabbitVRFFinalizationV1
  | nonCanonicalRabbitVRFFinalizationsV1
  | invalidRabbitVRFKeysetCertificateV1
  -- key generation sessions
  | invalidRabbitVRFEpochV1
  | invalidRabbitVRFCommitteeCommitmentV1
  | invalidRabbitVRFDKGSessionV1
  | invalidRabbitVRFDKGLifecycleV1
  | invalidRabbitVRFDKGPolynomialCommitmentV1
  | invalidRabbitVRFDKGPrivateEvaluationV1
  | invalidVRFAvailabilityReference
  | zeroRegistryParticipant
  | duplicateVRFCandidate
  | frozenPreparationRegistry
  | invalidVRFV2CommitteeContext
  | insufficientVRFV2Candidates
  -- blocks
  | unknownAncestor
  | invalidBlockNumber
  | futureBlock
  | nonIncreasingBlockTime
  | blockTimeOverflow
  | nonzeroDifficulty
  | nonzeroNonce
  | nonzeroMixDigest
  | executionRules
  | missingSealChainID
  | invalidSealHeader
  | missingProducerSeal
  | invalidProducerSeal
  | unauthorizedProducerSeal
  | encodeProducerSeal
  | missingHeaderSigner
  | signHeader
  | missingCoinbase
  | invalidExtra
  | unauthorizedProducer
  | publishedTooEarly
  | registryProtocolUnavailable
  -- the database
  | databaseFailure
  | malformedRecord
  deriving DecidableEq, Repr

end RabbitLqc
