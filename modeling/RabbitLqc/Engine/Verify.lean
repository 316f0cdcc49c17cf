import RabbitLqc.Engine.Chain

/-!
# Header verification

A header is checked against the branch it extends: its time and seal, its envelope, the author
and registry by the selection its parent gives, and the work and claim states by their roots.
-/

namespace RabbitLqc
open Lib

namespace LQC

variable (lqc : LQC) (branch : Branch) (header : Header)

/-! ### Selection and registry -/

/-- The selection of a header, with ancestors looked up from the block of the given work state. -/
def workSelectionForHeader (runtime : CanonicalWorkRuntimeStateV1) (registry : RegistrySnapshot) :
    Except LqcError (HybridSelection × Bool) :=
  workV1EngineLabSelectionForHeader lqc.crypto lqc.config lqc.chainID
    (fun number => (branch.ancestor? runtime.work.number number).map (·.header.hash lqc.crypto))
    runtime registry header

def canonicalSelection (snapshot : RegistrySnapshot) : Except LqcError HybridSelection := do
  let registry ← snapshot.open lqc.crypto
  .ok <| lqc.config.canonicalRoles <| registry.orderedParticipantsForBlock lqc.crypto
    header.parentHash header.number lqc.config.registryRules.activationDelay

def applyRegistryHeaderWithOpenActivation (parent : RegistrySnapshot) (openActivation : Bool) :
    Except LqcError RegistrySnapshot :=
  parent.applyHeaderWithOpenActivation lqc.crypto lqc.chainID lqc.config.registryRules header
    openActivation (lqc.config.consensusCommitteeLivenessActive header.number)

/-- A registry header by the rules before work: any member of the registry queue may author it. -/
def verifyCanonicalRegistryHeader : Except LqcError (HybridSelection × RegistrySnapshot) := do
  let parent ← lqc.registryParentSnapshot branch header
  let selection ← lqc.canonicalSelection header parent
  let openActivation := lqc.openActivationForHeader branch header
  let child ← lqc.applyRegistryHeaderWithOpenActivation header parent openActivation
  .ok (if openActivation then { ordered := [header.coinbase] } else selection, child)

def workV1EngineLabApplyRegistryBySeats (parent : RegistrySnapshot) (envelope : LQCHeaderEnvelopeV3)
    (selection : HybridSelection) : Except LqcError RegistrySnapshot := do
  ensure (parent.number ≠ maxUint64 ∧ header.number = parent.number + 1 ∧
    header.parentHash = parent.hash) .registrySnapshotChainMismatch
  ensure (lqc.config.isAuthorAllowedAt header.number selection header.coinbase ≠ none)
    .unauthorizedRegistryProducer
  let registry ← parent.open lqc.crypto
  let live ← lqc.config.workV1EngineLabApplySeatLiveness registry header.number selection
    header.coinbase
  let extra ← encodeRegistryHeaderExtra envelope.blockNumber envelope.registryRoot
    envelope.registryOperations
  let validated ← validateRegistryHeaderExtra lqc.crypto lqc.chainID header.number
    lqc.config.registryRules.proofDifficulty extra
  let next ← CanonicalRegistry.applyOperations lqc.crypto lqc.chainID header.number
    lqc.config.registryRules.proofDifficulty live validated.operations
  ensure (next.root lqc.crypto = validated.registryRoot) .registryRootMismatch
  .ok ⟨header.number, header.hash lqc.crypto, next⟩

/-- The registry content of a work envelope, checked as a registry header of its own. -/
def verifySyntheticRegistryHeader (envelope : LQCHeaderEnvelopeV3) :
    Except LqcError (HybridSelection × RegistrySnapshot) := do
  let extra ← encodeRegistryHeaderExtra envelope.blockNumber envelope.registryRoot
    envelope.registryOperations
  let verified ← lqc.verifyCanonicalRegistryHeader branch { header with extra }
  let registry ← verified.2.open lqc.crypto
  .ok (verified.1, ⟨header.number, header.hash lqc.crypto, registry⟩)

/-! ### Work and claims -/

def workV1EngineLabContext (parent : CanonicalWorkRuntimeStateV1) (registryRoot : Hash) :
    Except LqcError LQCHeaderWorkRuntimeContextV1 := do
  let blockNumber := UInt64.ofNat header.number
  match ← workCommitTargetEpochV1 header.number parent.work.epochLength with
  | none => .ok ⟨lqc.chainID, parent, blockNumber, registryRoot, 0, 0⟩
  | some epoch => do
    let datasetNumber ← workDatasetAnchorBlockV1 epoch parent.work.epochLength
    let challengeNumber ← workChallengeAnchorBlockV1 epoch parent.work.epochLength
    match branch.ancestor? parent.work.number datasetNumber,
        branch.ancestor? parent.work.number challengeNumber with
    | some dataset, some challenge =>
      .ok ⟨lqc.chainID, parent, blockNumber, registryRoot, dataset.header.hash lqc.crypto,
        challenge.header.hash lqc.crypto⟩
    | _, _ => .error .workV1EngineLabParentMissing

def workV1EngineLabCommitteeSeatsV1 (selection : HybridSelection) (seats : List WorkSeatV1) :
    Except LqcError (List WorkSeatV1) :=
  selection.committee.mapM fun participant =>
    match seats.reverse.find? (·.participant = participant) with
    | none => .error .workV1EngineLabSelectionUnavailable
    | some seat => .ok seat

def electsBy (runtime : CanonicalWorkRuntimeStateV1) (sourceEpoch : Nat) : Bool :=
  runtime.work.selection.any fun source => source.epoch = sourceEpoch ∧ source.root ≠ 0

/-- The work state that still carries the selection of an epoch: the newest one, or the last one
before the epoch of the target closed. -/
def selectionCarrier (newest : CanonicalWorkRuntimeStateV1) (fromNumber targetBlock sourceEpoch : Nat) :
    Except LqcError CanonicalWorkRuntimeStateV1 :=
  if electsBy newest sourceEpoch then .ok newest
  else do
    let targetEpoch ← workEpochForBlockV1 targetBlock newest.work.epochLength
    ensure (targetEpoch ≤ maxUint64 / newest.work.epochLength)
      .invalidCommitteeParticipationVerificationV1
    let carrierNumber := targetEpoch * newest.work.epochLength - 1
    ensure (carrierNumber ≤ fromNumber) .workV1EngineLabSelectionUnavailable
    match branch.ancestor? fromNumber carrierNumber with
    | none => .error .workV1EngineLabParentMissing
    | some carrier => do
      let runtime ← carrier.runtime
      ensure (electsBy runtime sourceEpoch) .workV1EngineLabSelectionUnavailable
      .ok runtime

/-- What a target block fixes about the claims for it, given the state that carries its selection.
The selection is derived anew; whether it was an active one is not looked at. -/
def claimContext (carrier : CanonicalWorkRuntimeStateV1) (sourceEpoch : Nat) (target : Header)
    (registry : RegistrySnapshot) : Except LqcError CommitteeParticipationVerificationContextV1 := do
  let selected ← lqc.workSelectionForHeader branch target carrier registry
  let committee ← workV1EngineLabCommitteeSeatsV1 selected.1 carrier.work.selectionSeats
  let datasetNumber ← workDatasetAnchorBlockV1 sourceEpoch carrier.work.epochLength
  match branch.ancestor? carrier.work.number datasetNumber with
  | none => .error .workV1EngineLabParentMissing
  | some dataset => do
    let datasetKey ← randomXWorkDatasetKeyV1 lqc.crypto lqc.chainID sourceEpoch
      (dataset.header.hash lqc.crypto)
    .ok ⟨lqc.chainID, datasetKey, target.parentHash,
      (carrier.work.selection.map (·.root)).getD 0, committee⟩

/-- The committee of an earlier block of the branch, rebuilt for the claims of a later one. -/
def workV1EngineLabClaimResolver (targetBlock : Nat) :
    Except LqcError CommitteeParticipationVerificationContextV1 :=
  match branch with
  | [] => .error .invalidCommitteeParticipationVerificationV1
  | newest :: _ => do
    let fromNumber := newest.header.number
    ensure (targetBlock ≠ 0 ∧ targetBlock ≤ fromNumber) .invalidCommitteeParticipationVerificationV1
    match branch.ancestor? fromNumber targetBlock, branch.ancestor? fromNumber (targetBlock - 1) with
    | some target, some parent => do
      let runtime ← newest.runtime
      match workSelectionSourceEpochV1 targetBlock runtime.work.epochLength with
      | .ok (some sourceEpoch) => do
        let carrier ← selectionCarrier branch runtime fromNumber targetBlock sourceEpoch
        let registry ← parent.registry
        lqc.claimContext branch carrier sourceEpoch target.header registry
      | _ => .error .invalidCommitteeParticipationVerificationV1
    | _, _ => .error .workV1EngineLabParentMissing

def workV1EngineLabV4Context (work : LQCHeaderWorkRuntimeContextV1) :
    Except LqcError LQCHeaderV4RuntimeContextV1 := do
  let parentClaims ← lqc.workV1EngineLabParentClaimLedger branch header.number
  .ok ⟨work, parentClaims, lqc.workV1EngineLabClaimResolver branch⟩

end LQC

/-- The work envelope of a header. -/
inductive WorkEnvelope where
  | v3 (envelope : LQCHeaderEnvelopeV3)
  | v4 (envelope : LQCHeaderEnvelopeV4)
  | v5 (envelope : LQCHeaderEnvelopeV5)

namespace WorkEnvelope

def base : WorkEnvelope → LQCHeaderEnvelopeV3
  | v3 envelope => envelope
  | v4 envelope => envelope.base
  | v5 envelope => envelope.base

def claims : WorkEnvelope → List CommitteeParticipationClaimGroupV1
  | v3 _ => []
  | v4 envelope => envelope.committeeParticipationClaims
  | v5 envelope => envelope.committeeParticipationClaims

end WorkEnvelope

namespace LQC

variable (lqc : LQC) (branch : Branch) (header : Header)

/-- The envelope version follows from the height. Before the third liveness rule a header may
still be a plain registry header. -/
def decodeWorkEnvelope : Except LqcError (Option WorkEnvelope) :=
  if lqc.config.consensusLivenessV3Active header.number then
    if lqc.config.isRabbitVRF header.number then do
      let envelope ← decodeLQCHeaderExtraV5 lqc.bls header.extra maxWorkTicketsPerBlockV1
      .ok (some (.v5 envelope))
    else do
      let envelope ← decodeLQCHeaderExtraV4 header.extra maxWorkTicketsPerBlockV1
      .ok (some (.v4 envelope))
  else match decodeLQCHeaderExtraV3 header.extra maxWorkTicketsPerBlockV1 with
    | .ok envelope => .ok (some (.v3 envelope))
    | .error _ => .ok none

def rememberClaimLedger (ledger : CommitteeClaimLedgerV1) : Except LqcError CommitteeClaimLedgerV1 := do
  ensure (header.hash lqc.crypto ≠ 0) .workV1EngineLabUnavailable
  ledger.validate
  .ok ledger

def checkArtifacts (envelope : LQCHeaderEnvelopeV5) : Except LqcError Unit :=
  if envelope.rabbitVRFKeysetCertificates ≠ [] ∨ envelope.rabbitVRFFinalizations ≠ [] then
    lqc.verifyArtifacts branch header envelope
  else .ok ()

def applyWorkEnvelope (ctx : LQCHeaderWorkRuntimeContextV1) :
    WorkEnvelope → Except LqcError (CanonicalWorkRuntimeStateV1 × Option CommitteeClaimLedgerV1)
  | .v3 _ => do
    let applied ← validateAndApplyLQCHeaderExtraV3WithCanonicalWorkV1 lqc.crypto ctx
      (header.hash lqc.crypto) header.extra
    .ok (applied.2, none)
  | .v4 _ => do
    let full ← lqc.workV1EngineLabV4Context branch header ctx
    let applied ← validateAndApplyLQCHeaderExtraV4WithCanonicalRuntimeV1 lqc.crypto full
      (header.hash lqc.crypto) header.extra
    let ledger ← lqc.rememberClaimLedger header applied.2.2.1
    .ok (applied.2.1, some ledger)
  | .v5 _ => do
    let full ← lqc.workV1EngineLabV4Context branch header ctx
    let applied ← validateAndApplyLQCHeaderExtraV5WithCanonicalRuntimeV1 lqc.crypto lqc.bls full
      (header.hash lqc.crypto) header.extra
    lqc.checkArtifacts branch header applied.1
    let ledger ← lqc.rememberClaimLedger header applied.2.2.1
    .ok (applied.2.1, some ledger)

/-- The selection and the registry of a header with a work envelope. The selection its parent
gives decides unless it is empty; then the registry queue does. -/
def verifyRegistryOf (envelope : LQCHeaderEnvelopeV3) (runtime : CanonicalWorkRuntimeStateV1)
    (parent : RegistrySnapshot) : Except LqcError (HybridSelection × RegistrySnapshot) :=
  if lqc.openActivationForHeader branch header then
    lqc.verifySyntheticRegistryHeader branch header envelope
  else do
    let selected ← lqc.workSelectionForHeader branch header runtime parent
    if selected.1.ordered ≠ [] then do
      let snapshot ← lqc.workV1EngineLabApplyRegistryBySeats header parent envelope selected.1
      .ok (selected.1, snapshot)
    else lqc.verifySyntheticRegistryHeader branch header envelope

def verifyWorkHeader (envelope : WorkEnvelope) : Except LqcError (HybridSelection × Entry) := do
  let runtime ← parentRuntime branch
  let parent ← lqc.registryParentSnapshot branch header
  let verified ← lqc.verifyRegistryOf branch header envelope.base runtime parent
  let ctx ← lqc.workV1EngineLabContext branch header runtime envelope.base.registryRoot
  let applied ← lqc.applyWorkEnvelope branch header ctx envelope
  ensure (header.hash lqc.crypto ≠ 0) .workV1EngineLabUnavailable
  .ok (verified.1, ⟨header, .ok applied.1, .ok verified.2, applied.2⟩)

def verifyPlainHeader : Except LqcError (HybridSelection × Entry) := do
  let verified ← lqc.verifyCanonicalRegistryHeader branch header
  .ok (verified.1, ⟨header, lqc.replayRuntime header (parentRuntime branch), .ok verified.2, none⟩)

def verifyCanonicalRegistryHeaderMaybeWorkV1Lab : Except LqcError (HybridSelection × Entry) := do
  match ← lqc.decodeWorkEnvelope header with
  | some envelope => lqc.verifyWorkHeader branch header envelope
  | none => lqc.verifyPlainHeader branch header

/-! ### Headers -/

def verifyExtra : Except LqcError Unit :=
  match splitProducerSeal header.extra with
  | none => .error .invalidExtra
  | some (payload, _) =>
    ensure (payload = asciiBytes ("LQC:1:" ++ toString header.number)) .invalidExtra

/-- Rebuilding the work state reads the envelope first, by the height alone: the fixed text is no
envelope, so there is no work state once the third liveness rule is active. -/
def legacyRuntime : Except LqcError CanonicalWorkRuntimeStateV1 := do
  let runtime ← parentRuntime branch
  let _ ← lqc.decodeWorkEnvelope header
  lqc.replayRuntime header (.ok runtime)

def legacyEntry : Entry where
  header
  runtime := lqc.legacyRuntime branch header
  registry := lqc.registryBelowActivation header
  claims := none

def verifyContent : Except LqcError (HybridSelection × Entry) :=
  if header.number = 1 then do
    ensure (header.coinbase ≠ 0) .missingCoinbase
    if lqc.config.registryProtocolEnabled header.number then do
      let verified ← lqc.verifyCanonicalRegistryHeaderMaybeWorkV1Lab branch header
      .ok ({ verified.1 with ordered := [header.coinbase] }, verified.2)
    else do
      verifyExtra header
      .ok ({ ordered := [header.coinbase] }, lqc.legacyEntry branch header)
  else if lqc.config.registryProtocolEnabled header.number then
    lqc.verifyCanonicalRegistryHeaderMaybeWorkV1Lab branch header
  else do
    verifyExtra header
    .ok (lqc.legacySelection branch header, lqc.legacyEntry branch header)

/-- The author has its turn, by the time of the block and by the clock of the node. -/
def verifyTurn (unixNow : Nat) (parent : Header) (selection : HybridSelection) :
    Except LqcError Unit :=
  if selection.ordered = [] then .ok ()
  else match lqc.config.isAuthorAllowedAt header.number selection header.coinbase with
    | none => .error .unauthorizedProducer
    | some queuePos => do
      let minTime ← lqc.config.minAllowedTimeChecked parent.time queuePos
      ensure (lqc.config.consensusFairnessActive header.number → minTime ≤ unixNow) .futureBlock
      ensure (minTime ≤ header.time) .publishedTooEarly

def verifyFields (unixNow : Nat) (parent : Header) : Except LqcError Unit := do
  ensure (header.number ≤ maxUint64) .invalidBlockNumber
  ensure (header.parentHash = parent.hash lqc.crypto) .unknownAncestor
  ensure (header.number = parent.number + 1) .invalidBlockNumber
  ensure (header.time ≤ (checkedRegistryBlockAdd [unixNow,
    lqc.config.futureBlockTimeTolerance header.number]).getD maxUint64) .futureBlock
  ensure (parent.time < header.time) .nonIncreasingBlockTime
  -- a claimed time does not open recovery before the clock of the node does
  ensure (lqc.config.consensusFairnessActive header.number ∧
      ¬ lqc.config.isConsensusFairnessBlock header.number ∧
      lqc.config.recoveryOpenAt parent header.time → lqc.config.recoveryOpenAt parent unixNow) .futureBlock
  ensure (header.difficulty = 0) .nonzeroDifficulty
  ensure (header.nonce = 0) .nonzeroNonce
  ensure (header.mixDigest = 0) .nonzeroMixDigest
  lqc.executionRules parent header
  verifyProducerSeal lqc.crypto lqc.chainID header

def verifyHeaderAt (unixNow : Nat) : Except LqcError Entry :=
  match branch with
  | [] => .error .unknownAncestor
  | parent :: _ => do
    lqc.verifyFields header unixNow parent.header
    let verified ← lqc.verifyContent branch header
    lqc.verifyTurn header unixNow parent.header verified.1
    .ok verified.2

end LQC

/-- Branches of accepted headers: the genesis is taken as it is configured, every other header
was verified at some time on the branch below it. -/
inductive Accepted (lqc : LQC) : Branch → Prop
  | genesis (header : Header) (first : header.number = 0) : Accepted lqc [lqc.genesisEntry header]
  | extend {branch : Branch} {header : Header} {unixNow : Nat} {entry : Entry}
      (below : Accepted lqc branch) (verified : lqc.verifyHeaderAt branch header unixNow = .ok entry) :
      Accepted lqc (entry :: branch)

end RabbitLqc
