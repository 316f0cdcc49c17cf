import RabbitLqc.Claims.Participation
import RabbitLqc.Header.Capacity
import RabbitLqc.Work.Runtime

/-!
# Headers against the state of their parent

Building a header computes the work and claim states after the block and commits to their roots;
validating one recomputes both. The work root does not depend on the hash of the block, so the
builder uses a placeholder for it.
-/

namespace RabbitLqc
open Lib RlpCodec

/-! ### Work -/

/-- The difficulty is absent: it comes from the parent only. -/
structure LQCHeaderWorkRuntimeContextV1 where
  chainID : Nat
  parent : CanonicalWorkRuntimeStateV1
  blockNumber : UInt64
  registryRoot : Hash
  datasetAnchor : Hash
  challengeAnchor : Hash

namespace LQCHeaderWorkRuntimeContextV1

variable (crypto : Crypto) (ctx : LQCHeaderWorkRuntimeContextV1)

def commitEpoch : Except LqcError (Option Nat) :=
  workCommitTargetEpochV1 ctx.blockNumber.toNat ctx.parent.work.epochLength

def validate : Except LqcError Unit := do
  ensure (ctx.chainID ≠ 0 ∧ ctx.blockNumber ≠ 0 ∧ ctx.registryRoot ≠ 0) .invalidLQCHeaderRuntimeV3
  ctx.parent.validate crypto ctx.chainID
  ensure (ctx.parent.work.number ≠ maxUint64 ∧ ctx.blockNumber.toNat = ctx.parent.work.number + 1)
    .invalidLQCHeaderRuntimeV3
  match ← ctx.commitEpoch with
  | some _ => ensure (ctx.datasetAnchor ≠ 0 ∧ ctx.challengeAnchor ≠ 0) .invalidLQCHeaderRuntimeV3
  | none => ensure (ctx.datasetAnchor = 0 ∧ ctx.challengeAnchor = 0) .invalidLQCHeaderRuntimeV3

def verifyTicket (epoch difficulty : Nat) (epochKey : Hash) (signed : SignedRandomXWorkTicketV1) :
    Except LqcError VerifiedRandomXWorkTicketV1 := do
  ensure (signed.ticket.epoch.toNat = epoch) .workCommitEpochMismatchV1
  workV2AdmissionEligibility signed.ticket.participant
  let input ← randomXWorkChallengeInputV1 ctx.chainID ctx.challengeAnchor signed.ticket
  match crypto.randomX epochKey input with
  | none => .error .randomXUnavailable
  | some proofHash =>
    validateRecomputedRandomXWorkV1 crypto ctx.chainID ctx.challengeAnchor difficulty signed
      proofHash

def verifyTickets (workTickets : List SignedRandomXWorkTicketV1) :
    Except LqcError (List VerifiedRandomXWorkTicketV1) := do
  ctx.validate crypto
  checkCanonicalTickets workTickets maxWorkTicketsPerBlockV1
  match ← ctx.commitEpoch with
  | none => do
    ensure (workTickets = []) .unexpectedWorkCommitV1
    .ok []
  | some epoch => match ← ctx.parent.commitDifficultyV1 crypto ctx.chainID ctx.blockNumber.toNat with
    | none => .error .invalidLQCHeaderRuntimeV3
    | some difficulty => do
      ensure (difficulty ≠ 0) .invalidLQCHeaderRuntimeV3
      let epochKey ← randomXWorkDatasetKeyV1 crypto ctx.chainID epoch ctx.datasetAnchor
      workTickets.mapM (ctx.verifyTicket crypto epoch difficulty epochKey)

def placeholderHash : Hash :=
  crypto.keccak256 <| asciiBytes "RABBIT-LQC-WORK-HEADER-TRANSITION-PLACEHOLDER-V1" ++
    fixedBytes 32 ctx.parent.work.hash.toNat ++ natBytes ctx.blockNumber.toNat

/-- The work state after the block; a zero `childHash` stands for a block not sealed yet. -/
def postWorkState (workTickets : List SignedRandomXWorkTicketV1) (childHash : Hash) :
    Except LqcError CanonicalWorkRuntimeStateV1 := do
  let verified ← ctx.verifyTickets crypto workTickets
  let epoch ← ctx.commitEpoch
  let challengeAnchor := if epoch.isSome then ctx.challengeAnchor else 0
  let hash := if childHash = 0 then ctx.placeholderHash crypto else childHash
  ctx.parent.applyVerifiedBlockV1 crypto ctx.chainID ctx.blockNumber.toNat hash ctx.parent.work.hash
    challengeAnchor verified

def expectedWork (workTickets : List SignedRandomXWorkTicketV1) : Except LqcError Hash := do
  let next ← ctx.postWorkState crypto workTickets 0
  canonicalWorkRuntimeStateRootV1 crypto ctx.chainID next

/-- The state under the hash of the sealed block, whose root has to be the committed one. -/
def sealedWork (workTickets : List SignedRandomXWorkTicketV1) (childHash workStateRoot : Hash) :
    Except LqcError CanonicalWorkRuntimeStateV1 := do
  let next ← ctx.postWorkState crypto workTickets childHash
  let root ← canonicalWorkRuntimeStateRootV1 crypto ctx.chainID next
  ensure (root = workStateRoot) .lqcHeaderWorkStateRootMismatchV3
  .ok next

theorem sealedWork_of_expected {crypto : Crypto} {ctx : LQCHeaderWorkRuntimeContextV1}
    {workTickets : List SignedRandomXWorkTicketV1} {root childHash : Hash}
    (expected : ctx.expectedWork crypto workTickets = .ok root) (nonzero : childHash ≠ 0) :
    ∃ next, ctx.postWorkState crypto workTickets 0 = .ok next ∧
      ctx.sealedWork crypto workTickets childHash root = .ok (next.rehash childHash) := by
  unfold expectedWork at expected
  obtain ⟨next, post, rooted⟩ := bind_ok expected
  refine ⟨next, post, ?_⟩
  unfold postWorkState at post
  obtain ⟨verified, checked, post⟩ := bind_ok post
  obtain ⟨epoch, scheduled, post⟩ := bind_ok post
  obtain ⟨_, again⟩ := CanonicalWorkRuntimeStateV1.applyVerifiedBlockV1_rehash post nonzero
  have sealedPost : ctx.postWorkState crypto workTickets childHash = .ok (next.rehash childHash) := by
    unfold postWorkState
    rw [checked]
    refine bind_ok_iff.mpr ⟨_, rfl, bind_ok_iff.mpr ⟨_, scheduled, ?_⟩⟩
    rw [if_neg nonzero]
    exact again
  have rehashed := (CanonicalWorkRuntimeStateV1.root_rehash
    (CanonicalWorkRuntimeStateV1.root_hash rooted) nonzero).trans rooted
  have same : ensure (root = root) LqcError.lqcHeaderWorkStateRootMismatchV3 = .ok () :=
    ensure_ok_iff.mpr rfl
  exact bind_ok_iff.mpr ⟨_, sealedPost, bind_ok_iff.mpr ⟨_, rehashed, bind_ok_iff.mpr ⟨_, same, rfl⟩⟩⟩

end LQCHeaderWorkRuntimeContextV1

def buildLQCHeaderExtraV3WithCanonicalWorkV1 (crypto : Crypto) (ctx : LQCHeaderWorkRuntimeContextV1)
    (registryOperations : List RegistryOperation) (workTickets : List SignedRandomXWorkTicketV1) :
    Except LqcError (Bytes × Hash) := do
  ctx.validate crypto
  let canonicalTickets ← canonicalWorkTicketsV3 workTickets maxWorkTicketsPerBlockV1
  let workRoot ← ctx.expectedWork crypto canonicalTickets
  let extra ← encodeLQCHeaderExtraV3 ctx.blockNumber ctx.registryRoot workRoot registryOperations canonicalTickets
    maxWorkTicketsPerBlockV1
  .ok (extra, workRoot)

def validateAndApplyLQCHeaderExtraV3WithCanonicalWorkV1 (crypto : Crypto)
    (ctx : LQCHeaderWorkRuntimeContextV1) (childHash : Hash) (extra : Bytes) :
    Except LqcError (LQCHeaderEnvelopeV3 × CanonicalWorkRuntimeStateV1) := do
  ctx.validate crypto
  ensure (childHash ≠ 0) .invalidLQCHeaderRuntimeV3
  let envelope ← validateLQCHeaderExtraV3 ctx.blockNumber.toNat maxWorkTicketsPerBlockV1 extra
  ensure (envelope.registryRoot = ctx.registryRoot) .lqcHeaderRegistryRootMismatchV3
  let expected ← ctx.expectedWork crypto envelope.workTickets
  ensure (envelope.workStateRoot = expected) .lqcHeaderWorkStateRootMismatchV3
  let next ← ctx.sealedWork crypto envelope.workTickets childHash expected
  .ok (envelope, next)

/-! ### Claims -/

/-- `resolveClaims` reconstructs the committee of a target block from canonical history. -/
structure LQCHeaderV4RuntimeContextV1 where
  work : LQCHeaderWorkRuntimeContextV1
  parentClaims : CommitteeClaimLedgerV1
  resolveClaims : Nat → Except LqcError CommitteeParticipationVerificationContextV1

namespace LQCHeaderV4RuntimeContextV1

variable (crypto : Crypto) (ctx : LQCHeaderV4RuntimeContextV1)

def validate : Except LqcError Unit := do
  ctx.work.validate crypto
  ctx.parentClaims.validate

def verifyGroup (group : CommitteeParticipationClaimGroupV1) :
    Except LqcError (List VerifiedCommitteeParticipationV1) := do
  let verification ← ctx.resolveClaims group.target
  ensure (verification.chainID = ctx.work.chainID) .invalidLQCHeaderRuntimeV4
  verifyCommitteeParticipationClaimGroupV1 crypto verification group

def verifyAndApplyClaims (groups : List CommitteeParticipationClaimGroupV1) :
    Except LqcError (CommitteeClaimLedgerV1 × List VerifiedCommitteeParticipationV1) := do
  ctx.validate crypto
  validateCanonicalCommitteeParticipationClaimGroupsV1 ctx.work.blockNumber.toNat groups
  let next ← ctx.parentClaims.apply ctx.work.blockNumber.toNat groups
  let verified ← groups.mapM (ctx.verifyGroup crypto)
  .ok (next, verified.flatten)

def postRoots (tickets : List SignedRandomXWorkTicketV1)
    (claims : List CommitteeParticipationClaimGroupV1) : Except LqcError (Hash × Hash) := do
  let workRoot ← ctx.work.expectedWork crypto tickets
  let (nextClaims, _) ← ctx.verifyAndApplyClaims crypto claims
  let claimRoot ← nextClaims.root crypto
  .ok (workRoot, claimRoot)

def applyContent (childHash registryRoot workStateRoot claimRoot : Hash)
    (tickets : List SignedRandomXWorkTicketV1) (claims : List CommitteeParticipationClaimGroupV1) :
    Except LqcError (CanonicalWorkRuntimeStateV1 × CommitteeClaimLedgerV1 ×
      List VerifiedCommitteeParticipationV1) := do
  ensure (registryRoot = ctx.work.registryRoot) .lqcHeaderRegistryRootMismatchV3
  let expected ← ctx.work.expectedWork crypto tickets
  ensure (workStateRoot = expected) .lqcHeaderWorkStateRootMismatchV3
  let (nextClaims, verified) ← ctx.verifyAndApplyClaims crypto claims
  let expectedClaims ← nextClaims.root crypto
  ensure (claimRoot = expectedClaims) .lqcHeaderCommitteeClaimRootMismatchV4
  let nextWork ← ctx.work.sealedWork crypto tickets childHash expected
  .ok (nextWork, nextClaims, verified)

end LQCHeaderV4RuntimeContextV1

def buildLQCHeaderExtraV4WithCanonicalRuntimeV1 (crypto : Crypto) (ctx : LQCHeaderV4RuntimeContextV1)
    (registryOperations : List RegistryOperation) (workTickets : List SignedRandomXWorkTicketV1)
    (committeeClaims : List CommitteeParticipationClaimGroupV1) :
    Except LqcError (Bytes × Hash × Hash) := do
  ctx.validate crypto
  let canonicalTickets ← canonicalWorkTicketsV3 workTickets maxWorkTicketsPerBlockV1
  let canonicalClaims ← canonicalCommitteeParticipationClaimGroupsV1 ctx.work.blockNumber.toNat
    committeeClaims
  let (workRoot, claimRoot) ← ctx.postRoots crypto canonicalTickets canonicalClaims
  let extra ← encodeLQCHeaderExtraV4 ctx.work.blockNumber ctx.work.registryRoot workRoot claimRoot
    registryOperations canonicalTickets canonicalClaims maxWorkTicketsPerBlockV1
  .ok (extra, workRoot, claimRoot)

def validateAndApplyLQCHeaderExtraV4WithCanonicalRuntimeV1 (crypto : Crypto)
    (ctx : LQCHeaderV4RuntimeContextV1) (childHash : Hash) (extra : Bytes) :
    Except LqcError (LQCHeaderEnvelopeV4 × CanonicalWorkRuntimeStateV1 × CommitteeClaimLedgerV1 ×
      List VerifiedCommitteeParticipationV1) := do
  ctx.validate crypto
  ensure (childHash ≠ 0) .invalidLQCHeaderRuntimeV4
  let envelope ← validateLQCHeaderExtraV4 ctx.work.blockNumber.toNat maxWorkTicketsPerBlockV1 extra
  let applied ← ctx.applyContent crypto childHash envelope.registryRoot envelope.workStateRoot
    envelope.committeeClaimRoot envelope.workTickets envelope.committeeParticipationClaims
  .ok (envelope, applied)

def buildLQCHeaderExtraV5WithCanonicalRuntimeV1 (crypto : Crypto) (ctx : LQCHeaderV4RuntimeContextV1)
    (registryOperations : List RegistryOperation) (workTickets : List SignedRandomXWorkTicketV1)
    (committeeClaims : List CommitteeParticipationClaimGroupV1)
    (vrfKeysetCertificates : List RabbitVRFKeysetCertificateV1)
    (vrfFinalizations : List RabbitVRFFinalizationV1) : Except LqcError (Bytes × Hash × Hash) := do
  ctx.validate crypto
  let canonicalTickets ← canonicalWorkTicketsV3 workTickets maxWorkTicketsPerBlockV1
  let canonicalClaims ← canonicalCommitteeParticipationClaimGroupsV1 ctx.work.blockNumber.toNat
    committeeClaims
  let canonicalFinalizations ← canonicalRabbitVRFFinalizationsV1 vrfFinalizations
  let (workRoot, claimRoot) ← ctx.postRoots crypto canonicalTickets canonicalClaims
  let extra ← encodeLQCHeaderExtraV5FittingFinalizationsV1 ctx.work.blockNumber
    ctx.work.registryRoot workRoot claimRoot registryOperations canonicalTickets canonicalClaims
    vrfKeysetCertificates canonicalFinalizations maxWorkTicketsPerBlockV1
  .ok (extra, workRoot, claimRoot)

def validateAndApplyLQCHeaderExtraV5WithCanonicalRuntimeV1 (crypto : Crypto) (bls : Bls)
    (ctx : LQCHeaderV4RuntimeContextV1) (childHash : Hash) (extra : Bytes) :
    Except LqcError (LQCHeaderEnvelopeV5 × CanonicalWorkRuntimeStateV1 × CommitteeClaimLedgerV1 ×
      List VerifiedCommitteeParticipationV1) := do
  ctx.validate crypto
  ensure (childHash ≠ 0) .invalidLQCHeaderRuntimeV4
  let envelope ← validateLQCHeaderExtraV5 bls ctx.work.blockNumber.toNat maxWorkTicketsPerBlockV1
    extra
  let applied ← ctx.applyContent crypto childHash envelope.registryRoot envelope.workStateRoot
    envelope.committeeClaimRoot envelope.workTickets envelope.committeeParticipationClaims
  .ok (envelope, applied)

/-! ### What applying a header establishes -/

/-- The work content of a header, applied under the hash of its block. -/
structure AppliedWork (crypto : Crypto) (ctx : LQCHeaderWorkRuntimeContextV1) (childHash : Hash)
    (envelope : LQCHeaderEnvelopeV3) (next : CanonicalWorkRuntimeStateV1) : Prop where
  valid : ctx.validate crypto = .ok ()
  hash : childHash ≠ 0
  number : envelope.blockNumber.toNat = ctx.blockNumber.toNat
  registry : envelope.registryRoot = ctx.registryRoot
  expected : ctx.expectedWork crypto envelope.workTickets = .ok envelope.workStateRoot
  sealed : ctx.sealedWork crypto envelope.workTickets childHash envelope.workStateRoot = .ok next

/-- The claim content of a header, applied to the ledger of its parent. -/
structure AppliedClaims (crypto : Crypto) (ctx : LQCHeaderV4RuntimeContextV1)
    (claims : List CommitteeParticipationClaimGroupV1) (claimRoot : Hash)
    (ledger : CommitteeClaimLedgerV1) (verified : List VerifiedCommitteeParticipationV1) : Prop where
  applied : ctx.verifyAndApplyClaims crypto claims = .ok (ledger, verified)
  root : ledger.root crypto = .ok claimRoot

section Applied

variable {crypto : Crypto} {bls : Bls} {ctx : LQCHeaderWorkRuntimeContextV1}
  {full : LQCHeaderV4RuntimeContextV1} {childHash : Hash} {extra : Bytes}
  {next : CanonicalWorkRuntimeStateV1} {ledger : CommitteeClaimLedgerV1}
  {verified : List VerifiedCommitteeParticipationV1}

theorem validateAndApplyLQCHeaderExtraV3_ok_iff {envelope found : LQCHeaderEnvelopeV3}
    (decoded : decodeLQCHeaderExtraV3 extra maxWorkTicketsPerBlockV1 = .ok envelope) :
    validateAndApplyLQCHeaderExtraV3WithCanonicalWorkV1 crypto ctx childHash extra = .ok (found, next) ↔
      found = envelope ∧ AppliedWork crypto ctx childHash envelope next := by
  simp only [validateAndApplyLQCHeaderExtraV3WithCanonicalWorkV1, validateLQCHeaderExtraV3, decoded,
    bind_ok_iff, exists_unit, ensure_ok_iff, Except.ok.injEq, Prod.mk.injEq]
  constructor
  · intro run
    obtain ⟨valid, hash, _, ⟨_, rfl, number, rfl⟩, registry, _, expected, rfl, _, sealed, rfl, rfl⟩ := run
    exact ⟨rfl, valid, hash, number, registry, expected, sealed⟩
  · intro applied
    obtain ⟨rfl, work⟩ := applied
    exact ⟨work.valid, work.hash, _, ⟨_, rfl, work.number, rfl⟩, work.registry, _, work.expected, rfl, _,
      work.sealed, rfl, rfl⟩

theorem AppliedClaims.valid {claims : List CommitteeParticipationClaimGroupV1} {claimRoot : Hash}
    (content : AppliedClaims crypto full claims claimRoot ledger verified) :
    full.validate crypto = .ok () := by
  have run := content.applied
  unfold LQCHeaderV4RuntimeContextV1.verifyAndApplyClaims at run
  obtain ⟨_, valid, _⟩ := bind_ok run
  exact valid

def LQCHeaderEnvelopeV4.base (envelope : LQCHeaderEnvelopeV4) : LQCHeaderEnvelopeV3 :=
  ⟨3, envelope.blockNumber, envelope.registryRoot, envelope.workStateRoot,
    envelope.registryOperations, envelope.workTickets⟩

def LQCHeaderEnvelopeV5.base (envelope : LQCHeaderEnvelopeV5) : LQCHeaderEnvelopeV3 :=
  ⟨3, envelope.blockNumber, envelope.registryRoot, envelope.workStateRoot,
    envelope.registryOperations, envelope.workTickets⟩

theorem applyContent_ok_iff {base : LQCHeaderEnvelopeV3} {claimRoot : Hash}
    {claims : List CommitteeParticipationClaimGroupV1} (hash : childHash ≠ 0)
    (number : base.blockNumber.toNat = full.work.blockNumber.toNat) :
    full.applyContent crypto childHash base.registryRoot base.workStateRoot claimRoot base.workTickets
        claims = .ok (next, ledger, verified) ↔
      AppliedWork crypto full.work childHash base next ∧
        AppliedClaims crypto full claims claimRoot ledger verified := by
  simp only [LQCHeaderV4RuntimeContextV1.applyContent, bind_ok_iff, exists_unit, ensure_ok_iff,
    Except.ok.injEq, Prod.mk.injEq]
  constructor
  · intro run
    obtain ⟨registry, _, expected, rfl, ⟨_, _⟩, applied, _, root, rfl, _, sealed, rfl, rfl, rfl⟩ := run
    have content : AppliedClaims crypto full claims claimRoot _ _ := ⟨applied, root⟩
    obtain ⟨_, valid, _⟩ := bind_ok content.valid
    exact ⟨⟨valid, hash, number, registry, expected, sealed⟩, content⟩
  · intro parts
    obtain ⟨work, content⟩ := parts
    exact ⟨work.registry, _, work.expected, rfl, _, content.applied, _, content.root, rfl, _, work.sealed,
      rfl, rfl, rfl⟩

theorem validateAndApplyLQCHeaderExtraV4_ok_iff {envelope found : LQCHeaderEnvelopeV4}
    (decoded : decodeLQCHeaderExtraV4 extra maxWorkTicketsPerBlockV1 = .ok envelope) :
    validateAndApplyLQCHeaderExtraV4WithCanonicalRuntimeV1 crypto full childHash extra =
        .ok (found, next, ledger, verified) ↔
      found = envelope ∧ AppliedWork crypto full.work childHash envelope.base next ∧
        AppliedClaims crypto full envelope.committeeParticipationClaims envelope.committeeClaimRoot
          ledger verified := by
  simp only [validateAndApplyLQCHeaderExtraV4WithCanonicalRuntimeV1, validateLQCHeaderExtraV4, decoded,
    bind_ok_iff, exists_unit, ensure_ok_iff, Except.ok.injEq, Prod.mk.injEq]
  constructor
  · intro run
    obtain ⟨_, hash, _, ⟨_, rfl, number, rfl⟩, ⟨_, _, _⟩, content, rfl, rfl, rfl, rfl⟩ := run
    exact ⟨rfl, (applyContent_ok_iff hash number).mp content⟩
  · intro parts
    obtain ⟨rfl, work, claims⟩ := parts
    exact ⟨claims.valid, work.hash, _, ⟨_, rfl, work.number, rfl⟩, _,
      (applyContent_ok_iff work.hash work.number).mpr ⟨work, claims⟩, rfl, rfl⟩

theorem validateAndApplyLQCHeaderExtraV5_ok_iff {envelope found : LQCHeaderEnvelopeV5}
    (decoded : decodeLQCHeaderExtraV5 bls extra maxWorkTicketsPerBlockV1 = .ok envelope) :
    validateAndApplyLQCHeaderExtraV5WithCanonicalRuntimeV1 crypto bls full childHash extra =
        .ok (found, next, ledger, verified) ↔
      found = envelope ∧ AppliedWork crypto full.work childHash envelope.base next ∧
        AppliedClaims crypto full envelope.committeeParticipationClaims envelope.committeeClaimRoot
          ledger verified := by
  simp only [validateAndApplyLQCHeaderExtraV5WithCanonicalRuntimeV1, validateLQCHeaderExtraV5, decoded,
    bind_ok_iff, exists_unit, ensure_ok_iff, Except.ok.injEq, Prod.mk.injEq]
  constructor
  · intro run
    obtain ⟨_, hash, _, ⟨_, rfl, number, rfl⟩, ⟨_, _, _⟩, content, rfl, rfl, rfl, rfl⟩ := run
    exact ⟨rfl, (applyContent_ok_iff hash number).mp content⟩
  · intro parts
    obtain ⟨rfl, work, claims⟩ := parts
    exact ⟨claims.valid, work.hash, _, ⟨_, rfl, work.number, rfl⟩, _,
      (applyContent_ok_iff work.hash work.number).mpr ⟨work, claims⟩, rfl, rfl⟩

end Applied

end RabbitLqc
