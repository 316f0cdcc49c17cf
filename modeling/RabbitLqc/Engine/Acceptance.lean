import RabbitLqc.Engine.Runtimes

/-!
# Headers that are accepted

What a producer computes on the states of the parent is enough for its header to be accepted: a move
of the registry, the root of the work state under a placeholder hash, and from the third liveness rule
on a claim ledger. The hash of the sealed block comes into none of it.
-/

namespace RabbitLqc
open Lib

variable {lqc : LQC} {branch rest : Branch} {header : Header} {parent : Entry} {envelope : WorkEnvelope}

def ClaimsAccepted (lqc : LQC) (branch : Branch) (header : Header) (ctx : LQCHeaderWorkRuntimeContextV1)
    (ledger : Option CommitteeClaimLedgerV1) : WorkEnvelope → Prop
  | .v3 _ => ledger = none
  | .v4 envelope => LQC.ClaimStep lqc branch header ctx envelope.committeeParticipationClaims
      envelope.committeeClaimRoot ledger
  | .v5 envelope => LQC.ClaimStep lqc branch header ctx envelope.committeeParticipationClaims
      envelope.committeeClaimRoot ledger ∧ lqc.checkArtifacts branch header envelope = .ok ()

theorem applyWorkEnvelope_ok_iff {ctx : LQCHeaderWorkRuntimeContextV1} {next : CanonicalWorkRuntimeStateV1}
    {ledger : Option CommitteeClaimLedgerV1}
    (decoded : lqc.decodeWorkEnvelope header = .ok (some envelope)) :
    lqc.applyWorkEnvelope branch header ctx envelope = .ok (next, ledger) ↔
      AppliedWork lqc.crypto ctx (header.hash lqc.crypto) envelope.base next ∧
        ClaimsAccepted lqc branch header ctx ledger envelope := by
  cases envelope with
  | v3 envelope =>
    obtain ⟨_, run⟩ := LQC.decodeWorkEnvelope_v3_iff.mp decoded
    exact LQC.applyWorkEnvelope_v3_ok_iff run
  | v4 envelope =>
    obtain ⟨_, _, run⟩ := LQC.decodeWorkEnvelope_v4_iff.mp decoded
    exact LQC.applyWorkEnvelope_v4_ok_iff run
  | v5 envelope =>
    obtain ⟨_, _, run⟩ := LQC.decodeWorkEnvelope_v5_iff.mp decoded
    exact LQC.applyWorkEnvelope_v5_ok_iff run

theorem expectedWork_valid {ctx : LQCHeaderWorkRuntimeContextV1} {tickets : List SignedRandomXWorkTicketV1}
    {root : Hash} (expected : ctx.expectedWork lqc.crypto tickets = .ok root) :
    ctx.validate lqc.crypto = .ok () := by
  obtain ⟨_, post, _⟩ := bind_ok expected
  obtain ⟨_, verified, _⟩ := bind_ok post
  obtain ⟨_, valid, _⟩ := bind_ok verified
  exact valid

/-- What a producer computed for a header on the states of its parent. -/
structure Proposal (lqc : LQC) (branch : Branch) (header : Header) (envelope : WorkEnvelope) where
  runtime : CanonicalWorkRuntimeStateV1
  parent : RegistrySnapshot
  selection : HybridSelection
  registry : CanonicalRegistry
  moved : CanonicalRegistry
  next : CanonicalRegistry
  ctx : LQCHeaderWorkRuntimeContextV1
  ledger : Option CommitteeClaimLedgerV1
  runtime_eq : LQC.parentRuntime branch = .ok runtime
  parent_eq : lqc.registryParentSnapshot branch header = .ok parent
  moves : RegistryStep lqc branch header envelope.base runtime parent selection registry moved next
  clean : next.participant? 0 = none
  ctx_eq : lqc.workV1EngineLabContext branch header runtime envelope.base.registryRoot = .ok ctx
  expected : ctx.expectedWork lqc.crypto envelope.base.workTickets = .ok envelope.base.workStateRoot
  claims : ClaimsAccepted lqc branch header ctx ledger envelope

theorem Proposal.exists_step (nonzero : ∀ bytes, lqc.crypto.keccak256 bytes ≠ 0)
    (proposal : Proposal lqc branch header envelope) (bounded : header.number ≤ maxUint64)
    (decoded : lqc.decodeWorkEnvelope header = .ok (some envelope)) :
    ∃ step : WorkStep lqc branch header envelope,
      step.runtime = proposal.runtime ∧ step.parent = proposal.parent ∧ step.selection = proposal.selection ∧
        step.snapshot = ⟨header.number, header.hash lqc.crypto, proposal.next⟩ ∧ step.ctx = proposal.ctx ∧
        step.ledger = proposal.ledger := by
  have hashed : header.hash lqc.crypto ≠ 0 := nonzero _
  obtain ⟨_, _, number, root⟩ := workV1EngineLabContext_ok proposal.ctx_eq
  obtain ⟨next, _, sealed⟩ :=
    LQCHeaderWorkRuntimeContextV1.sealedWork_of_expected proposal.expected hashed
  have sameNumber : envelope.base.blockNumber.toNat = proposal.ctx.blockNumber.toNat := by
    rw [number, toNat_ofNat_of_le bounded]
    exact proposal.moves.fit.number
  have applied := (applyWorkEnvelope_ok_iff decoded).mpr
    ⟨⟨expectedWork_valid proposal.expected, hashed, sameNumber, root.symm, proposal.expected, sealed⟩,
      proposal.claims⟩
  have registry := LQC.verifyRegistryOf_of nonzero proposal.parent_eq proposal.moves proposal.clean
  exact ⟨⟨_, _, _, _, _, _, _, proposal.runtime_eq, proposal.parent_eq, registry, proposal.ctx_eq, applied,
    hashed⟩, rfl, rfl, rfl, rfl, rfl, rfl⟩

theorem Proposal.accepts (nonzero : ∀ bytes, lqc.crypto.keccak256 bytes ≠ 0)
    (proposal : Proposal lqc (parent :: rest) header envelope) (bounded : header.number ≤ maxUint64)
    (decoded : lqc.decodeWorkEnvelope header = .ok (some envelope)) {unixNow : Nat}
    (fields : lqc.verifyFields header unixNow parent.header = .ok ())
    (enabled : lqc.config.registryProtocolEnabled header.number = true)
    (turn : lqc.verifyTurn header unixNow parent.header (LQC.turnSelection header proposal.selection) =
      .ok ()) :
    ∃ step : WorkStep lqc (parent :: rest) header envelope,
      lqc.verifyHeaderAt (parent :: rest) header unixNow = .ok step.entry ∧
        step.runtime = proposal.runtime ∧ step.parent = proposal.parent ∧
        step.selection = proposal.selection ∧
        step.snapshot = ⟨header.number, header.hash lqc.crypto, proposal.next⟩ ∧
        step.ctx = proposal.ctx ∧ step.ledger = proposal.ledger := by
  obtain ⟨step, runtime, registry, selection, snapshot, ctx, ledger⟩ :=
    proposal.exists_step nonzero bounded decoded
  refine ⟨step, (LQC.verifyHeaderAt_work_iff decoded).mpr ⟨fields, enabled, step, rfl, ?_⟩, runtime, registry,
    selection, snapshot, ctx, ledger⟩
  rw [selection]
  exact turn

/-! ### Work without the hash of the block -/

namespace LQCHeaderWorkRuntimeContextV1

variable {crypto : Crypto} {ctx : LQCHeaderWorkRuntimeContextV1}
  {tickets : List SignedRandomXWorkTicketV1} {verified : List VerifiedRandomXWorkTicketV1}

theorem expectedWork_of (nonzero : ∀ bytes, crypto.keccak256 bytes ≠ 0) {epoch : Option Nat}
    {next : CanonicalWorkRuntimeStateV1} (scheduled : ctx.commitEpoch = .ok epoch)
    (checked : ctx.verifyTickets crypto tickets = .ok verified)
    (applies : ctx.parent.applyVerifiedBlockV1 crypto ctx.chainID ctx.blockNumber.toNat
      (ctx.placeholderHash crypto) ctx.parent.work.hash (if epoch.isSome then ctx.challengeAnchor else 0)
      verified = .ok next) :
    ∃ root, ctx.expectedWork crypto tickets = .ok root ∧ root ≠ 0 := by
  have step := CanonicalWorkRuntimeStateV1.applyVerifiedBlockV1_step applies
  obtain ⟨root, rooted⟩ := (CanonicalWorkRuntimeStateV1.exists_root_iff nonzero).mpr step.nextValid
  refine ⟨root, bind_ok_iff.mpr ⟨next, ?_, rooted⟩, ?_⟩
  · unfold postWorkState
    rw [checked]
    refine bind_ok_iff.mpr ⟨_, rfl, bind_ok_iff.mpr ⟨_, scheduled, ?_⟩⟩
    rw [if_pos rfl]
    exact applies
  · unfold canonicalWorkRuntimeStateRootV1 at rooted
    iterate 5 obtain ⟨_, _, rooted⟩ := bind_ok rooted
    rw [← Except.ok.inj rooted]
    exact nonzero _

theorem verifyTickets_open {epoch difficulty : Nat} (valid : ctx.validate crypto = .ok ())
    (found : ctx.commitEpoch = .ok (some epoch)) (positive : epoch ≠ 0)
    (known : ctx.parent.commitDifficultyV1 crypto ctx.chainID ctx.blockNumber.toNat = .ok (some difficulty))
    (set : difficulty ≠ 0) (canonical : checkCanonicalTickets tickets maxWorkTicketsPerBlockV1 = .ok ()) :
    ∃ key, ctx.verifyTickets crypto tickets = tickets.mapM (ctx.verifyTicket crypto epoch difficulty key) := by
  have context := valid
  unfold validate at context
  obtain ⟨_, given, context⟩ := bind_ok context
  obtain ⟨_, _, context⟩ := bind_ok context
  obtain ⟨_, _, context⟩ := bind_ok context
  obtain ⟨_, same, context⟩ := bind_ok context
  obtain rfl := Except.ok.inj (found.symm.trans same)
  obtain ⟨dataset, _⟩ := ensure_ok_iff.mp context
  obtain ⟨key, keyed⟩ : ∃ key, randomXWorkDatasetKeyV1 crypto ctx.chainID epoch ctx.datasetAnchor = .ok key := by
    unfold randomXWorkDatasetKeyV1
    simp only [ensure_bind_ok_iff]
    exact ⟨_, (ensure_ok_iff.mp given).1, positive, dataset, rfl⟩
  have meets : ensure (difficulty ≠ 0) LqcError.invalidLQCHeaderRuntimeV3 = .ok () := ensure_ok_iff.mpr set
  refine ⟨key, ?_⟩
  unfold verifyTickets
  simp only [valid, canonical, found, known, meets, keyed, bind, Except.bind]

theorem verifyTickets_nil (valid : ctx.validate crypto = .ok ())
    (scheduled : ∀ epoch, ctx.commitEpoch = .ok (some epoch) → epoch ≠ 0 ∧
      ∃ difficulty, ctx.parent.commitDifficultyV1 crypto ctx.chainID ctx.blockNumber.toNat =
        .ok (some difficulty) ∧ difficulty ≠ 0) :
    ctx.verifyTickets crypto [] = .ok [] := by
  have context := valid
  unfold validate at context
  iterate 3 obtain ⟨_, _, context⟩ := bind_ok context
  obtain ⟨epoch, found, _⟩ := bind_ok context
  cases epoch with
  | none =>
    unfold verifyTickets
    exact bind_ok_iff.mpr ⟨_, valid, bind_ok_iff.mpr ⟨(), rfl, bind_ok_iff.mpr ⟨none, found, rfl⟩⟩⟩
  | some epoch =>
    obtain ⟨positive, difficulty, known, meets⟩ := scheduled epoch found
    have empty : checkCanonicalTickets [] maxWorkTicketsPerBlockV1 = .ok () := rfl
    obtain ⟨_, each⟩ := verifyTickets_open valid found positive known meets empty
    rw [each]
    rfl

end LQCHeaderWorkRuntimeContextV1

end RabbitLqc
