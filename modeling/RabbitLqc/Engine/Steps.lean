import RabbitLqc.Engine.Verify
import RabbitLqc.Header.RoundTrip

/-!
# The steps of a verified header

What the verification of a header with a work envelope computed on the way, kept together with
the facts its checks established. A header is accepted exactly when there are such steps.
-/

namespace RabbitLqc
open Lib

/-- The states and checks behind one accepted header with a work envelope. -/
structure WorkStep (lqc : LQC) (branch : Branch) (header : Header) (envelope : WorkEnvelope) where
  runtime : CanonicalWorkRuntimeStateV1
  parent : RegistrySnapshot
  selection : HybridSelection
  snapshot : RegistrySnapshot
  ctx : LQCHeaderWorkRuntimeContextV1
  next : CanonicalWorkRuntimeStateV1
  ledger : Option CommitteeClaimLedgerV1
  runtime_eq : LQC.parentRuntime branch = .ok runtime
  parent_eq : lqc.registryParentSnapshot branch header = .ok parent
  registry_eq : lqc.verifyRegistryOf branch header envelope.base runtime parent =
    .ok (selection, snapshot)
  ctx_eq : lqc.workV1EngineLabContext branch header runtime envelope.base.registryRoot = .ok ctx
  applied_eq : lqc.applyWorkEnvelope branch header ctx envelope = .ok (next, ledger)
  hash_ne : header.hash lqc.crypto ≠ 0

def WorkStep.entry {lqc : LQC} {branch : Branch} {header : Header} {envelope : WorkEnvelope}
    (step : WorkStep lqc branch header envelope) : Entry :=
  ⟨header, .ok step.next, .ok step.snapshot, step.ledger⟩

namespace LQC

variable {lqc : LQC} {branch : Branch} {header : Header} {envelope : WorkEnvelope}
  {selection : HybridSelection} {entry : Entry} {unixNow : Nat}

theorem verifyWorkHeader_ok_iff :
    lqc.verifyWorkHeader branch header envelope = .ok (selection, entry) ↔
      ∃ step : WorkStep lqc branch header envelope, step.selection = selection ∧ step.entry = entry := by
  unfold verifyWorkHeader
  constructor
  · intro h
    obtain ⟨runtime, runtime_eq, h⟩ := bind_ok h
    obtain ⟨parent, parent_eq, h⟩ := bind_ok h
    obtain ⟨⟨selected, snapshot⟩, registry_eq, h⟩ := bind_ok h
    obtain ⟨ctx, ctx_eq, h⟩ := bind_ok h
    obtain ⟨⟨next, ledger⟩, applied_eq, h⟩ := bind_ok h
    obtain ⟨_, hash_ne, h⟩ := bind_ok h
    obtain ⟨rfl, rfl⟩ := Prod.mk.inj (Except.ok.inj h)
    exact ⟨⟨runtime, parent, selected, snapshot, ctx, next, ledger, runtime_eq, parent_eq, registry_eq,
      ctx_eq, applied_eq, ensure_ok_iff.mp hash_ne⟩, rfl, rfl⟩
  · intro steps
    obtain ⟨step, rfl, rfl⟩ := steps
    rw [step.runtime_eq, step.parent_eq]
    simp only [bind, Except.bind, step.registry_eq, step.ctx_eq, step.applied_eq]
    rw [(ensure_ok_iff (u := ())).mpr step.hash_ne]
    rfl

/-! ### Envelopes and the fixed text -/

theorem decodeWorkEnvelope_v3_iff {envelope : LQCHeaderEnvelopeV3} :
    lqc.decodeWorkEnvelope header = .ok (some (.v3 envelope)) ↔
      lqc.config.consensusLivenessV3Active header.number = false ∧
        decodeLQCHeaderExtraV3 header.extra maxWorkTicketsPerBlockV1 = .ok envelope := by
  unfold decodeWorkEnvelope
  cases lqc.config.consensusLivenessV3Active header.number with
  | true =>
    simp only [if_true, Bool.true_eq_false, false_and, iff_false]
    split <;> simp
  | false =>
    cases decodeLQCHeaderExtraV3 header.extra maxWorkTicketsPerBlockV1 <;> simp

theorem decodeWorkEnvelope_v4_iff {envelope : LQCHeaderEnvelopeV4} :
    lqc.decodeWorkEnvelope header = .ok (some (.v4 envelope)) ↔
      lqc.config.consensusLivenessV3Active header.number = true ∧
        lqc.config.isRabbitVRF header.number = false ∧
        decodeLQCHeaderExtraV4 header.extra maxWorkTicketsPerBlockV1 = .ok envelope := by
  unfold decodeWorkEnvelope
  cases lqc.config.consensusLivenessV3Active header.number with
  | true => cases lqc.config.isRabbitVRF header.number <;> simp
  | false => cases decodeLQCHeaderExtraV3 header.extra maxWorkTicketsPerBlockV1 <;> simp

theorem decodeWorkEnvelope_v5_iff {envelope : LQCHeaderEnvelopeV5} :
    lqc.decodeWorkEnvelope header = .ok (some (.v5 envelope)) ↔
      lqc.config.consensusLivenessV3Active header.number = true ∧
        lqc.config.isRabbitVRF header.number = true ∧
        decodeLQCHeaderExtraV5 lqc.bls header.extra maxWorkTicketsPerBlockV1 = .ok envelope := by
  unfold decodeWorkEnvelope
  cases lqc.config.consensusLivenessV3Active header.number with
  | true => cases lqc.config.isRabbitVRF header.number <;> simp
  | false => cases decodeLQCHeaderExtraV3 header.extra maxWorkTicketsPerBlockV1 <;> simp

theorem decodeWorkEnvelope_magic (decoded : lqc.decodeWorkEnvelope header = .ok (some envelope)) :
    ∃ payload mark, mark.length = producerSealLength ∧
      header.extra = (registryHeaderMagic ++ payload) ++ mark := by
  have limit : maxWorkTicketsPerBlockV1 ≠ 0 := by decide
  cases envelope with
  | v3 envelope =>
    obtain ⟨_, run⟩ := decodeWorkEnvelope_v3_iff.mp decoded
    obtain ⟨_, mark, length, same⟩ := (decodeLQCHeaderExtraV3_ok_iff limit).mp run
    exact ⟨_, mark, length, same⟩
  | v4 envelope =>
    obtain ⟨_, _, run⟩ := decodeWorkEnvelope_v4_iff.mp decoded
    obtain ⟨_, mark, length, same⟩ := (decodeLQCHeaderExtraV4_ok_iff limit).mp run
    exact ⟨_, mark, length, same⟩
  | v5 envelope =>
    obtain ⟨_, _, run⟩ := decodeWorkEnvelope_v5_iff.mp decoded
    obtain ⟨_, mark, length, same⟩ := (decodeLQCHeaderExtraV5_ok_iff limit).mp run
    exact ⟨_, mark, length, same⟩

theorem verifyExtra_unframed {payload mark : Bytes} {u : Unit} (legacy : verifyExtra header = .ok u)
    (length : mark.length = producerSealLength) :
    header.extra ≠ (registryHeaderMagic ++ payload) ++ mark := by
  intro same
  unfold verifyExtra at legacy
  rw [same, splitProducerSeal_append length] at legacy
  have text := ensure_ok_iff.mp legacy
  have written : asciiBytes ("LQC:1:" ++ toString header.number) =
      asciiBytes "LQC:1:" ++ asciiBytes (toString header.number) := by
    simp [asciiBytes]
  rw [written] at text
  have fourth := congrArg (·[3]?) text
  have left : (registryHeaderMagic ++ payload)[3]? = some 0 := rfl
  have right : (asciiBytes "LQC:1:" ++ asciiBytes (toString header.number))[3]? = some 0x3a := by
    rw [List.getElem?_append_left (by decide)]
    decide
  rw [left, right] at fourth
  cases fourth

theorem verifyExtra_no_envelope {u : Unit} (legacy : verifyExtra header = .ok u) :
    lqc.decodeWorkEnvelope header ≠ .ok (some envelope) := by
  intro decoded
  obtain ⟨payload, mark, length, same⟩ := decodeWorkEnvelope_magic decoded
  exact verifyExtra_unframed legacy length same

/-! ### Work and claims -/

/-- What a ledger step starts from: the ledger of the parent and the committees of the branch. -/
def claimStart (lqc : LQC) (branch : Branch) (ctx : LQCHeaderWorkRuntimeContextV1)
    (parentClaims : CommitteeClaimLedgerV1) : LQCHeaderV4RuntimeContextV1 :=
  ⟨ctx, parentClaims, lqc.workV1EngineLabClaimResolver branch⟩

section Apply

variable {ctx : LQCHeaderWorkRuntimeContextV1} {next : CanonicalWorkRuntimeStateV1}

theorem rememberClaimLedger_ok_iff {ledger remembered : CommitteeClaimLedgerV1} :
    lqc.rememberClaimLedger header ledger = .ok remembered ↔
      header.hash lqc.crypto ≠ 0 ∧ ledger.validate = .ok () ∧ remembered = ledger := by
  simp only [rememberClaimLedger, bind_ok_iff, exists_unit, ensure_ok_iff, Except.ok.injEq,
    eq_comm (a := remembered)]

theorem applyWorkEnvelope_v3_ok_iff {envelope : LQCHeaderEnvelopeV3}
    {ledger : Option CommitteeClaimLedgerV1}
    (decoded : decodeLQCHeaderExtraV3 header.extra maxWorkTicketsPerBlockV1 = .ok envelope) :
    lqc.applyWorkEnvelope branch header ctx (.v3 envelope) = .ok (next, ledger) ↔
      AppliedWork lqc.crypto ctx (header.hash lqc.crypto) envelope next ∧ ledger = none := by
  simp only [applyWorkEnvelope, bind_ok_iff, Prod.exists,
    validateAndApplyLQCHeaderExtraV3_ok_iff decoded, Except.ok.injEq, Prod.mk.injEq]
  constructor
  · intro run
    obtain ⟨_, _, ⟨rfl, work⟩, rfl, rfl⟩ := run
    exact ⟨work, rfl⟩
  · intro parts
    obtain ⟨work, rfl⟩ := parts
    exact ⟨_, _, ⟨rfl, work⟩, rfl, rfl⟩

/-- The ledger after a header with claims, from the ledger of its parent. -/
def ClaimStep (lqc : LQC) (branch : Branch) (header : Header) (ctx : LQCHeaderWorkRuntimeContextV1)
    (claims : List CommitteeParticipationClaimGroupV1) (claimRoot : Hash)
    (ledger : Option CommitteeClaimLedgerV1) : Prop :=
  ∃ parentClaims kept verified,
    lqc.workV1EngineLabParentClaimLedger branch header.number = .ok parentClaims ∧
    AppliedClaims lqc.crypto (lqc.claimStart branch ctx parentClaims) claims claimRoot kept verified ∧
    ledger = some kept

theorem applyWorkEnvelope_v4_ok_iff {envelope : LQCHeaderEnvelopeV4}
    {ledger : Option CommitteeClaimLedgerV1}
    (decoded : decodeLQCHeaderExtraV4 header.extra maxWorkTicketsPerBlockV1 = .ok envelope) :
    lqc.applyWorkEnvelope branch header ctx (.v4 envelope) = .ok (next, ledger) ↔
      AppliedWork lqc.crypto ctx (header.hash lqc.crypto) envelope.base next ∧
        ClaimStep lqc branch header ctx envelope.committeeParticipationClaims
          envelope.committeeClaimRoot ledger := by
  simp only [applyWorkEnvelope, workV1EngineLabV4Context, bind_ok_iff, Prod.exists,
    validateAndApplyLQCHeaderExtraV4_ok_iff decoded, rememberClaimLedger_ok_iff, Except.ok.injEq,
    Prod.mk.injEq]
  constructor
  · intro run
    obtain ⟨_, ⟨parentClaims, found, rfl⟩, _, _, kept, verified, ⟨rfl, work, claims⟩, _,
      ⟨_, _, same⟩, rfl, rfl⟩ := run
    exact ⟨work, parentClaims, kept, verified, found, claims, congrArg some same⟩
  · intro parts
    obtain ⟨work, parentClaims, kept, verified, found, claims, rfl⟩ := parts
    obtain ⟨_, valid, _⟩ := bind_ok claims.root
    exact ⟨_, ⟨parentClaims, found, rfl⟩, _, _, kept, verified, ⟨rfl, work, claims⟩, _,
      ⟨work.hash, valid, rfl⟩, rfl, rfl⟩

theorem applyWorkEnvelope_v5_ok_iff {envelope : LQCHeaderEnvelopeV5}
    {ledger : Option CommitteeClaimLedgerV1}
    (decoded : decodeLQCHeaderExtraV5 lqc.bls header.extra maxWorkTicketsPerBlockV1 = .ok envelope) :
    lqc.applyWorkEnvelope branch header ctx (.v5 envelope) = .ok (next, ledger) ↔
      AppliedWork lqc.crypto ctx (header.hash lqc.crypto) envelope.base next ∧
        ClaimStep lqc branch header ctx envelope.committeeParticipationClaims
          envelope.committeeClaimRoot ledger ∧
        lqc.checkArtifacts branch header envelope = .ok () := by
  simp only [applyWorkEnvelope, workV1EngineLabV4Context, bind_ok_iff, exists_unit, Prod.exists,
    validateAndApplyLQCHeaderExtraV5_ok_iff decoded, rememberClaimLedger_ok_iff, Except.ok.injEq,
    Prod.mk.injEq]
  constructor
  · intro run
    obtain ⟨_, ⟨parentClaims, found, rfl⟩, _, _, kept, verified, ⟨rfl, work, claims⟩, artifacts, _,
      ⟨_, _, same⟩, rfl, rfl⟩ := run
    exact ⟨work, ⟨parentClaims, kept, verified, found, claims, congrArg some same⟩, artifacts⟩
  · intro parts
    obtain ⟨work, ⟨parentClaims, kept, verified, found, claims, rfl⟩, artifacts⟩ := parts
    obtain ⟨_, valid, _⟩ := bind_ok claims.root
    exact ⟨_, ⟨parentClaims, found, rfl⟩, _, _, kept, verified, ⟨rfl, work, claims⟩, artifacts, _,
      ⟨work.hash, valid, rfl⟩, rfl, rfl⟩

end Apply

/-! ### Acceptance -/

/-- The queue the author is held to: the first block has its author alone. -/
def turnSelection (header : Header) (selection : HybridSelection) : HybridSelection :=
  if header.number = 1 then { selection with ordered := [header.coinbase] } else selection

theorem verifyFields_coinbase {parent : Header} {u : Unit}
    (h : lqc.verifyFields header unixNow parent = .ok u) : header.coinbase ≠ 0 := by
  unfold verifyFields at h
  iterate 10 obtain ⟨_, _, h⟩ := bind_ok h
  exact verifyProducerSeal_coinbase h

theorem verifyContent_work_iff {verified : HybridSelection × Entry}
    (decoded : lqc.decodeWorkEnvelope header = .ok (some envelope)) (coinbase : header.coinbase ≠ 0) :
    lqc.verifyContent branch header = .ok verified ↔
      lqc.config.registryProtocolEnabled header.number = true ∧
        ∃ step : WorkStep lqc branch header envelope,
          verified = (turnSelection header step.selection, step.entry) := by
  have work : lqc.verifyCanonicalRegistryHeaderMaybeWorkV1Lab branch header =
      lqc.verifyWorkHeader branch header envelope := by
    unfold verifyCanonicalRegistryHeaderMaybeWorkV1Lab
    rw [decoded]
    rfl
  -- without the registry protocol the extra data would have to be the fixed text
  have legacy {u : Unit} : verifyExtra header ≠ .ok u := fun text =>
    verifyExtra_no_envelope text decoded
  unfold verifyContent turnSelection
  rw [work]
  split
  · cases lqc.config.registryProtocolEnabled header.number with
    | false =>
      simp only [bind_ok_iff, exists_unit, ensure_ok_iff, Bool.false_eq_true, if_false, legacy, false_and,
        and_false]
    | true =>
      simp only [bind_ok_iff, exists_unit, ensure_ok_iff, coinbase, ne_eq, not_false_eq_true, true_and,
        if_true, Prod.exists, verifyWorkHeader_ok_iff, Except.ok.injEq]
      constructor
      · intro run
        obtain ⟨_, _, ⟨step, rfl, rfl⟩, same⟩ := run
        exact ⟨step, same.symm⟩
      · intro steps
        obtain ⟨step, same⟩ := steps
        exact ⟨_, _, ⟨step, rfl, rfl⟩, same.symm⟩
  · cases lqc.config.registryProtocolEnabled header.number with
    | false =>
      simp only [bind_ok_iff, exists_unit, Bool.false_eq_true, if_false, legacy, false_and]
    | true =>
      obtain ⟨selected, entry⟩ := verified
      simp only [if_true, true_and, verifyWorkHeader_ok_iff, Prod.mk.injEq, eq_comm (a := selected),
        eq_comm (a := entry)]

theorem verifyHeaderAt_work_iff {parent : Entry} {rest : Branch}
    (decoded : lqc.decodeWorkEnvelope header = .ok (some envelope)) :
    lqc.verifyHeaderAt (parent :: rest) header unixNow = .ok entry ↔
      lqc.verifyFields header unixNow parent.header = .ok () ∧
      lqc.config.registryProtocolEnabled header.number = true ∧
      ∃ step : WorkStep lqc (parent :: rest) header envelope, step.entry = entry ∧
        lqc.verifyTurn header unixNow parent.header (turnSelection header step.selection) = .ok () := by
  unfold verifyHeaderAt
  simp only [bind_ok_iff, exists_unit]
  refine and_congr_right fun fields => ?_
  simp only [verifyContent_work_iff decoded (verifyFields_coinbase fields)]
  constructor
  · intro run
    obtain ⟨_, ⟨enabled, step, rfl⟩, turn, same⟩ := run
    exact ⟨enabled, step, Except.ok.inj same, turn⟩
  · intro steps
    obtain ⟨enabled, step, rfl, turn⟩ := steps
    exact ⟨_, ⟨enabled, step, rfl⟩, turn, rfl⟩

end LQC

namespace WorkStep

variable {lqc : LQC} {branch : Branch} {header : Header} {envelope : WorkEnvelope}
  (step : WorkStep lqc branch header envelope)

include step

theorem work (decoded : lqc.decodeWorkEnvelope header = .ok (some envelope)) :
    AppliedWork lqc.crypto step.ctx (header.hash lqc.crypto) envelope.base step.next := by
  have applied := step.applied_eq
  cases envelope with
  | v3 envelope =>
    obtain ⟨_, run⟩ := LQC.decodeWorkEnvelope_v3_iff.mp decoded
    exact ((LQC.applyWorkEnvelope_v3_ok_iff run).mp applied).1
  | v4 envelope =>
    obtain ⟨_, _, run⟩ := LQC.decodeWorkEnvelope_v4_iff.mp decoded
    exact ((LQC.applyWorkEnvelope_v4_ok_iff run).mp applied).1
  | v5 envelope =>
    obtain ⟨_, _, run⟩ := LQC.decodeWorkEnvelope_v5_iff.mp decoded
    exact ((LQC.applyWorkEnvelope_v5_ok_iff run).mp applied).1

end WorkStep

end RabbitLqc
