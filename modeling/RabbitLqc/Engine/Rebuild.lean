import RabbitLqc.Engine.Runtimes
import RabbitLqc.Header.Capacity

/-!
# Rebuilding the states of a branch

What the engine does not hold for a block it rebuilds from the headers, upwards from the newest block it has the states
of, or from the genesis. A block already on the chain is not checked in full again: its claims are taken as the header
commits to them, and no committee is looked up.
-/

namespace RabbitLqc
open Lib

namespace LQC

variable (lqc : LQC) (branch : Branch) (header : Header)

/-! ### One header -/

def registrySnapshotAt : Except LqcError RegistrySnapshot :=
  match branch.head? with
  | none => .error .unknownAncestor
  | some newest => newest.registry

def replaySelection (runtime : CanonicalWorkRuntimeStateV1) (parent : RegistrySnapshot) :
    Except LqcError HybridSelection :=
  if lqc.openActivationForHeader branch header then .ok {}
  else do
    let selected ← lqc.workSelectionForHeader branch header runtime parent
    .ok selected.1

def workV1EngineLabReplayRegistryV3 (runtime : CanonicalWorkRuntimeStateV1) (envelope : LQCHeaderEnvelopeV3) :
    Except LqcError RegistrySnapshot := do
  let parent ← registrySnapshotAt branch
  let selection ← lqc.replaySelection branch header runtime parent
  if selection.ordered ≠ [] then lqc.workV1EngineLabApplyRegistryBySeats header parent envelope selection
  else do
    let extra ← encodeRegistryHeaderExtra envelope.blockNumber envelope.registryRoot envelope.registryOperations
    let snapshot ← lqc.applyRegistryHeaderWithOpenActivation { header with extra } parent
      (lqc.openActivationForHeader branch header)
    let registry ← snapshot.open lqc.crypto
    .ok ⟨header.number, header.hash lqc.crypto, registry⟩

/-- The work of a block is checked again as a header of the third version, and its claims go into the ledger of its
parent as they stand. -/
def replayContent (ctx : LQCHeaderWorkRuntimeContextV1) (base : LQCHeaderEnvelopeV3)
    (claims : List CommitteeParticipationClaimGroupV1) (claimRoot : Hash) :
    Except LqcError (CanonicalWorkRuntimeStateV1 × Option CommitteeClaimLedgerV1) := do
  ensure (base.blockNumber.toNat = header.number) .lqcHeaderBlockMismatchV4
  let extra ← encodeLQCHeaderExtraV3 base.blockNumber base.registryRoot base.workStateRoot base.registryOperations
    base.workTickets maxWorkTicketsPerBlockV1
  let applied ← validateAndApplyLQCHeaderExtraV3WithCanonicalWorkV1 lqc.crypto ctx (header.hash lqc.crypto) extra
  let parentClaims ← lqc.workV1EngineLabParentClaimLedger branch header.number
  let next ← parentClaims.apply header.number claims
  let root ← next.root lqc.crypto
  ensure (root = claimRoot) .lqcHeaderCommitteeClaimRootMismatchV4
  let ledger ← lqc.rememberClaimLedger header next
  .ok (applied.2, some ledger)

/-- A header of the fifth version is checked in full unless it is the one the chain has at its height. The artifacts are
not checked again in either case. -/
def replayWorkEnvelope (canonical : Bool) (ctx : LQCHeaderWorkRuntimeContextV1) :
    WorkEnvelope → Except LqcError (CanonicalWorkRuntimeStateV1 × Option CommitteeClaimLedgerV1)
  | .v3 envelope => lqc.applyWorkEnvelope branch header ctx (.v3 envelope)
  | .v4 envelope => lqc.replayContent branch header ctx envelope.base envelope.committeeParticipationClaims
      envelope.committeeClaimRoot
  | .v5 envelope =>
    if canonical then do
      let _ ← validateLQCHeaderExtraV5 lqc.bls header.number maxWorkTicketsPerBlockV1 header.extra
      lqc.replayContent branch header ctx envelope.base envelope.committeeParticipationClaims
        envelope.committeeClaimRoot
    else do
      let full ← lqc.workV1EngineLabV4Context branch header ctx
      let applied ← validateAndApplyLQCHeaderExtraV5WithCanonicalRuntimeV1 lqc.crypto lqc.bls full
        (header.hash lqc.crypto) header.extra
      let ledger ← lqc.rememberClaimLedger header applied.2.2.1
      .ok (applied.2.1, some ledger)

def replayEntry (canonical : Bool) (known : Entry) : Except LqcError Entry := do
  let runtime ← parentRuntime branch
  match ← lqc.decodeWorkEnvelope known.header with
  | none => do
    let next ← lqc.replayRuntime known.header (.ok runtime)
    .ok { known with runtime := .ok next, claims := none }
  | some envelope => do
    let snapshot ← lqc.workV1EngineLabReplayRegistryV3 branch known.header runtime envelope.base
    let ctx ← lqc.workV1EngineLabContext branch known.header runtime envelope.base.registryRoot
    let applied ← lqc.replayWorkEnvelope branch known.header canonical ctx envelope
    ensure (known.header.hash lqc.crypto ≠ 0) .workV1EngineLabUnavailable
    .ok ⟨known.header, .ok applied.1, .ok snapshot, applied.2⟩

/-! ### A branch -/

/-- The work state at a block of height zero: the one of the header that the chain has at that height, which has to be
this block. -/
def workV1EngineLabGenesisRuntime (byNumber : Nat → Option Header) (hash : Hash) :
    Except LqcError CanonicalWorkRuntimeStateV1 :=
  match byNumber 0 with
  | none => .error .workV1EngineLabParentMissing
  | some genesis => do
    let runtime ← lqc.genesisRuntime genesis
    ensure (runtime.work.hash = hash) .workV1EngineLabParentMissing
    .ok runtime

def rebuildEntry (byNumber : Nat → Option Header) (known : Entry) : Entry :=
  let hash := known.header.hash lqc.crypto
  if known.header.number = 0 then { known with runtime := lqc.workV1EngineLabGenesisRuntime byNumber hash }
  else
    let canonical := (byNumber known.header.number).any (·.hash lqc.crypto = hash)
    match lqc.replayEntry branch canonical known with
    | .error error => { known with runtime := .error error, claims := none }
    | .ok rebuilt => rebuilt

/-- The states of a branch as the engine has them when it holds those of some blocks only. The registry of a header
without a work envelope is found by hash alone, so it is as it was. -/
def workV1EngineLabRuntimeAt (byNumber : Nat → Option Header) (holds : Hash → Bool) : Branch → Branch
  | [] => []
  | known :: below =>
    let lower := workV1EngineLabRuntimeAt byNumber holds below
    (if holds (known.header.hash lqc.crypto) then known else lqc.rebuildEntry lower byNumber known) :: lower

end LQC

/-! ### Rebuilding what was accepted -/

section Rebuilt

variable {lqc : LQC} {branch rest : Branch} {header : Header} {entry parent : Entry} {envelope : WorkEnvelope}
  {next : CanonicalWorkRuntimeStateV1} {ledger : Option CommitteeClaimLedgerV1}

theorem WorkStep.replayRegistry (step : WorkStep lqc branch header envelope) :
    lqc.workV1EngineLabReplayRegistryV3 branch header step.runtime envelope.base = .ok step.snapshot := by
  have found : LQC.registrySnapshotAt branch = .ok step.parent := by
    have parent := step.parent_eq
    unfold LQC.registryParentSnapshot at parent
    split at parent
    · cases parent
    · exact parent
  -- without a queue the author is not looked at: the registry alone is computed
  have synthetic (run : lqc.verifySyntheticRegistryHeader branch header envelope.base =
      .ok (step.selection, step.snapshot)) : ∃ extra snapshot registry,
      encodeRegistryHeaderExtra envelope.base.blockNumber envelope.base.registryRoot envelope.base.registryOperations =
        .ok extra ∧
      lqc.applyRegistryHeaderWithOpenActivation { header with extra } step.parent
        (lqc.openActivationForHeader branch header) = .ok snapshot ∧
      snapshot.open lqc.crypto = .ok registry ∧ ⟨header.number, header.hash lqc.crypto, registry⟩ = step.snapshot := by
    obtain ⟨extra, encoded, run⟩ := bind_ok run
    obtain ⟨⟨_, snapshot⟩, verified, run⟩ := bind_ok run
    obtain ⟨registry, opened, run⟩ := bind_ok run
    obtain ⟨parent, same, verified⟩ := bind_ok verified
    obtain rfl := Except.ok.inj (step.parent_eq.symm.trans same)
    obtain ⟨_, _, verified⟩ := bind_ok verified
    obtain ⟨child, applied, verified⟩ := bind_ok verified
    obtain ⟨_, rfl⟩ := Prod.mk.inj (Except.ok.inj verified)
    exact ⟨extra, _, registry, encoded, applied, opened, (Prod.mk.inj (Except.ok.inj run)).2⟩
  have registry := step.registry_eq
  unfold LQC.verifyRegistryOf at registry
  refine bind_ok_iff.mpr ⟨_, found, ?_⟩
  split at registry
  · next opens =>
    obtain ⟨extra, snapshot, moved, encoded, applied, opened, same⟩ := synthetic registry
    refine bind_ok_iff.mpr ⟨_, if_pos opens, ?_⟩
    exact bind_ok_iff.mpr ⟨extra, encoded, bind_ok_iff.mpr ⟨snapshot, applied, bind_ok_iff.mpr
      ⟨moved, opened, congrArg Except.ok same⟩⟩⟩
  · next closed =>
    obtain ⟨selected, selects, registry⟩ := bind_ok registry
    have replayed : lqc.replaySelection branch header step.runtime step.parent = .ok selected.1 := by
      unfold LQC.replaySelection
      rw [if_neg closed, selects]
      rfl
    refine bind_ok_iff.mpr ⟨_, replayed, ?_⟩
    split at registry
    · next called =>
      obtain ⟨snapshot, applied, registry⟩ := bind_ok registry
      rw [if_pos called, applied, (Prod.mk.inj (Except.ok.inj registry)).2]
    · next idle =>
      obtain ⟨extra, snapshot, moved, encoded, applied, opened, same⟩ := synthetic registry
      rw [if_neg idle]
      exact bind_ok_iff.mpr ⟨extra, encoded, bind_ok_iff.mpr ⟨snapshot, applied, bind_ok_iff.mpr
        ⟨moved, opened, congrArg Except.ok same⟩⟩⟩

theorem replayContent_ok {ctx : LQCHeaderWorkRuntimeContextV1} {base : LQCHeaderEnvelopeV3}
    {claims : List CommitteeParticipationClaimGroupV1} {claimRoot : Hash}
    (number : ctx.blockNumber.toNat = header.number) (version : base.version = 3)
    (roots : base.blockNumber ≠ 0 ∧ base.registryRoot ≠ 0 ∧ base.workStateRoot ≠ 0)
    (listed : ListedWork maxWorkTicketsPerBlockV1 base.registryOperations base.workTickets)
    (work : AppliedWork lqc.crypto ctx (header.hash lqc.crypto) base next)
    (claimed : LQC.ClaimStep lqc branch header ctx claims claimRoot ledger) :
    lqc.replayContent branch header ctx base claims claimRoot = .ok (next, ledger) := by
  obtain ⟨parentClaims, kept, verified, found, content, rfl⟩ := claimed
  obtain ⟨_, block, registryRoot, workRoot, operations, tickets⟩ := base
  obtain rfl : _ = (3 : UInt8) := version
  have limit : maxWorkTicketsPerBlockV1 ≠ 0 := by decide
  have fits := @framedSize_V3_le block registryRoot workRoot operations tickets listed.validOperations
    listed.validTickets
  have encoded : encodeLQCHeaderExtraV3 block registryRoot workRoot operations tickets maxWorkTicketsPerBlockV1 =
      .ok (appendEmptyProducerSeal (framedPayload
        (⟨3, block, registryRoot, workRoot, operations, tickets⟩ : LQCHeaderEnvelopeV3))) := by
    rw [encodeLQCHeaderExtraV3_ok_iff, listed.operationOrder, listed.ticketOrder]
    exact ⟨roots, limit, listed.validOperations, listed.validTickets, fits, rfl⟩
  have decoded := (decodeLQCHeaderExtraV3_ok_iff limit).mpr
    ⟨⟨rfl, roots, listed, fits⟩, List.replicate producerSealLength 0, List.length_replicate, rfl⟩
  have applied := (validateAndApplyLQCHeaderExtraV3_ok_iff decoded).mpr ⟨rfl, work⟩
  obtain ⟨_, _, run⟩ := bind_ok content.applied
  obtain ⟨_, _, run⟩ := bind_ok run
  obtain ⟨after, ledgered, run⟩ := bind_ok run
  obtain ⟨_, _, run⟩ := bind_ok run
  obtain ⟨rfl, _⟩ := Prod.mk.inj (Except.ok.inj run)
  have ledgered : parentClaims.apply header.number claims = .ok after := by
    rw [← number]
    exact ledgered
  obtain ⟨_, valid, _⟩ := bind_ok content.root
  unfold LQC.replayContent
  simp only [bind_ok_iff, ensure_ok_iff, exists_unit, encoded, found, ledgered, content.root,
    LQC.rememberClaimLedger_ok_iff, Except.ok.injEq, exists_eq_left']
  exact ⟨work.number.trans number, _, applied, trivial, _, ⟨work.hash, valid, rfl⟩, rfl⟩

theorem WorkStep.replayWorkEnvelope (step : WorkStep lqc branch header envelope)
    (decoded : lqc.decodeWorkEnvelope header = .ok (some envelope)) (bounded : header.number ≤ maxUint64)
    (canonical : Bool) :
    lqc.replayWorkEnvelope branch header canonical step.ctx envelope = .ok (step.next, step.ledger) := by
  have limit : maxWorkTicketsPerBlockV1 ≠ 0 := by decide
  have number : step.ctx.blockNumber.toNat = header.number := by
    rw [(workV1EngineLabContext_ok step.ctx_eq).2.2.1, toNat_ofNat_of_le bounded]
  have applied := step.applied_eq
  cases envelope with
  | v3 envelope => exact applied
  | v4 envelope =>
    obtain ⟨_, _, run⟩ := LQC.decodeWorkEnvelope_v4_iff.mp decoded
    obtain ⟨valid, _⟩ := (decodeLQCHeaderExtraV4_ok_iff limit).mp run
    obtain ⟨work, claimed⟩ := (LQC.applyWorkEnvelope_v4_ok_iff run).mp applied
    exact replayContent_ok number rfl ⟨valid.roots.1, valid.roots.2.1, valid.roots.2.2.1⟩ valid.work work claimed
  | v5 envelope =>
    obtain ⟨_, _, run⟩ := LQC.decodeWorkEnvelope_v5_iff.mp decoded
    obtain ⟨valid, _⟩ := (decodeLQCHeaderExtraV5_ok_iff limit).mp run
    obtain ⟨work, claimed, _⟩ := (LQC.applyWorkEnvelope_v5_ok_iff run).mp applied
    cases canonical with
    | true =>
      have checked : validateLQCHeaderExtraV5 lqc.bls header.number maxWorkTicketsPerBlockV1 header.extra =
          .ok envelope :=
        bind_ok_iff.mpr ⟨envelope, run, bind_ok_iff.mpr ⟨(), ensure_ok_iff.mpr (work.number.trans number), rfl⟩⟩
      exact bind_ok_iff.mpr ⟨envelope, checked, replayContent_ok number rfl
        ⟨valid.roots.1, valid.roots.2.1, valid.roots.2.2.1⟩ valid.work work claimed⟩
    | false =>
      unfold LQC.applyWorkEnvelope at applied
      obtain ⟨full, context, applied⟩ := bind_ok applied
      obtain ⟨content, validated, applied⟩ := bind_ok applied
      obtain ⟨_, _, applied⟩ := bind_ok applied
      exact bind_ok_iff.mpr ⟨full, context, bind_ok_iff.mpr ⟨content, validated, applied⟩⟩

theorem replayEntry_no_envelope (canonical : Bool) (unclaimed : entry.claims = none)
    (runtime : entry.runtime = lqc.legacyRuntime branch entry.header)
    (text : ∀ envelope, lqc.decodeWorkEnvelope entry.header ≠ .ok (some envelope)) :
    (∃ error, lqc.replayEntry branch canonical entry = .error error ∧ entry.runtime = .error error) ∨
      lqc.replayEntry branch canonical entry = .ok entry := by
  obtain ⟨header, _, registry, _⟩ := entry
  dsimp only at unclaimed runtime text
  subst unclaimed runtime
  unfold LQC.replayEntry LQC.legacyRuntime
  cases LQC.parentRuntime branch with
  | error error => exact .inl ⟨error, rfl, rfl⟩
  | ok before =>
    cases decoded : lqc.decodeWorkEnvelope header with
    | error error => exact .inl ⟨error, rfl, rfl⟩
    | ok found =>
      cases found with
      | some envelope => exact absurd decoded (text envelope)
      | none =>
        show (∃ error, (lqc.replayRuntime header (.ok before) >>= _) = .error error ∧
            lqc.replayRuntime header (.ok before) = .error error) ∨
          (lqc.replayRuntime header (.ok before) >>= _) =
            .ok (⟨header, lqc.replayRuntime header (.ok before), registry, none⟩ : Entry)
        cases lqc.replayRuntime header (.ok before) with
        | error error => exact .inl ⟨error, rfl, rfl⟩
        | ok next => exact .inr rfl

/-- Whichever way a header was accepted, replaying it on the same branch gives the states it was accepted with. -/
theorem AcceptedAs.rebuilt (accepted : AcceptedAs lqc branch header entry) (bounded : header.number ≤ maxUint64)
    (started : header.number ≠ 0) (byNumber : Nat → Option Header) :
    lqc.rebuildEntry branch byNumber entry = entry := by
  unfold LQC.rebuildEntry
  rw [accepted.header_eq, if_neg started]
  dsimp only
  generalize (byNumber header.number).any (·.hash lqc.crypto = header.hash lqc.crypto) = canonical
  have replayed : (∃ error, lqc.replayEntry branch canonical entry = .error error ∧ entry.runtime = .error error ∧
      entry.claims = none) ∨ lqc.replayEntry branch canonical entry = .ok entry := by
    cases accepted with
    | work decoded _ step =>
      exact .inr (bind_ok_iff.mpr ⟨_, step.runtime_eq, bind_ok_iff.mpr ⟨_, decoded, bind_ok_iff.mpr
        ⟨_, step.replayRegistry, bind_ok_iff.mpr ⟨_, step.ctx_eq, bind_ok_iff.mpr
          ⟨_, step.replayWorkEnvelope decoded bounded canonical, bind_ok_iff.mpr
            ⟨(), ensure_ok_iff.mpr step.hash_ne, rfl⟩⟩⟩⟩⟩⟩)
    | plain decoded _ _ =>
      have runtime : lqc.replayRuntime header (LQC.parentRuntime branch) = lqc.legacyRuntime branch header := by
        unfold LQC.legacyRuntime
        rw [decoded]
        cases LQC.parentRuntime branch <;> rfl
      rw [runtime]
      refine (replayEntry_no_envelope canonical rfl rfl ?_).imp ?_ id
      · intro envelope found
        cases decoded.symm.trans found
      · intro failed
        obtain ⟨error, failed, same⟩ := failed
        exact ⟨error, failed, same, rfl⟩
    | legacy _ text =>
      refine (replayEntry_no_envelope canonical rfl rfl fun _ => LQC.verifyExtra_no_envelope text).imp ?_ id
      intro failed
      obtain ⟨error, failed, same⟩ := failed
      exact ⟨error, failed, same, rfl⟩
  rcases replayed with ⟨error, failed, runtime, unclaimed⟩ | same
  · have own := accepted.header_eq
    rw [failed]
    obtain ⟨_, _, _, _⟩ := entry
    dsimp only at own runtime unclaimed ⊢
    rw [own, runtime, unclaimed]
  · rw [same]

/-- Branches of verified headers over one genesis, each verified at some time and with some participant table. -/
inductive Grown (lqc : LQC) (genesis : Header) : Branch → Prop
  | genesis (first : genesis.number = 0) : Grown lqc genesis [lqc.genesisEntry genesis]
  | extend {branch : Branch} {header : Header} {unixNow : Nat} {entry : Entry}
      (table : Branch → Header → HybridSelection) (below : Grown lqc genesis branch)
      (verified : LQC.verifyHeaderAt { lqc with legacySelection := table } branch header unixNow = .ok entry) :
      Grown lqc genesis (entry :: branch)

variable {genesis : Header}

theorem Grown.ne_nil (grown : Grown lqc genesis branch) : branch ≠ [] := by
  cases grown <;> exact List.cons_ne_nil _ _

theorem Grown.tail (grown : Grown lqc genesis (entry :: branch)) (above : entry.header.number ≠ 0) :
    Grown lqc genesis branch := by
  cases grown with
  | genesis first => exact absurd first above
  | extend _ below _ => exact below

theorem rebuildEntry_genesis {byNumber : Nat → Option Header} (first : genesis.number = 0)
    (numbered : byNumber 0 = some genesis) :
    lqc.rebuildEntry branch byNumber (lqc.genesisEntry genesis) = lqc.genesisEntry genesis := by
  have runtime : lqc.workV1EngineLabGenesisRuntime byNumber (genesis.hash lqc.crypto) = lqc.genesisRuntime genesis := by
    unfold LQC.workV1EngineLabGenesisRuntime
    rw [numbered]
    dsimp only
    cases made : lqc.genesisRuntime genesis with
    | error error => rfl
    | ok state =>
      exact bind_ok_iff.mpr ⟨state, rfl, bind_ok_iff.mpr
        ⟨(), ensure_ok_iff.mpr (genesis_runtimeAt first made).hash, rfl⟩⟩
  unfold LQC.rebuildEntry
  rw [if_pos (show (lqc.genesisEntry genesis).header.number = 0 from first)]
  show ({ lqc.genesisEntry genesis with
    runtime := lqc.workV1EngineLabGenesisRuntime byNumber (genesis.hash lqc.crypto) } : Entry) = _
  rw [runtime]
  rfl

/-- The states of verified headers come back the same, whatever the engine holds and whatever else the chain has at
their heights, as long as the block of height zero is the genesis they were verified on. -/
theorem Grown.runtimeAt_eq (grown : Grown lqc genesis branch) {byNumber : Nat → Option Header}
    (numbered : byNumber 0 = some genesis) (holds : Hash → Bool) (table : Branch → Header → HybridSelection) :
    LQC.workV1EngineLabRuntimeAt { lqc with legacySelection := table } byNumber holds branch = branch := by
  induction grown with
  | genesis first =>
    show (if holds (genesis.hash lqc.crypto) then lqc.genesisEntry genesis
      else lqc.rebuildEntry [] byNumber (lqc.genesisEntry genesis)) :: [] = _
    rw [rebuildEntry_genesis first numbered, ite_self]
  | @extend branch header unixNow entry _ below verified ih =>
    cases branch with
    | nil => exact absurd rfl below.ne_nil
    | cons parent rest =>
      obtain ⟨links, as⟩ := verifyHeaderAt_cases verified
      have started : header.number ≠ 0 := by
        rw [links.number]
        exact Nat.succ_ne_zero _
      have same : LQC.rebuildEntry { lqc with legacySelection := table } (parent :: rest) byNumber entry = entry :=
        as.rebuilt links.bounded started byNumber
      rw [LQC.workV1EngineLabRuntimeAt, ih, same, ite_self]

/-- The entry of a verified header depends on its branch alone: the clock and the participant table only decide whether
it passes. -/
theorem verifyHeaderAt_entry {left right : Branch → Header → HybridSelection} {early late : Nat} {again : Entry}
    (verified : LQC.verifyHeaderAt { lqc with legacySelection := left } branch header early = .ok entry)
    (verifiedToo : LQC.verifyHeaderAt { lqc with legacySelection := right } branch header late = .ok again) :
    entry = again := by
  have content (table : Branch → Header → HybridSelection) :
      (LQC.verifyContent { lqc with legacySelection := table } branch header).map Prod.snd =
        (lqc.verifyContent branch header).map Prod.snd := by
    unfold LQC.verifyContent
    dsimp only
    split
    · rfl
    · split
      · rfl
      · cases LQC.verifyExtra header <;> rfl
  have read {table : Branch → Header → HybridSelection} {unixNow : Nat} {made : Entry}
      (run : LQC.verifyHeaderAt { lqc with legacySelection := table } branch header unixNow = .ok made) :
      (lqc.verifyContent branch header).map Prod.snd = .ok made := by
    unfold LQC.verifyHeaderAt at run
    cases branch with
    | nil => cases run
    | cons parent rest =>
      obtain ⟨_, _, run⟩ := bind_ok run
      obtain ⟨checked, verified, run⟩ := bind_ok run
      obtain ⟨_, _, run⟩ := bind_ok run
      rw [← content table, verified]
      exact run
  exact Except.ok.inj ((read verified).symm.trans (read verifiedToo))

end Rebuilt

end RabbitLqc
