import RabbitLqc.Engine.Steps

/-!
# How a block moves the registry

A header with a work envelope moves the registry of its parent in one of three ways: by the turns
of the selection its parent gives, by the turns of the registry queue when that selection is
empty, or by an open activation. The signed operations follow in every case.
-/

namespace RabbitLqc
open Lib

/-- What a block does to the registry before its operations, and the queue it was checked against. -/
inductive RegistryTurn (lqc : LQC) (branch : Branch) (header : Header)
    (runtime : CanonicalWorkRuntimeStateV1) (parent : RegistrySnapshot) (registry : CanonicalRegistry) :
    HybridSelection → CanonicalRegistry → Prop
  | seats {selected : HybridSelection × Bool} {moved : CanonicalRegistry}
      (closed : lqc.openActivationForHeader branch header = false)
      (selects : lqc.workSelectionForHeader branch header runtime parent = .ok selected)
      (called : selected.1.ordered ≠ [])
      (allowed : lqc.config.isAuthorAllowedAt header.number selected.1 header.coinbase ≠ none)
      (live : lqc.config.workV1EngineLabApplySeatLiveness registry header.number selected.1
        header.coinbase = .ok moved) :
      RegistryTurn lqc branch header runtime parent registry selected.1 moved
  | queue {selected : HybridSelection × Bool} {moved : CanonicalRegistry}
      (closed : lqc.openActivationForHeader branch header = false)
      (selects : lqc.workSelectionForHeader branch header runtime parent = .ok selected)
      (idle : selected.1.ordered = [])
      (difficulty : lqc.config.proofDifficulty ≠ 0)
      (turns : registry.queueTurns lqc.crypto lqc.config.registryRules header.parentHash
        header.coinbase header.number = .ok moved) :
      RegistryTurn lqc branch header runtime parent registry
        (lqc.config.canonicalRoles (registry.orderedParticipantsForBlock lqc.crypto header.parentHash
          header.number lqc.config.registryRules.activationDelay)) moved
  | activation {moved : CanonicalRegistry}
      (opens : lqc.openActivationForHeader branch header = true)
      (difficulty : lqc.config.proofDifficulty ≠ 0)
      (activates : registry.openActivation
        (lqc.config.consensusCommitteeLivenessActive header.number) header.coinbase header.number =
          .ok moved) :
      RegistryTurn lqc branch header runtime parent registry { ordered := [header.coinbase] } moved

theorem RegistryTurn.selects {lqc : LQC} {branch : Branch} {header : Header}
    {runtime : CanonicalWorkRuntimeStateV1} {parent : RegistrySnapshot} {selection : HybridSelection}
    {registry moved : CanonicalRegistry}
    (turn : RegistryTurn lqc branch header runtime parent registry selection moved)
    (closed : lqc.openActivationForHeader branch header = false) :
    ∃ selected, lqc.workSelectionForHeader branch header runtime parent = .ok selected ∧
      (selected.1.ordered ≠ [] →
        lqc.config.isAuthorAllowedAt header.number selected.1 header.coinbase ≠ none) := by
  cases turn with
  | seats _ selects _ allowed _ => exact ⟨_, selects, fun _ => allowed⟩
  | queue _ selects idle _ _ => exact ⟨_, selects, fun some => absurd idle some⟩
  | activation opens _ _ =>
    rw [closed] at opens
    cases opens

structure OperationsFit (lqc : LQC) (blockNumber : Nat) (envelope : LQCHeaderEnvelopeV3) : Prop where
  root : envelope.registryRoot ≠ 0
  number : envelope.blockNumber.toNat = blockNumber
  valid : HeaderOperations (canonicalRegistryOperations envelope.registryOperations)
  signed : ∀ operation ∈ canonicalRegistryOperations envelope.registryOperations,
    validateRegistryOperation lqc.crypto lqc.chainID blockNumber lqc.config.proofDifficulty
      operation = .ok ()

/-- The registry after a block, from the one of its parent. -/
structure RegistryStep (lqc : LQC) (branch : Branch) (header : Header) (envelope : LQCHeaderEnvelopeV3)
    (runtime : CanonicalWorkRuntimeStateV1) (parent : RegistrySnapshot) (selection : HybridSelection)
    (registry moved next : CanonicalRegistry) : Prop where
  follows : parent.number ≠ maxUint64 ∧ header.number = parent.number + 1 ∧
    header.parentHash = parent.hash
  opened : parent.open lqc.crypto = .ok registry
  turn : RegistryTurn lqc branch header runtime parent registry selection moved
  fit : OperationsFit lqc header.number envelope
  applied : CanonicalRegistry.applyOperations lqc.crypto lqc.chainID header.number
    lqc.config.proofDifficulty moved (canonicalRegistryOperations envelope.registryOperations) = .ok next
  root : next.root lqc.crypto = envelope.registryRoot

namespace LQC

variable {lqc : LQC} {branch : Branch} {header : Header} {envelope : LQCHeaderEnvelopeV3}
  {runtime : CanonicalWorkRuntimeStateV1} {parent : RegistrySnapshot} {selection : HybridSelection}
  {snapshot : RegistrySnapshot}

theorem registryContent_ok_iff {blockNumber : Nat} {extra : Bytes} {content : RegistryHeaderEnvelope} :
    (encodeRegistryHeaderExtra envelope.blockNumber envelope.registryRoot envelope.registryOperations =
        .ok extra ∧
      validateRegistryHeaderExtra lqc.crypto lqc.chainID blockNumber lqc.config.proofDifficulty extra =
        .ok content) ↔
      OperationsFit lqc blockNumber envelope ∧
        encodeRegistryHeaderExtra envelope.blockNumber envelope.registryRoot
          envelope.registryOperations = .ok extra ∧
        content = registryEnvelope envelope.blockNumber envelope.registryRoot
          (canonicalRegistryOperations envelope.registryOperations) := by
  unfold validateRegistryHeaderExtra
  constructor
  · intro written
    obtain ⟨encoded, read⟩ := written
    obtain ⟨nonzero, valid, _⟩ := encodeRegistryHeaderExtra_ok_iff.mp encoded
    rw [decodeRegistryHeaderExtra_encode encoded] at read
    obtain ⟨_, same, read⟩ := bind_ok read
    obtain rfl := Except.ok.inj same
    obtain ⟨_, number, read⟩ := bind_ok read
    obtain ⟨_, signed, read⟩ := bind_ok read
    obtain rfl := Except.ok.inj read
    exact ⟨⟨nonzero, ensure_ok_iff.mp number, valid, forM_ok_iff.mp signed⟩, encoded, rfl⟩
  · intro parts
    obtain ⟨fit, encoded, rfl⟩ := parts
    rw [decodeRegistryHeaderExtra_encode encoded]
    have number : ensure (envelope.blockNumber.toNat = blockNumber)
        LqcError.registryHeaderBlockMismatch = .ok () := ensure_ok_iff.mpr fit.number
    have signed : (canonicalRegistryOperations envelope.registryOperations).forM
        (validateRegistryOperation lqc.crypto lqc.chainID blockNumber lqc.config.proofDifficulty) =
          .ok () := forM_ok_iff.mpr fit.signed
    exact ⟨encoded, bind_ok_iff.mpr ⟨_, rfl, bind_ok_iff.mpr ⟨_, number, bind_ok_iff.mpr ⟨_, signed, rfl⟩⟩⟩⟩

theorem encodes_of_fit {blockNumber : Nat} (fit : OperationsFit lqc blockNumber envelope) :
    ∃ extra, encodeRegistryHeaderExtra envelope.blockNumber envelope.registryRoot
      envelope.registryOperations = .ok extra :=
  ⟨_, encodeRegistryHeaderExtra_ok_iff.mpr ⟨fit.root, fit.valid, rfl⟩⟩

theorem applyRegistryBySeats_ok_iff :
    lqc.workV1EngineLabApplyRegistryBySeats header parent envelope selection = .ok snapshot ↔
      lqc.config.isAuthorAllowedAt header.number selection header.coinbase ≠ none ∧
      ∃ registry moved next, (parent.number ≠ maxUint64 ∧ header.number = parent.number + 1 ∧
          header.parentHash = parent.hash) ∧
        parent.open lqc.crypto = .ok registry ∧
        lqc.config.workV1EngineLabApplySeatLiveness registry header.number selection header.coinbase =
          .ok moved ∧
        OperationsFit lqc header.number envelope ∧
        CanonicalRegistry.applyOperations lqc.crypto lqc.chainID header.number
          lqc.config.proofDifficulty moved
          (canonicalRegistryOperations envelope.registryOperations) = .ok next ∧
        next.root lqc.crypto = envelope.registryRoot ∧
        snapshot = ⟨header.number, header.hash lqc.crypto, next⟩ := by
  simp only [workV1EngineLabApplyRegistryBySeats, bind_ok_iff, exists_unit, ensure_ok_iff,
    Except.ok.injEq]
  constructor
  · intro run
    obtain ⟨follows, allowed, registry, opened, moved, live, extra, encoded, content, read, next, applied,
      root, rfl⟩ := run
    obtain ⟨fit, _, rfl⟩ := registryContent_ok_iff.mp ⟨encoded, read⟩
    exact ⟨allowed, registry, moved, next, follows, opened, live, fit, applied, root, rfl⟩
  · intro parts
    obtain ⟨allowed, registry, moved, next, follows, opened, live, fit, applied, root, rfl⟩ := parts
    obtain ⟨extra, encoded⟩ := encodes_of_fit fit
    obtain ⟨_, read⟩ := registryContent_ok_iff.mpr ⟨fit, encoded, rfl⟩
    exact ⟨follows, allowed, registry, opened, moved, live, extra, encoded, _, read, next, applied, root,
      rfl⟩

theorem verifySyntheticRegistryHeader_ok
    (parent_eq : lqc.registryParentSnapshot branch header = .ok parent)
    (run : lqc.verifySyntheticRegistryHeader branch header envelope = .ok (selection, snapshot)) :
    ∃ registry moved next, (parent.number ≠ maxUint64 ∧ header.number = parent.number + 1 ∧
        header.parentHash = parent.hash) ∧
      parent.open lqc.crypto = .ok registry ∧ lqc.config.proofDifficulty ≠ 0 ∧
      registry.headerTurn lqc.crypto lqc.config.registryRules header.parentHash header.coinbase
        header.number (lqc.openActivationForHeader branch header)
        (lqc.config.consensusCommitteeLivenessActive header.number) = .ok moved ∧
      OperationsFit lqc header.number envelope ∧
      CanonicalRegistry.applyOperations lqc.crypto lqc.chainID header.number lqc.config.proofDifficulty
        moved (canonicalRegistryOperations envelope.registryOperations) = .ok next ∧
      next.root lqc.crypto = envelope.registryRoot ∧
      selection = (if lqc.openActivationForHeader branch header then { ordered := [header.coinbase] }
        else lqc.config.canonicalRoles (registry.orderedParticipantsForBlock lqc.crypto
          header.parentHash header.number lqc.config.registryRules.activationDelay)) ∧
      snapshot = ⟨header.number, header.hash lqc.crypto, next⟩ := by
  unfold verifySyntheticRegistryHeader at run
  obtain ⟨extra, encoded, run⟩ := bind_ok run
  obtain ⟨⟨queue, child⟩, verified, run⟩ := bind_ok run
  obtain ⟨reopened, reopen, run⟩ := bind_ok run
  obtain ⟨rfl, rfl⟩ := Prod.mk.inj (Except.ok.inj run)
  unfold verifyCanonicalRegistryHeader at verified
  obtain ⟨found, same, verified⟩ := bind_ok verified
  obtain rfl := Except.ok.inj (parent_eq.symm.trans same)
  obtain ⟨canonical, queued, verified⟩ := bind_ok verified
  obtain ⟨moves, apply, verified⟩ := bind_ok verified
  obtain ⟨rfl, rfl⟩ := Prod.mk.inj (Except.ok.inj verified)
  unfold canonicalSelection at queued
  obtain ⟨registry, opened, queued⟩ := bind_ok queued
  obtain rfl := Except.ok.inj queued
  unfold applyRegistryHeaderWithOpenActivation RegistrySnapshot.applyHeaderWithOpenActivation at apply
  obtain ⟨again, open_eq, apply⟩ := bind_ok apply
  obtain rfl := Except.ok.inj (opened.symm.trans open_eq)
  obtain ⟨_, follows, apply⟩ := bind_ok apply
  obtain ⟨_, difficulty, apply⟩ := bind_ok apply
  obtain ⟨content, read, apply⟩ := bind_ok apply
  obtain ⟨moved, move, apply⟩ := bind_ok apply
  obtain ⟨next, applied, apply⟩ := bind_ok apply
  obtain ⟨_, root, apply⟩ := bind_ok apply
  obtain rfl := Except.ok.inj apply
  obtain ⟨fit, _, rfl⟩ := registryContent_ok_iff.mp ⟨encoded, read⟩
  obtain ⟨_, _, same⟩ := RegistrySnapshot.open_ok_iff.mp reopen
  rw [same]
  exact ⟨registry, moved, next, ensure_ok_iff.mp follows, opened, ensure_ok_iff.mp difficulty, move, fit,
    applied, ensure_ok_iff.mp root, rfl, rfl⟩

theorem verifyRegistryOf_ok (parent_eq : lqc.registryParentSnapshot branch header = .ok parent)
    (run : lqc.verifyRegistryOf branch header envelope runtime parent = .ok (selection, snapshot)) :
    ∃ registry moved next,
      RegistryStep lqc branch header envelope runtime parent selection registry moved next ∧
        snapshot = ⟨header.number, header.hash lqc.crypto, next⟩ := by
  unfold verifyRegistryOf at run
  split at run
  · rename_i opens
    obtain ⟨registry, moved, next, follows, opened, difficulty, move, fit, applied, root, rfl, rfl⟩ :=
      verifySyntheticRegistryHeader_ok parent_eq run
    rw [opens] at move ⊢
    exact ⟨registry, moved, next, ⟨follows, opened, .activation opens difficulty move, fit, applied, root⟩,
      rfl⟩
  · rename_i shut
    have closed := Bool.eq_false_iff.mpr shut
    obtain ⟨selected, selects, run⟩ := bind_ok run
    split at run
    · rename_i called
      obtain ⟨_, seats, same⟩ := bind_ok run
      obtain ⟨rfl, rfl⟩ := Prod.mk.inj (Except.ok.inj same)
      obtain ⟨allowed, registry, moved, next, follows, opened, live, fit, applied, root, rfl⟩ :=
        applyRegistryBySeats_ok_iff.mp seats
      exact ⟨registry, moved, next,
        ⟨follows, opened, .seats closed selects called allowed live, fit, applied, root⟩, rfl⟩
    · rename_i empty
      obtain ⟨registry, moved, next, follows, opened, difficulty, move, fit, applied, root, rfl, rfl⟩ :=
        verifySyntheticRegistryHeader_ok parent_eq run
      rw [closed] at move ⊢
      exact ⟨registry, moved, next,
        ⟨follows, opened, .queue closed selects (not_not.mp empty) difficulty move, fit, applied, root⟩,
        rfl⟩

/-- Registry headers written by hand are accepted as they should be, with a hash function that is
never zero and no participant at the zero address. -/
theorem verifySyntheticRegistryHeader_of {registry moved next : CanonicalRegistry}
    (nonzero : ∀ bytes, lqc.crypto.keccak256 bytes ≠ 0)
    (parent_eq : lqc.registryParentSnapshot branch header = .ok parent)
    (follows : parent.number ≠ maxUint64 ∧ header.number = parent.number + 1 ∧
      header.parentHash = parent.hash)
    (opened : parent.open lqc.crypto = .ok registry) (difficulty : lqc.config.proofDifficulty ≠ 0)
    (move : registry.headerTurn lqc.crypto lqc.config.registryRules header.parentHash header.coinbase
      header.number (lqc.openActivationForHeader branch header)
      (lqc.config.consensusCommitteeLivenessActive header.number) = .ok moved)
    (fit : OperationsFit lqc header.number envelope)
    (applied : CanonicalRegistry.applyOperations lqc.crypto lqc.chainID header.number
      lqc.config.proofDifficulty moved (canonicalRegistryOperations envelope.registryOperations) =
        .ok next)
    (root : next.root lqc.crypto = envelope.registryRoot) (clean : next.participant? 0 = none) :
    lqc.verifySyntheticRegistryHeader branch header envelope =
      .ok (if lqc.openActivationForHeader branch header then { ordered := [header.coinbase] }
        else lqc.config.canonicalRoles (registry.orderedParticipantsForBlock lqc.crypto
          header.parentHash header.number lqc.config.registryRules.activationDelay),
        ⟨header.number, header.hash lqc.crypto, next⟩) := by
  obtain ⟨extra, encoded⟩ := encodes_of_fit fit
  obtain ⟨_, read⟩ := registryContent_ok_iff.mpr ⟨fit, encoded, rfl⟩
  have child : lqc.applyRegistryHeaderWithOpenActivation { header with extra } parent
      (lqc.openActivationForHeader branch { header with extra }) =
        .ok ⟨header.number, Header.hash lqc.crypto { header with extra }, next⟩ := by
    unfold applyRegistryHeaderWithOpenActivation RegistrySnapshot.applyHeaderWithOpenActivation
    refine bind_ok_iff.mpr ⟨_, opened, ensure_bind_ok_iff.mpr ⟨follows,
      ensure_bind_ok_iff.mpr ⟨difficulty, bind_ok_iff.mpr ⟨_, read,
        bind_ok_iff.mpr ⟨_, move, bind_ok_iff.mpr ⟨_, applied,
          ensure_bind_ok_iff.mpr ⟨root, rfl⟩⟩⟩⟩⟩⟩⟩
  have reopened : RegistrySnapshot.open lqc.crypto
      ⟨header.number, Header.hash lqc.crypto { header with extra }, next⟩ = .ok next :=
    RegistrySnapshot.open_ok_iff.mpr ⟨⟨nonzero _, by rw [root]; exact fit.root⟩, clean, rfl⟩
  have verified : lqc.verifyCanonicalRegistryHeader branch { header with extra } =
      .ok (if lqc.openActivationForHeader branch header then { ordered := [header.coinbase] }
        else lqc.config.canonicalRoles (registry.orderedParticipantsForBlock lqc.crypto
          header.parentHash header.number lqc.config.registryRules.activationDelay),
        ⟨header.number, Header.hash lqc.crypto { header with extra }, next⟩) := by
    unfold verifyCanonicalRegistryHeader canonicalSelection
    refine bind_ok_iff.mpr ⟨_, parent_eq, bind_ok_iff.mpr ⟨_, bind_ok_iff.mpr ⟨_, opened, rfl⟩,
      bind_ok_iff.mpr ⟨_, child, rfl⟩⟩⟩
  exact bind_ok_iff.mpr ⟨_, encoded, bind_ok_iff.mpr ⟨_, verified, bind_ok_iff.mpr ⟨_, reopened, rfl⟩⟩⟩

theorem verifyRegistryOf_of {registry moved next : CanonicalRegistry}
    (nonzero : ∀ bytes, lqc.crypto.keccak256 bytes ≠ 0)
    (parent_eq : lqc.registryParentSnapshot branch header = .ok parent)
    (step : RegistryStep lqc branch header envelope runtime parent selection registry moved next)
    (clean : next.participant? 0 = none) :
    lqc.verifyRegistryOf branch header envelope runtime parent =
      .ok (selection, ⟨header.number, header.hash lqc.crypto, next⟩) := by
  obtain ⟨follows, opened, turn, fit, applied, root⟩ := step
  unfold verifyRegistryOf
  cases turn with
  | seats closed selects called allowed live =>
    rw [closed, if_neg Bool.false_ne_true]
    refine bind_ok_iff.mpr ⟨_, selects, ?_⟩
    rw [if_pos called]
    exact bind_ok_iff.mpr ⟨_, applyRegistryBySeats_ok_iff.mpr
      ⟨allowed, registry, moved, next, follows, opened, live, fit, applied, root, rfl⟩, rfl⟩
  | queue closed selects idle difficulty turns =>
    have synthetic := verifySyntheticRegistryHeader_of nonzero parent_eq follows opened difficulty
      (by rw [closed]; exact turns) fit applied root clean
    rw [closed, if_neg Bool.false_ne_true] at synthetic ⊢
    refine bind_ok_iff.mpr ⟨_, selects, ?_⟩
    rw [if_neg (not_not.mpr idle)]
    exact synthetic
  | activation opens difficulty activates =>
    have synthetic := verifySyntheticRegistryHeader_of nonzero parent_eq follows opened difficulty
      (by rw [opens]; exact activates) fit applied root clean
    rw [opens, if_pos rfl] at synthetic
    rw [if_pos opens]
    exact synthetic

end LQC

end RabbitLqc
