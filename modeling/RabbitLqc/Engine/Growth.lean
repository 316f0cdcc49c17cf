import RabbitLqc.Engine.Extend
import RabbitLqc.Engine.Sample
import RabbitLqc.Header.Capacity
import RabbitLqc.Header.Versions

/-!
# Growing a branch

A draft whose author has a turn and whose content fits is accepted once it is sealed. A single
identity of the registry can go on alone with empty blocks until the first seats are called.
-/

namespace RabbitLqc
open Lib

variable {lqc : LQC} {branch rest : Branch} {header : Header} {entry parent : Entry}
  {state : CanonicalWorkRuntimeStateV1}

variable {draft : Header} {unixNow signer : Nat} {mark : Bytes} {author : Address} {snapshot : RegistrySnapshot}
  {selection : HybridSelection} {registry moved : CanonicalRegistry} {identities : List CanonicalParticipant}

/-! ### One more header -/

/-- A draft whose author can seal whatever is written into it. -/
structure Signs (lqc : LQC) (parent draft : Header) (unixNow : Nat) (mark : Bytes) : Prop where
  length : mark.length = producerSealLength
  fields : ∀ payload, lqc.verifyFields { draft with extra := payload ++ mark } unixNow parent = .ok ()

theorem Signs.links {parent : Header} (signs : Signs lqc parent draft unixNow mark) : Links lqc parent draft := by
  obtain ⟨number, bounded, hash, later⟩ := verifyFields_links (signs.fields [])
  exact ⟨number, bounded, hash, later⟩

theorem Links.ofNat_ne_zero {parent : Header} (links : Links lqc parent draft) : UInt64.ofNat draft.number ≠ 0 := by
  intro zero
  have value := congrArg UInt64.toNat zero
  rw [toNat_ofNat_of_le links.bounded, links.number] at value
  cases value

/-! ### Drafts -/

/-- The draft of the next header, `spacing` seconds after its parent. -/
def nextDraft (lqc : LQC) (parent : Header) (author : Address) (spacing : Nat) : Header where
  parentHash := parent.hash lqc.crypto
  coinbase := author
  number := parent.number + 1
  time := parent.time + spacing
  extra := []

theorem recoveryOpenAt_mono {config : LqcConfig} {parent : Header} {time later : Nat} (le : time ≤ later)
    (opens : config.recoveryOpenAt parent time = true) : config.recoveryOpenAt parent later = true := by
  unfold LqcConfig.recoveryOpenAt at opens ⊢
  simp only [Bool.and_eq_true, Option.any_eq_true, decide_eq_true_eq] at opens ⊢
  obtain ⟨set, sum, added, reached⟩ := opens
  exact ⟨set, sum, added, reached.trans le⟩

/-- A signature that is good for every hash, on a chain whose execution rules accept everything. -/
structure Seals (lqc : LQC) (author : Address) (mark : Bytes) : Prop where
  chain : lqc.chainID ≠ 0
  executes : ∀ parent header, lqc.executionRules parent header = .ok ()
  signer : author ≠ 0
  shape : signatureShapeOk mark = true
  marked : mark ≠ List.replicate producerSealLength 0
  recovers : ∀ hash, lqc.crypto.recover hash mark = some author

theorem Seals.signs {parent : Header} {spacing : Nat} (seals : Seals lqc author mark)
    (bounded : parent.number < maxUint64) (later : spacing ≠ 0) (early : parent.time + spacing ≤ maxUint64)
    (clock : parent.time + spacing ≤ unixNow) :
    Signs lqc parent (nextDraft lqc parent author spacing) unixNow mark := by
  have length : mark.length = producerSealLength := signatureShapeOk_length seals.shape
  refine ⟨length, fun payload => ?_⟩
  have tolerated : parent.time + spacing ≤ (checkedRegistryBlockAdd [unixNow,
      lqc.config.futureBlockTimeTolerance (parent.number + 1)]).getD maxUint64 := by
    rw [checkedRegistryBlockAdd_eq]
    split
    · simp only [List.sum_cons, List.sum_nil, Option.getD_some]
      omega
    · exact early
  have sealed : verifyProducerSeal lqc.crypto lqc.chainID
      { nextDraft lqc parent author spacing with extra := payload ++ mark } = .ok () := by
    unfold verifyProducerSeal recoverProducerSeal producerSealHash
    simp only [splitProducerSeal_append length, seals.recovers, bind_ok_iff, ensure_ok_iff, exists_unit,
      Except.ok.injEq]
    exact ⟨seals.signer, author, ⟨seals.marked, seals.shape, _, ⟨seals.chain, Nat.succ_ne_zero _, rfl⟩, rfl⟩, rfl⟩
  unfold LQC.verifyFields
  simp only [bind_ok_iff, ensure_ok_iff, exists_unit]
  exact ⟨bounded, rfl, rfl, tolerated, Nat.lt_add_of_pos_right (Nat.pos_of_ne_zero later),
    fun opens => recoveryOpenAt_mono clock opens.2.2, rfl, rfl, rfl, seals.executes _ _, sealed⟩

theorem RegistryTurn.withExtra (extra : Bytes)
    (turn : RegistryTurn lqc branch draft state snapshot registry selection moved) :
    RegistryTurn lqc branch { draft with extra } state snapshot registry selection moved := by
  cases turn with
  | seats closed selects called allowed live => exact .seats closed selects called allowed live
  | queue closed selects idle difficulty turns => exact .queue closed selects idle difficulty turns
  | activation opens difficulty activates => exact .activation opens difficulty activates

/-! ### Tips -/

/-- The newest block of a branch with everything the next one is built on. -/
structure Tip (lqc : LQC) (entry : Entry) (rest : Branch) (state : CanonicalWorkRuntimeStateV1)
    (tickets : List VerifiedRandomXWorkTicketV1) (registry : CanonicalRegistry) : Prop where
  accepted : Accepted lqc (entry :: rest)
  runtime : entry.runtime = .ok state
  scheduled : Scheduled lqc (entry :: rest) tickets state
  registered : entry.registry = .ok ⟨entry.header.number, entry.header.hash lqc.crypto, registry⟩
  clean : registry.participant? 0 = none

/-- A draft moves the registry by a turn of its author and by operations that pass their checks. -/
structure Drafted (lqc : LQC) (branch : Branch) (draft : Header) (state : CanonicalWorkRuntimeStateV1)
    (parent : RegistrySnapshot) (operations : List RegistryOperation) (selection : HybridSelection)
    (next : CanonicalRegistry) : Prop where
  moves : ∃ moved, RegistryTurn lqc branch draft state parent parent.registry selection moved ∧
    CanonicalRegistry.applyOperations lqc.crypto lqc.chainID draft.number lqc.config.proofDifficulty moved
      operations = .ok next
  clean : next.participant? 0 = none
  listed : HeaderOperations operations
  sorted : canonicalRegistryOperations operations = operations
  signed : ∀ operation ∈ operations, validateRegistryOperation lqc.crypto lqc.chainID draft.number
    lqc.config.proofDifficulty operation = .ok ()

theorem Drafted.withExtra {parent : RegistrySnapshot} {operations : List RegistryOperation} {next : CanonicalRegistry}
    (extra : Bytes) (drafted : Drafted lqc branch draft state parent operations selection next) :
    Drafted lqc branch { draft with extra } state parent operations selection next := by
  obtain ⟨moved, turn, applied⟩ := drafted.moves
  exact ⟨⟨moved, turn.withExtra extra, applied⟩, drafted.clean, drafted.listed, drafted.sorted, drafted.signed⟩

theorem Drafted.of_turn {parent : RegistrySnapshot}
    (turn : RegistryTurn lqc branch draft state parent parent.registry selection moved)
    (clean : moved.participant? 0 = none) : Drafted lqc branch draft state parent [] selection moved where
  moves := ⟨moved, turn, rfl⟩
  clean := clean
  listed := ⟨Nat.zero_le _, by simp, List.isChain_nil⟩
  sorted := rfl
  signed := by simp

/-- Tickets of the open epoch that a draft can bring. -/
structure Brought (lqc : LQC) (branch : Branch) (draft : Header) (state : CanonicalWorkRuntimeStateV1)
    (registryRoot : Hash) (signed : List SignedRandomXWorkTicketV1)
    (verified : List VerifiedRandomXWorkTicketV1) : Prop where
  listed : TicketList maxWorkTicketsPerBlockV1 signed
  sorted : sortOn SignedRandomXWorkTicketV1.orderKey signed = signed
  checked : ∀ ctx, lqc.workV1EngineLabContext branch draft state registryRoot = .ok ctx →
    ctx.verifyTickets lqc.crypto signed = .ok verified
  open' : state.openEpoch = 0 → verified = []
  epoch : ∀ item ∈ verified, item.ticket.epoch.toNat = state.openEpoch
  valid : ∀ item ∈ verified, checkVerified item = .ok ()
  seats : SeatSet (state.work.selectionSeats ++ (state.work.commitSeats ++ verified.map (·.seat)))

theorem genesis_tip (nonzero : ∀ bytes, lqc.crypto.keccak256 bytes ≠ 0) (positive : lqc.config.proofDifficulty ≠ 0)
    (chain : lqc.chainID ≠ 0) (first : header.number = 0)
    (boots : lqc.registryBelowActivation header = .ok ⟨0, header.hash lqc.crypto, registry⟩)
    (clean : registry.participant? 0 = none) : ∃ state, Tip lqc (lqc.genesisEntry header) [] state [] registry := by
  let work : WorkChainSnapshotV1 := ⟨0, header.hash lqc.crypto, workProtocolEpochLengthV1, none, none⟩
  let difficulty : WorkDifficultyStateV1 := ⟨1, lqc.config.proofDifficulty, 2, lqc.config.proofDifficulty⟩
  have fields : lqc.chainID ≠ 0 ∧ header.hash lqc.crypto ≠ 0 ∧ workProtocolEpochLengthV1 ≠ 0 :=
    ⟨chain, nonzero _, by decide⟩
  have workValid : work.Valid lqc.crypto lqc.chainID := ⟨fields, rfl, rfl⟩
  have difficultyValid : difficulty.Valid := ⟨⟨rfl, positive⟩, ⟨Nat.succ_ne_zero 1, Nat.mod_self 2, positive⟩⟩
  obtain ⟨_, workRooted⟩ := WorkChainSnapshotV1.exists_root_iff.mpr workValid
  obtain ⟨_, difficultyRooted⟩ := workDifficultyStateRootV1_ok_iff.mpr ⟨chain, difficultyValid⟩
  have valid : CanonicalWorkRuntimeStateV1.Valid lqc.crypto lqc.chainID ⟨work, difficulty⟩ :=
    ⟨workValid, difficultyValid⟩
  obtain ⟨_, rooted⟩ := (CanonicalWorkRuntimeStateV1.exists_root_iff nonzero).mpr valid
  have start : newCanonicalWorkRuntimeStateV1 lqc.crypto lqc.chainID 0 (header.hash lqc.crypto)
      workProtocolEpochLengthV1 lqc.config.proofDifficulty = .ok ⟨work, difficulty⟩ := by
    unfold newCanonicalWorkRuntimeStateV1 newWorkChainSnapshotV1 newWorkDifficultyStateV1
    simp only [bind_ok_iff, ensure_ok_iff, exists_unit, Except.ok.injEq]
    exact ⟨work, ⟨fields, _, workRooted, rfl⟩, difficulty, ⟨⟨chain, positive⟩, _, difficultyRooted, rfl⟩, _,
      rooted, rfl⟩
  obtain ⟨schedule, _⟩ := CanonicalWorkRuntimeStateV1.start_onSchedule start
  have made : lqc.genesisRuntime header = .ok ⟨work, difficulty⟩ :=
    ensure_bind_ok_iff.mpr ⟨positive, start⟩
  have registered : (lqc.genesisEntry header).registry =
      .ok ⟨header.number, header.hash lqc.crypto, registry⟩ := by
    rw [first]
    exact boots
  have anchored : ∀ commit, work.commit = some commit → ∃ entry ∈ [lqc.genesisEntry header],
      entry.header.number = challengeNumber commit.epoch ∧ commit.anchor = entry.header.hash lqc.crypto := by
    intro commit none
    cases none
  exact ⟨⟨work, difficulty⟩, .genesis header first, made,
    ⟨schedule, ⟨List.Perm.nil, List.nodup_nil⟩, anchored⟩, registered, clean⟩

/-! ### A single identity -/

theorem workSelectionForHeader_early (had : RuntimeAt lqc parent state)
    (number : header.number = parent.header.number + 1)
    (young : parent.header.number < 2 * workProtocolEpochLengthV1) (snapshot : RegistrySnapshot) :
    lqc.workSelectionForHeader branch header state snapshot =
      inactiveFallback lqc.crypto lqc.config snapshot header := by
  have started : ensure (header.number ≠ 0) LqcError.workV1EngineLabSelectionUnavailable = .ok () := by
    rw [number]
    exact ensure_ok_iff.mpr (Nat.succ_ne_zero _)
  have none : workSelectionSourceEpochV1 header.number state.work.epochLength = .ok none := by
    rw [number, workSelectionSourceEpochV1_succ had.valid.work.fields.2.2, had.length,
      if_pos (Nat.div_lt_of_lt_mul (by rwa [Nat.mul_comm]))]
  unfold LQC.workSelectionForHeader workV1EngineLabSelectionForHeader
  rw [started, none]
  rfl

theorem activationSelection_few (opened : snapshot.open lqc.crypto = .ok registry)
    (only : registry.participants.filter CanonicalParticipant.isActivationIdentity = identities)
    (few : identities.length ≤ 1) (fallbackCount : Nat) :
    workV1EngineLabActivationSelection lqc.crypto snapshot header fallbackCount =
      .ok { ordered := identities.map (·.address) } := by
  have order : deterministicallyOrderParticipants lqc.crypto header.parentHash header.number
      (identities.map (·.address)) = identities.map (·.address) := by
    apply sortOn_of_sorted
    rcases identities with _ | ⟨first, _ | ⟨second, more⟩⟩
    · exact List.Pairwise.nil
    · exact List.pairwise_singleton _ _
    · simp at few
  unfold workV1EngineLabActivationSelection
  refine bind_ok_iff.mpr ⟨_, opened, ?_⟩
  dsimp only
  rw [only, order, List.take_of_length_le (by rw [List.length_map]; omega),
    List.drop_of_length_le (by rwa [List.length_map])]

theorem inactiveFallback_few (opened : snapshot.open lqc.crypto = .ok registry)
    (only : registry.participants.filter CanonicalParticipant.isActivationIdentity = identities)
    (few : identities.length ≤ 1) :
    inactiveFallback lqc.crypto lqc.config snapshot header =
      .ok ({ ordered := identities.map (·.address) }, false) := by
  have alone := @activationSelection_few lqc header _ _ _ opened only few
  unfold inactiveFallback workV1EngineLabActivationFallbackAt workV1EngineLabActivationFallback
  rw [alone, alone, ite_self]
  rfl

theorem isAuthorAllowedAt_single (config : LqcConfig) (block : Nat) (author : Address) :
    config.isAuthorAllowedAt block { ordered := [author] } author = some 0 := by
  have open' : HybridSelection.isAuthorAllowed { ordered := [author] } author = some 0 := by
    simp [HybridSelection.isAuthorAllowed]
  have bounded : HybridSelection.isAuthorAllowedBounded { ordered := [author] } author = some 0 := by
    simp [HybridSelection.isAuthorAllowedBounded, HybridSelection.producer?]
  unfold LqcConfig.isAuthorAllowedAt
  rw [open', bounded]
  simp only [ite_self]

theorem verifyTurn_of {queuePos : Nat} {parent : Header} (called : selection.ordered ≠ [])
    (allowed : lqc.config.isAuthorAllowedAt header.number selection header.coinbase = some queuePos)
    (clock : header.time ≤ unixNow) (bounded : header.time ≤ maxUint64)
    (due : parent.time + (lqc.config.targetBlockSeconds + queuePos * lqc.config.fallbackWindowSeconds) ≤
        header.time) : lqc.verifyTurn header unixNow parent selection = .ok () := by
  have minTime : lqc.config.minAllowedTimeChecked parent.time queuePos =
      .ok (parent.time + (lqc.config.targetBlockSeconds + queuePos * lqc.config.fallbackWindowSeconds)) := by
    rw [minAllowedTimeChecked_eq, Nat.add_assoc, if_pos (due.trans bounded)]
  unfold LQC.verifyTurn
  rw [if_neg called, allowed]
  simp only [bind_ok_iff, ensure_ok_iff, exists_unit]
  exact ⟨_, minTime, fun _ => due.trans clock, due⟩

theorem verifyTurn_single {parent : Header} (clock : header.time ≤ unixNow) (bounded : header.time ≤ maxUint64)
    (due : parent.time + lqc.config.targetBlockSeconds ≤ header.time) :
    lqc.verifyTurn header unixNow parent (LQC.turnSelection header { ordered := [header.coinbase] }) =
      .ok () := by
  unfold LQC.turnSelection
  rw [ite_self]
  exact verifyTurn_of (List.cons_ne_nil _ _) (isAuthorAllowedAt_single _ _ _) clock bounded
    (by rwa [Nat.zero_mul, Nat.add_zero])

section Growth

variable {draft : Header} {unixNow : Nat} {mark : Bytes} {registry next : CanonicalRegistry}
  {operations : List RegistryOperation} {selection : HybridSelection}
  {signed : List SignedRandomXWorkTicketV1} {tickets verified : List VerifiedRandomXWorkTicketV1}
  {envelope : WorkEnvelope} {ctx : LQCHeaderWorkRuntimeContextV1} {ledger : Option CommitteeClaimLedgerV1}
  (nonzero : ∀ bytes, lqc.crypto.keccak256 bytes ≠ 0) (positive : lqc.config.proofDifficulty ≠ 0)
  (tip : Tip lqc parent rest state tickets registry)

variable {root : Hash} {spacing : Nat} {identity : CanonicalParticipant}

include nonzero positive tip

theorem Tip.accepts (fields : lqc.verifyFields header unixNow parent.header = .ok ())
    (enabled : lqc.config.registryProtocolEnabled header.number = true)
    (decoded : lqc.decodeWorkEnvelope header = .ok (some envelope))
    (drafted : Drafted lqc (parent :: rest) header state
      ⟨parent.header.number, parent.header.hash lqc.crypto, registry⟩ envelope.base.registryOperations
      selection next)
    (number : envelope.base.blockNumber = UInt64.ofNat header.number)
    (root : envelope.base.registryRoot = next.root lqc.crypto)
    (made : lqc.workV1EngineLabContext (parent :: rest) header state envelope.base.registryRoot = .ok ctx)
    (expected : ctx.expectedWork lqc.crypto envelope.base.workTickets = .ok envelope.base.workStateRoot)
    (checked : ctx.verifyTickets lqc.crypto envelope.base.workTickets = .ok verified)
    (claims : ClaimsAccepted lqc (parent :: rest) header ctx ledger envelope)
    (turn : lqc.verifyTurn header unixNow parent.header (LQC.turnSelection header selection) = .ok ()) :
    ∃ step : WorkStep lqc (parent :: rest) header envelope,
      lqc.verifyHeaderAt (parent :: rest) header unixNow = .ok step.entry ∧ step.runtime = state ∧
        step.selection = selection ∧ step.ctx = ctx ∧ step.ledger = ledger ∧
        Tip lqc step.entry (parent :: rest) step.next (tickets ++ verified) next := by
  have links := verifyFields_links fields
  have rootNonzero : next.root lqc.crypto ≠ 0 := nonzero _
  obtain ⟨moved, turns, applied⟩ := drafted.moves
  have moves : RegistryStep lqc (parent :: rest) header envelope.base state
      ⟨parent.header.number, parent.header.hash lqc.crypto, registry⟩ selection registry moved next := by
    refine ⟨⟨?_, links.number, links.hash⟩, ?_, turns, ⟨?_, ?_, ?_, ?_⟩, ?_, root.symm⟩
    · have := links.number
      have := links.bounded
      dsimp only
      omega
    · exact RegistrySnapshot.open_ok_iff.mpr ⟨⟨nonzero _, nonzero _⟩, tip.clean, rfl⟩
    · rw [root]
      exact rootNonzero
    · rw [number, toNat_ofNat_of_le links.bounded]
    · rw [drafted.sorted]
      exact drafted.listed
    · rw [drafted.sorted]
      exact drafted.signed
    · rw [drafted.sorted]
      exact applied
  have parentRegistry : lqc.registryParentSnapshot (parent :: rest) header =
      .ok ⟨parent.header.number, parent.header.hash lqc.crypto, registry⟩ := by
    unfold LQC.registryParentSnapshot
    rw [enabled]
    exact tip.registered
  let proposal : Proposal lqc (parent :: rest) header envelope :=
    ⟨state, _, selection, registry, moved, next, ctx, ledger, tip.runtime, parentRegistry, moves,
      drafted.clean, made, expected, claims⟩
  obtain ⟨step, verifies, runtime, _, selected, snapshot, context, kept⟩ :=
    proposal.accepts nonzero links.bounded decoded fields enabled turn
  have moved := step.scheduled nonzero positive tip.accepted links decoded
    (by rw [context]; exact checked) (by rw [runtime]; exact tip.scheduled)
  refine ⟨step, verifies, runtime, selected, context, kept,
    ⟨.extend tip.accepted verifies, rfl, moved, congrArg Except.ok snapshot, drafted.clean⟩⟩

theorem Tip.exists_work (links : Links lqc parent.header draft)
    (brought : Brought lqc (parent :: rest) draft state root signed verified) :
    ∃ ctx workRoot, lqc.workV1EngineLabContext (parent :: rest) draft state root = .ok ctx ∧
      ctx.expectedWork lqc.crypto signed = .ok workRoot ∧ workRoot ≠ 0 := by
  have had := (tip.accepted.runtimes tip.runtime).1
  obtain ⟨ctx, made⟩ : ∃ ctx, lqc.workV1EngineLabContext (parent :: rest) draft state root = .ok ctx := by
    rcases workV1EngineLabContext_cases tip.accepted had links.number links.bounded root with
      ⟨_, made⟩ | ⟨_, _, _, _, _, _, _, made⟩
    · exact ⟨_, made⟩
    · exact ⟨_, made⟩
  obtain ⟨workRoot, expected, nonzeroRoot⟩ := tip.scheduled.expectedWork nonzero tip.accepted had links.number
    links.bounded made positive (brought.checked ctx made) brought.open' brought.epoch brought.valid
    brought.seats
  exact ⟨ctx, workRoot, made, expected, nonzeroRoot⟩

theorem Tip.extend_v3 (signs : Signs lqc parent.header draft unixNow mark)
    (enabled : lqc.config.registryProtocolEnabled draft.number = true)
    (early : lqc.config.consensusLivenessV3Active draft.number = false)
    (drafted : Drafted lqc (parent :: rest) draft state
      ⟨parent.header.number, parent.header.hash lqc.crypto, registry⟩ operations selection next)
    (brought : Brought lqc (parent :: rest) draft state (next.root lqc.crypto) signed verified)
    (turn : lqc.verifyTurn draft unixNow parent.header (LQC.turnSelection draft selection) = .ok ()) :
    ∃ extra envelope, lqc.decodeWorkEnvelope { draft with extra } = .ok (some (.v3 envelope)) ∧
      envelope.registryOperations = operations ∧ envelope.workTickets = signed ∧
      ∃ step : WorkStep lqc (parent :: rest) { draft with extra } (.v3 envelope),
        lqc.verifyHeaderAt (parent :: rest) { draft with extra } unixNow = .ok step.entry ∧
          step.selection = selection ∧ step.ledger = none ∧
          Tip lqc step.entry (parent :: rest) step.next (tickets ++ verified) next := by
  have links := signs.links
  obtain ⟨ctx, workRoot, made, expected, workNonzero⟩ :=
    tip.exists_work nonzero positive links brought
  let envelope : LQCHeaderEnvelopeV3 :=
    ⟨3, UInt64.ofNat draft.number, next.root lqc.crypto, workRoot, operations, signed⟩
  have valid : envelope.Valid maxWorkTicketsPerBlockV1 :=
    ⟨rfl, ⟨links.ofNat_ne_zero, nonzero _, workNonzero⟩,
      ⟨drafted.listed, drafted.sorted, brought.listed, brought.sorted⟩,
      framedSize_V3_le drafted.listed brought.listed⟩
  have decoded : lqc.decodeWorkEnvelope { draft with extra := framedPayload envelope ++ mark } =
      .ok (some (.v3 envelope)) :=
    LQC.decodeWorkEnvelope_v3_iff.mpr ⟨early, (decodeLQCHeaderExtraV3_ok_iff (by decide)).mpr
      ⟨valid, mark, signs.length, rfl⟩⟩
  obtain ⟨step, verifies, _, selected, _, kept, tip'⟩ := tip.accepts nonzero positive (signs.fields _) enabled
    decoded (drafted.withExtra _) rfl rfl made expected (brought.checked ctx made) rfl turn
  exact ⟨_, envelope, decoded, rfl, rfl, step, verifies, selected, kept, tip'⟩

theorem Tip.extend_v4 (signs : Signs lqc parent.header draft unixNow mark)
    (enabled : lqc.config.registryProtocolEnabled draft.number = true)
    (active : lqc.config.consensusLivenessV3Active draft.number = true)
    (noVrf : lqc.config.isRabbitVRF draft.number = false)
    (drafted : Drafted lqc (parent :: rest) draft state
      ⟨parent.header.number, parent.header.hash lqc.crypto, registry⟩ operations selection next)
    (few : operations.length ≤ maxRegistryOperationsWithCommitteeClaimsV1)
    (brought : Brought lqc (parent :: rest) draft state (next.root lqc.crypto) signed verified)
    {claims : List CommitteeParticipationClaimGroupV1} {claimRoot : Hash} (claimRooted : claimRoot ≠ 0)
    (listedClaims : ListedClaims (UInt64.ofNat draft.number) operations claims)
    (claimed : ∀ ctx, lqc.workV1EngineLabContext (parent :: rest) draft state (next.root lqc.crypto) = .ok ctx →
      LQC.ClaimStep lqc (parent :: rest) draft ctx claims claimRoot ledger)
    (turn : lqc.verifyTurn draft unixNow parent.header (LQC.turnSelection draft selection) = .ok ()) :
    ∃ extra envelope, lqc.decodeWorkEnvelope { draft with extra } = .ok (some (.v4 envelope)) ∧
      envelope.registryOperations = operations ∧ envelope.workTickets = signed ∧
      envelope.committeeParticipationClaims = claims ∧
      ∃ step : WorkStep lqc (parent :: rest) { draft with extra } (.v4 envelope),
        lqc.verifyHeaderAt (parent :: rest) { draft with extra } unixNow = .ok step.entry ∧
          step.selection = selection ∧ step.ledger = ledger ∧
          Tip lqc step.entry (parent :: rest) step.next (tickets ++ verified) next := by
  have links := signs.links
  obtain ⟨ctx, workRoot, made, expected, workNonzero⟩ :=
    tip.exists_work nonzero positive links brought
  let envelope : LQCHeaderEnvelopeV4 :=
    ⟨4, UInt64.ofNat draft.number, next.root lqc.crypto, workRoot, claimRoot, operations, signed, claims⟩
  have valid : envelope.Valid maxWorkTicketsPerBlockV1 :=
    ⟨rfl, ⟨links.ofNat_ne_zero, nonzero _, workNonzero, claimRooted⟩,
      ⟨drafted.listed, drafted.sorted, brought.listed, brought.sorted⟩, listedClaims,
      framedSize_V4_le drafted.listed.each few brought.listed listedClaims.groups⟩
  have decoded : lqc.decodeWorkEnvelope { draft with extra := framedPayload envelope ++ mark } =
      .ok (some (.v4 envelope)) :=
    LQC.decodeWorkEnvelope_v4_iff.mpr ⟨active, noVrf, (decodeLQCHeaderExtraV4_ok_iff (by decide)).mpr
      ⟨valid, mark, signs.length, rfl⟩⟩
  obtain ⟨step, verifies, _, selected, _, kept, tip'⟩ := tip.accepts nonzero positive (signs.fields _) enabled
    decoded (drafted.withExtra _) rfl rfl made expected (brought.checked ctx made) (claimed ctx made) turn
  exact ⟨_, envelope, decoded, rfl, rfl, rfl, step, verifies, selected, kept, tip'⟩

omit positive tip in
theorem Brought.claimed_nil (links : Links lqc parent.header draft)
    (brought : Brought lqc (parent :: rest) draft state root signed verified)
    (fork : draft.number = lqc.config.consensusLivenessV3Block) (late : 1 < draft.number) :
    ∃ claimRoot, claimRoot ≠ 0 ∧
      ∀ ctx, lqc.workV1EngineLabContext (parent :: rest) draft state root = .ok ctx →
        LQC.ClaimStep lqc (parent :: rest) draft ctx [] claimRoot (some newCommitteeClaimLedgerV1) := by
  obtain ⟨bytes, rooted⟩ : ∃ bytes, newCommitteeClaimLedgerV1.root lqc.crypto =
      .ok (lqc.crypto.keccak256 bytes) := ⟨_, rfl⟩
  refine ⟨_, nonzero bytes, fun ctx made => ?_⟩
  obtain ⟨_, valid, _⟩ := bind_ok (brought.checked ctx made)
  have later : 1 < ctx.blockNumber.toNat := by
    rw [(workV1EngineLabContext_ok made).2.2.1, toNat_ofNat_of_le links.bounded]
    exact late
  have canonical : canonicalCommitteeParticipationClaimGroupsV1 ctx.blockNumber.toNat [] = .ok [] :=
    canonicalClaimGroups_ok_iff.mpr ⟨⟨later, by simp, List.nodup_nil, by decide⟩, rfl⟩
  have applied : newCommitteeClaimLedgerV1.apply ctx.blockNumber.toNat [] = .ok newCommitteeClaimLedgerV1 := by
    have marked : newCommitteeClaimLedgerV1.applyUnchecked ctx.blockNumber.toNat [] =
        .ok newCommitteeClaimLedgerV1 :=
      bind_ok_iff.mpr ⟨(), rfl, bind_ok_iff.mpr ⟨_, canonical, bind_ok_iff.mpr ⟨[], rfl, rfl⟩⟩⟩
    exact bind_ok_iff.mpr ⟨_, marked, rfl⟩
  have started : lqc.workV1EngineLabParentClaimLedger (parent :: rest) draft.number =
      .ok newCommitteeClaimLedgerV1 := by
    unfold LQC.workV1EngineLabParentClaimLedger
    rw [if_pos fork]
    exact ensure_bind_ok_iff.mpr ⟨(decide_eq_true ⟨by omega, fork.ge⟩), rfl⟩
  refine ⟨_, _, [], started, ⟨?_, rooted⟩, rfl⟩
  exact bind_ok_iff.mpr ⟨(), bind_ok_iff.mpr ⟨(), valid, rfl⟩, bind_ok_iff.mpr ⟨(),
    bind_ok_iff.mpr ⟨_, canonical, ensure_ok_iff.mpr rfl⟩, bind_ok_iff.mpr ⟨_, applied,
      bind_ok_iff.mpr ⟨[], rfl, rfl⟩⟩⟩⟩

omit nonzero positive in
theorem Tip.held (empty : tickets = []) : SeatSet (state.work.selectionSeats ++ state.work.commitSeats) := by
  obtain ⟨closed, open'⟩ := tip.scheduled.seats empty
  rw [closed, open']
  exact ⟨by simp, List.nodup_nil, List.nodup_nil⟩

theorem Tip.brought_nil (links : Links lqc parent.header draft) (rooted : root ≠ 0)
    (seats : SeatSet (state.work.selectionSeats ++ state.work.commitSeats)) :
    Brought lqc (parent :: rest) draft state root [] [] where
  listed := ⟨Nat.zero_le _, by simp, List.nodup_nil⟩
  sorted := rfl
  checked ctx made := tip.scheduled.verifyTickets_nil nonzero tip.accepted
    (tip.accepted.runtimes tip.runtime).1 links.number links.bounded made positive rooted
  open' _ := rfl
  epoch := by simp
  valid := by simp
  seats := by rwa [List.map_nil, List.append_nil]

omit nonzero positive in
theorem Tip.turn_called (calls : inactiveFallback lqc.crypto lqc.config
        ⟨parent.header.number, parent.header.hash lqc.crypto, registry⟩ (nextDraft lqc parent.header author spacing) =
        .ok ({ ordered := [author] }, false))
    (live : lqc.config.workV1EngineLabApplySeatLiveness registry (parent.header.number + 1)
        { ordered := [author] } author = .ok moved)
    (closed : lqc.openActivationForHeader (parent :: rest) (nextDraft lqc parent.header author spacing) = false)
    (young : parent.header.number < 2 * workProtocolEpochLengthV1) :
    RegistryTurn lqc (parent :: rest) (nextDraft lqc parent.header author spacing) state
      ⟨parent.header.number, parent.header.hash lqc.crypto, registry⟩ registry { ordered := [author] }
      moved := by
  have selects : lqc.workSelectionForHeader (parent :: rest) (nextDraft lqc parent.header author spacing) state
      ⟨parent.header.number, parent.header.hash lqc.crypto, registry⟩ = .ok ({ ordered := [author] }, false) := by
    rw [workSelectionForHeader_early (tip.accepted.runtimes tip.runtime).1 rfl young, calls]
  exact .seats closed selects (List.cons_ne_nil _ _)
    (show lqc.config.isAuthorAllowedAt (parent.header.number + 1) { ordered := [author] } author ≠ none by
      rw [isAuthorAllowedAt_single]
      exact Option.some_ne_none _) live

omit positive in
theorem Tip.turn_alone (live : lqc.config.workV1EngineLabApplySeatLiveness registry (parent.header.number + 1)
        { ordered := [author] } author = .ok moved)
    (closed : lqc.openActivationForHeader (parent :: rest) (nextDraft lqc parent.header author spacing) = false)
    (young : parent.header.number < 2 * workProtocolEpochLengthV1)
    (only : registry.participants.filter CanonicalParticipant.isActivationIdentity = [identity])
    (named : identity.address = author) :
    RegistryTurn lqc (parent :: rest) (nextDraft lqc parent.header author spacing) state
      ⟨parent.header.number, parent.header.hash lqc.crypto, registry⟩ registry { ordered := [author] }
      moved := by
  have opened : RegistrySnapshot.open lqc.crypto
      ⟨parent.header.number, parent.header.hash lqc.crypto, registry⟩ = .ok registry :=
    RegistrySnapshot.open_ok_iff.mpr ⟨⟨nonzero _, nonzero _⟩, tip.clean, rfl⟩
  refine tip.turn_called ?_ live closed young
  rw [inactiveFallback_few opened only le_rfl, List.map_singleton, named]

omit positive in
theorem Tip.turn_single (soft : forkActive lqc.config.consensusHardeningBlock (parent.header.number + 1) = false)
    (closed : lqc.openActivationForHeader (parent :: rest) (nextDraft lqc parent.header author spacing) = false)
    (young : parent.header.number < 2 * workProtocolEpochLengthV1)
    (only : registry.participants.filter CanonicalParticipant.isActivationIdentity = [identity])
    (named : identity.address = author) :
    RegistryTurn lqc (parent :: rest) (nextDraft lqc parent.header author spacing) state
      ⟨parent.header.number, parent.header.hash lqc.crypto, registry⟩ registry { ordered := [author] }
      registry := by
  have unmoved : lqc.config.workV1EngineLabApplySeatLiveness registry (parent.header.number + 1)
      { ordered := [author] } author = .ok registry := by
    unfold LqcConfig.workV1EngineLabApplySeatLiveness
    rw [soft]
    rfl
  exact tip.turn_alone nonzero unmoved closed young only named

end Growth

/-! ### Idle stretches -/

section Idle

variable {author : Address} {mark : Bytes} {spacing : Nat} {registry : CanonicalRegistry}
  {identity : CanonicalParticipant} (nonzero : ∀ bytes, lqc.crypto.keccak256 bytes ≠ 0)
  (positive : lqc.config.proofDifficulty ≠ 0) (seals : Seals lqc author mark)
  (due : lqc.config.targetBlockSeconds ≤ spacing)
  (calm : lqc.config.recoveryTimeoutSeconds = 0 ∨ spacing < lqc.config.recoveryTimeoutSeconds)

theorem secondsOr_ne_zero {default milliseconds : Nat} (set : default ≠ 0) :
    secondsOr default milliseconds ≠ 0 := by
  unfold secondsOr
  split
  · exact set
  · omega

include calm in
theorem nextDraft_closed {parent : Entry} (started : parent.header.number ≠ 0) :
    lqc.openActivationForHeader (parent :: rest) (nextDraft lqc parent.header author spacing) = false := by
  have quiet : lqc.config.recoveryOpenAt parent.header (parent.header.time + spacing) = false := by
    refine Bool.eq_false_iff.mpr fun opens => ?_
    unfold LqcConfig.recoveryOpenAt at opens
    simp only [Bool.and_eq_true, decide_eq_true_eq, Option.any_eq_true, checkedRegistryBlockAdd_eq_some,
      List.sum_cons, List.sum_nil, Nat.add_zero] at opens
    obtain ⟨⟨set, _⟩, _, ⟨_, rfl⟩, reached⟩ := opens
    omega
  unfold LQC.openActivationForHeader
  have above : parent.header.number + 1 ≠ 1 := by omega
  simp only [nextDraft, Nat.succ_ne_zero, if_false, above, List.head?_cons, Option.any_some, quiet, ite_self]

include nonzero positive seals due

theorem Tip.extend_single {tickets : List VerifiedRandomXWorkTicketV1} {operations : List RegistryOperation}
    {next : CanonicalRegistry} (tip : Tip lqc parent rest state tickets registry)
    (room : parent.header.number < maxUint64) (fits : parent.header.time + spacing ≤ maxUint64)
    (enabled : lqc.config.registryProtocolEnabled (parent.header.number + 1) = true)
    (early : lqc.config.consensusLivenessV3Active (parent.header.number + 1) = false)
    (drafted : Drafted lqc (parent :: rest) (nextDraft lqc parent.header author spacing) state
      ⟨parent.header.number, parent.header.hash lqc.crypto, registry⟩ operations { ordered := [author] } next)
    (seats : SeatSet (state.work.selectionSeats ++ state.work.commitSeats)) :
    ∃ extra entry state', entry.header = { nextDraft lqc parent.header author spacing with extra } ∧
      lqc.verifyHeaderAt (parent :: rest) entry.header (parent.header.time + spacing) = .ok entry ∧
      Tip lqc entry (parent :: rest) state' tickets next ∧
      ∃ envelope, lqc.decodeWorkEnvelope entry.header = .ok (some (.v3 envelope)) ∧
        envelope.registryOperations = operations := by
  have pace : spacing ≠ 0 := by
    have : lqc.config.targetBlockSeconds ≠ 0 := secondsOr_ne_zero (by decide)
    omega
  have signs : Signs lqc parent.header (nextDraft lqc parent.header author spacing)
      (parent.header.time + spacing) mark := seals.signs room pace fits le_rfl
  obtain ⟨extra, envelope, decoded, carried, _, step, verifies, _, _, grown⟩ := tip.extend_v3 nonzero positive
    signs enabled early drafted (tip.brought_nil nonzero positive signs.links (nonzero _) seats)
    (verifyTurn_single le_rfl fits (Nat.add_le_add_left due _))
  rw [List.append_nil] at grown
  exact ⟨extra, step.entry, step.next, rfl, verifies, grown, envelope, decoded, carried⟩

theorem exists_opened (first : header.number = 0) (fits : header.time + spacing ≤ maxUint64)
    (starts : lqc.config.registryProtocolBlock = 1) (nobody : lqc.config.bootstrapParticipants = [])
    (early : lqc.config.consensusLivenessV3Active 1 = false)
    (unstabilized : lqc.config.isConsensusStabilizationBlock 1 = false)
    (unfair : lqc.config.isConsensusFairnessBlock 1 = false)
    (fresh : lqc.config.consensusCommitteeLivenessActive 1 = false) :
    ∃ entry state, entry.header.number = 1 ∧ entry.header.time = header.time + spacing ∧
      Tip lqc entry [lqc.genesisEntry header] state [] (openedRegistry author) ∧
      ∃ envelope, lqc.decodeWorkEnvelope entry.header = .ok (some envelope) := by
  have boots : lqc.registryBelowActivation header = .ok ⟨0, header.hash lqc.crypto, KeyedList.empty⟩ := by
    unfold LQC.registryBelowActivation
    rw [starts, if_neg Nat.one_ne_zero, first, if_pos rfl, nobody]
    exact ensure_bind_ok_iff.mpr ⟨(nonzero _), rfl⟩
  obtain ⟨state, genesis⟩ := genesis_tip nonzero positive seals.chain first boots rfl
  have opens : lqc.openActivationForHeader [lqc.genesisEntry header] (nextDraft lqc header author spacing) = true := by
    unfold LQC.openActivationForHeader nextDraft
    simp [first, unstabilized, unfair, nobody]
  have activates : CanonicalRegistry.openActivation KeyedList.empty
      (lqc.config.consensusCommitteeLivenessActive (header.number + 1)) author (header.number + 1) =
        .ok (openedRegistry author) := by
    have known : ensure (author ≠ 0) LqcError.unauthorizedRegistryProducer = .ok () :=
      ensure_ok_iff.mpr seals.signer
    have named : ensure (author ≠ 0) LqcError.invalidRegistryAddress = .ok () := ensure_ok_iff.mpr seals.signer
    rw [first, fresh]
    exact bind_ok_iff.mpr ⟨(), known, bind_ok_iff.mpr ⟨(), named, rfl⟩⟩
  have turn : RegistryTurn lqc [lqc.genesisEntry header] (nextDraft lqc header author spacing) state
      ⟨header.number, header.hash lqc.crypto, KeyedList.empty⟩ KeyedList.empty { ordered := [author] }
      (openedRegistry author) := .activation opens positive activates
  have clean : (openedRegistry author).participant? 0 = none := by
    unfold openedRegistry
    rw [CanonicalRegistry.participant?_put, if_neg seals.signer.symm]
    rfl
  have enabled : lqc.config.registryProtocolEnabled (header.number + 1) = true := by
    unfold LqcConfig.registryProtocolEnabled
    rw [starts, first]
    rfl
  obtain ⟨_, entry, state', written, _, tip, _, decoded, _⟩ := genesis.extend_single nonzero positive seals due
    (show header.number < maxUint64 by rw [first]; decide) fits enabled
    (show lqc.config.consensusLivenessV3Active (header.number + 1) = false by rw [first]; exact early)
    (.of_turn turn clean) (genesis.held rfl)
  refine ⟨entry, state', ?_, congrArg Header.time written, tip, _, decoded⟩
  rw [written]
  exact congrArg (· + 1) first

include calm

theorem Tip.idles (tip : Tip lqc parent rest state [] registry) (started : parent.header.number ≠ 0)
    (only : registry.participants.filter CanonicalParticipant.isActivationIdentity = [identity])
    (named : identity.address = author) (count : Nat)
    (young : parent.header.number + count ≤ 2 * workProtocolEpochLengthV1)
    (rules : ∀ number, parent.header.number < number → number ≤ parent.header.number + count →
      lqc.config.registryProtocolEnabled number = true ∧
        lqc.config.consensusLivenessV3Active number = false ∧
        forkActive lqc.config.consensusHardeningBlock number = false)
    (early : parent.header.time + count * spacing ≤ maxUint64) :
    ∃ entry below newer state', Tip lqc entry below state' [] registry ∧
      entry :: below = newer ++ parent :: rest ∧ entry.header.number = parent.header.number + count ∧
      entry.header.time = parent.header.time + count * spacing := by
  induction count with
  | zero => exact ⟨parent, rest, [], state, tip, rfl, rfl, by rw [Nat.zero_mul, Nat.add_zero]⟩
  | succ count ih =>
    rw [Nat.succ_mul] at early
    obtain ⟨entry, below, newer, state', grown, longer, number, time⟩ := ih (by omega)
      (fun number above below => rules number above (by omega)) (by omega)
    obtain ⟨enabled, unlisted, soft⟩ := rules (entry.header.number + 1) (by omega) (by omega)
    have room : entry.header.number < maxUint64 := by
      unfold workProtocolEpochLengthV1 at young
      unfold maxUint64
      omega
    have turn := grown.turn_single nonzero soft (nextDraft_closed calm (by omega)) (by omega) only named
    obtain ⟨extra, next, _, written, _, longer', _⟩ := grown.extend_single nonzero positive seals due room
      (by omega) enabled unlisted (.of_turn turn grown.clean) (grown.held rfl)
    refine ⟨next, entry :: below, next :: newer, _, longer', congrArg _ longer, ?_, ?_⟩
    · rw [written]
      show entry.header.number + 1 = _
      rw [number, Nat.add_assoc]
    · rw [written]
      show entry.header.time + spacing = _
      rw [time, Nat.succ_mul, Nat.add_assoc]

end Idle

/-! ### Signers of the network to evaluate -/

theorem nonceCrypto_recover (small : signer < 2 ^ 160) (hash : Hash) :
    nonceCrypto.recover hash (plainSignature signer) = some (BitVec.ofNat 160 signer) := by
  show some (BitVec.ofNat 160 (natOfBytes ((plainSignature signer).take 32))) = _
  rw [plainSignature_take signer small, natOfBytes_fixedBytes]

theorem plainLqc_seals (config : LqcConfig) (signs : signer ≠ 0) (small : signer < 2 ^ 160) :
    Seals (plainLqc config) (BitVec.ofNat 160 signer) (plainSignature signer) where
  chain := Nat.one_ne_zero
  executes _ _ := rfl
  signer := by
    intro zero
    have value := congrArg BitVec.toNat zero
    rw [BitVec.toNat_ofNat, Nat.mod_eq_of_lt small] at value
    exact signs value
  shape := plainSignature_shape signs small
  marked := by
    intro zeros
    have value := congrArg (fun bytes => natOfBytes (bytes.take 32)) zeros
    simp only [plainSignature_take signer small, natOfBytes_fixedBytes] at value
    exact signs (value.trans (by decide))
  recovers := nonceCrypto_recover small

end RabbitLqc
