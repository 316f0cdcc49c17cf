import RabbitLqc.Engine.Verify
import RabbitLqc.Header.Build
import RabbitLqc.Registry.Packing
import RabbitLqc.Registry.PoolIndexes

/-!
# Preparing a header

A producer first moves the registry of the parent past the turns that were missed or opens it to itself, packs pending
operations on top of it, and then extends the registry header with work and committee claims.
-/

namespace RabbitLqc
open Lib

/-! ### Preparation -/

/-- What is left of some claims without those the ledger of the parent holds already. -/
def filterAlreadyClaimedCommitteeParticipationsV1 (parent : CommitteeClaimLedgerV1)
    (groups : List CommitteeParticipationClaimGroupV1) : List CommitteeParticipationClaimGroupV1 :=
  (groups.map fun group =>
    { group with participations := group.participations.filter fun item =>
        !parent.isClaimed group.target item.position }).filter (·.participations ≠ [])

/-- What a node has at hand for a block: its pool of operations with the orders in which the two loops over it meet the
entries, and the answers of its callbacks. A node without a pool or a callback has an empty one. -/
structure AtHand where
  pool : RegistryPoolIndexes
  pruneOrder : MapOrder HashedOperation
  pendingOrder : MapOrder HashedOperation
  /-- by the epoch that is open to commit to -/
  tickets : Nat → Except LqcError (List SignedRandomXWorkTicketV1)
  claims : Except LqcError (List CommitteeParticipationClaimGroupV1)
  finalizations : Except LqcError (List RabbitVRFFinalizationV1)
  keysetCertificate : Except LqcError (Option RabbitVRFKeysetCertificateV1)

namespace LQC

variable (lqc : LQC) (branch : Branch) (header : Header) (hand : AtHand)

/-- The operations tried on a registry: expired ones leave the pool first. -/
def pendingOperations : List RegistryOperation :=
  (hand.pool.pruneExpired hand.pruneOrder (UInt64.ofNat header.number)).pending hand.pendingOrder
    (UInt64.ofNat header.number)

def packPending (limit : Nat) (registry : CanonicalRegistry) : CanonicalRegistry × List RegistryOperation :=
  packRegistryOperations lqc.crypto lqc.chainID header.number lqc.config.registryRules.proofDifficulty limit registry
    (pendingOperations header hand)

/-- The registry header with what is packed, the last part of both preparations. -/
def packedExtra (limit : Nat) (registry : CanonicalRegistry) : Except LqcError Bytes :=
  encodeRegistryHeaderExtra (UInt64.ofNat header.number)
    ((lqc.packPending header hand limit registry).1.root lqc.crypto) (lqc.packPending header hand limit registry).2

/-- The registry of an open activation before any operation: a fresh one, or from the stabilization on the one of the
parent with its producer recovered. -/
def activationTurn : Except LqcError CanonicalRegistry := do
  ensure (header.coinbase ≠ 0) .missingCoinbase
  if lqc.config.consensusCommitteeLivenessActive header.number then do
    let parent ← lqc.registryParentSnapshot branch header
    let registry ← parent.open lqc.crypto
    registry.recoverPermissionlessProducer header.coinbase header.number
  else CanonicalRegistry.activatePermissionlessProducer KeyedList.empty header.coinbase header.number

/-- The registry after the turns of the registry queue. -/
def queueTurn : Except LqcError (HybridSelection × CanonicalRegistry) := do
  let parent ← lqc.registryParentSnapshot branch header
  let selection ← lqc.canonicalSelection header parent
  match selection.isAuthorAllowed header.coinbase with
  | none => .error .unauthorizedRegistryProducer
  | some queuePos => do
    let registry ← parent.open lqc.crypto
    let moved ← (selection.ordered.take queuePos).foldlM (fun (registry : CanonicalRegistry) address =>
      registry.applyMissedTurn address header.number lqc.config.registryRules.maxMissedTurns
        lqc.config.registryRules.jailBlocks) registry
    let live ← CanonicalRegistry.markProducerHeartbeat moved header.coinbase header.number
    .ok (selection, live)

/-- From the third liveness rule on this preparation leaves room for claims. -/
def prepareCanonicalRegistryExtra : Except LqcError (HybridSelection × Bytes) := do
  let (selection, registry) ← if lqc.openActivationForHeader branch header then do
      let registry ← lqc.activationTurn branch header
      .ok (({ ordered := [header.coinbase] } : HybridSelection), registry)
    else lqc.queueTurn branch header
  let limit := if lqc.config.consensusLivenessV3Active header.number then
    maxRegistryOperationsWithCommitteeClaimsV1 else maxRegistryOperationsPerBlock
  let extra ← lqc.packedExtra header hand limit registry
  .ok (selection, extra)

/-- Packing by seats stops at the limit of a header without claims, whatever the block will carry. -/
def workV1EngineLabPrepareRegistryBySeats (parent : RegistrySnapshot) (selection : HybridSelection) :
    Except LqcError Bytes := do
  ensure (lqc.config.isAuthorAllowedAt header.number selection header.coinbase ≠ none) .unauthorizedRegistryProducer
  let registry ← parent.open lqc.crypto
  let live ← lqc.config.workV1EngineLabApplySeatLiveness registry header.number selection header.coinbase
  lqc.packedExtra header hand maxRegistryOperationsPerBlock live

/-! ### The hook -/

/-- The registry content of a prepared header; a header that went through the hook before has it in its envelope. -/
def hookRegistry (extra : Bytes) : Except LqcError (Hash × List RegistryOperation) :=
  match decodeRegistryHeaderExtra extra with
  | .ok envelope => .ok (envelope.registryRoot, envelope.operations)
  | .error _ =>
    if lqc.config.consensusLivenessV3Active header.number then
      if lqc.config.isRabbitVRF header.number then do
        let envelope ← decodeLQCHeaderExtraV5 lqc.bls extra maxWorkTicketsPerBlockV1
        .ok (envelope.registryRoot, envelope.registryOperations)
      else do
        let envelope ← decodeLQCHeaderExtraV4 extra maxWorkTicketsPerBlockV1
        .ok (envelope.registryRoot, envelope.registryOperations)
    else do
      let envelope ← decodeLQCHeaderExtraV3 extra maxWorkTicketsPerBlockV1
      .ok (envelope.registryRoot, envelope.registryOperations)

def hookTickets (parent : CanonicalWorkRuntimeStateV1) : Except LqcError (List SignedRandomXWorkTicketV1) := do
  match ← workCommitTargetEpochV1 header.number parent.work.epochLength with
  | none => .ok []
  | some epoch => hand.tickets epoch

def prepareWorkV1EngineLabHook (extra : Bytes) : Except LqcError Bytes :=
  if header.number = 0 ∨ lqc.config.registryProtocolEnabled header.number = false then .ok extra
  else do
    let (registryRoot, operations) ← lqc.hookRegistry header extra
    let parent ← parentRuntime branch
    let ctx ← lqc.workV1EngineLabContext branch header parent registryRoot
    let tickets ← hookTickets header hand parent
    if lqc.config.consensusLivenessV3Active header.number then do
      let answered ← hand.claims
      let full ← lqc.workV1EngineLabV4Context branch header ctx
      let claims := filterAlreadyClaimedCommitteeParticipationsV1 full.parentClaims answered
      if lqc.config.isRabbitVRF header.number then do
        let finalizations ← hand.finalizations
        let certificate ← hand.keysetCertificate
        let built ← buildLQCHeaderExtraV5WithCanonicalRuntimeV1 lqc.crypto full operations tickets claims
          certificate.toList (if certificate.isSome then finalizations else [])
        .ok built.1
      else do
        let built ← buildLQCHeaderExtraV4WithCanonicalRuntimeV1 lqc.crypto full operations tickets claims
        .ok built.1
    else do
      let built ← buildLQCHeaderExtraV3WithCanonicalWorkV1 lqc.crypto ctx operations tickets
      .ok built.1

/-- The header of a block that is opened to its producer comes from `prepareCanonicalRegistryExtra`, that of any other
block of the registry protocol from the seats. -/
def prepareCanonicalRegistryExtraMaybeWorkV1Lab : Except LqcError (HybridSelection × Bytes) :=
  if lqc.openActivationForHeader branch header then do
    if lqc.config.consensusLivenessV3Active header.number then (parentRuntime branch).map fun _ => () else .ok ()
    let (selection, extra) ← lqc.prepareCanonicalRegistryExtra branch header hand
    let full ← lqc.prepareWorkV1EngineLabHook branch header hand extra
    .ok (selection, full)
  else if header.number = 0 ∨ lqc.config.registryProtocolEnabled header.number = false then do
    let (selection, extra) ← lqc.prepareCanonicalRegistryExtra branch header hand
    let full ← lqc.prepareWorkV1EngineLabHook branch header hand extra
    .ok (selection, full)
  else do
    let runtime ← parentRuntime branch
    let parent ← lqc.registryParentSnapshot branch header
    let (selection, active) ← lqc.workSelectionForHeader branch header runtime parent
    ensure (active = true ∨ selection.ordered ≠ []) .workV1EngineLabSelectionUnavailable
    let extra ← lqc.workV1EngineLabPrepareRegistryBySeats header hand parent selection
    let full ← lqc.prepareWorkV1EngineLabHook branch header hand extra
    .ok (selection, full)

end LQC

/-! ### What is packed -/

section Packed

variable {crypto : Crypto} {chainID blockNumber proofDifficulty : Nat} {live : CanonicalRegistry}
  {pending : List RegistryOperation}

theorem validateRegistryOperation_header {operation : RegistryOperation} {u : Unit}
    (h : validateRegistryOperation crypto chainID blockNumber proofDifficulty operation = .ok u) :
    HeaderOperation operation := by
  have signature := validateRegistryOperation_signature_length h
  unfold validateRegistryOperation at h
  simp only [ensure_bind_ok_iff] at h
  obtain ⟨version, kind, address, sequence, _⟩ := h
  exact ⟨version, kind, address, sequence, signature⟩

theorem applies_header {operation : RegistryOperation}
    (applies : live.applies crypto chainID blockNumber proofDifficulty operation = true) :
    HeaderOperation operation := by
  unfold CanonicalRegistry.applies at applies
  cases applied : live.applyOperation crypto chainID blockNumber proofDifficulty operation with
  | error e => simp [applied, Except.isOk, Except.toBool] at applies
  | ok next =>
    unfold CanonicalRegistry.applyOperation at applied
    obtain ⟨_, checked, _⟩ := bind_ok applied
    exact validateRegistryOperation_header checked

theorem headerOperations_of_applies {operations : List RegistryOperation}
    (each : ∀ operation ∈ operations,
      live.applies crypto chainID blockNumber proofDifficulty operation = true)
    (distinct : (operations.map (·.address)).Nodup)
    (few : operations.length ≤ maxRegistryOperationsPerBlock) :
    HeaderOperations (canonicalRegistryOperations operations) where
  capacity := by
    have same : (canonicalRegistryOperations operations).length = operations.length := length_sortOn
    rw [same]
    exact few
  each operation member := applies_header (each operation (mem_sortOn.mp member))
  slots := by
    have addresses : ((canonicalRegistryOperations operations).map (·.address)).Nodup :=
      (sortOn_perm.map _).nodup_iff.mpr distinct
    have apart := List.pairwise_map.mp addresses
    exact (apart.imp fun different same => different (congrArg Prod.fst same)).isChain

end Packed

theorem filterAlreadyClaimed_eq {ledger next : CommitteeClaimLedgerV1} {inclusionBlock : Nat}
    {groups : List CommitteeParticipationClaimGroupV1} (valid : ledger.validate = .ok ())
    (applied : ledger.apply inclusionBlock groups = .ok next) :
    filterAlreadyClaimedCommitteeParticipationsV1 ledger groups = groups := by
  obtain ⟨groupsValid, fresh⟩ := (CommitteeClaimLedgerV1.apply_exists_iff valid).mp ⟨next, applied⟩
  have kept : ∀ group ∈ groups, { group with
      participations := group.participations.filter fun item =>
        !ledger.isClaimed group.target item.position } = group := by
    intro group member
    have all : group.participations.filter (fun item =>
        !ledger.isClaimed group.target item.position) = group.participations := by
      refine List.filter_eq_self.mpr fun item inGroup => ?_
      rw [Bool.not_eq_true']
      refine Bool.eq_false_iff.mpr fun claimed => ?_
      have recorded := ((CommitteeClaimLedgerV1.isClaimed_iff valid).mp claimed).2
      exact fresh _ _ ⟨group, member, rfl, item, inGroup, rfl⟩ recorded
    rw [all]
  unfold filterAlreadyClaimedCommitteeParticipationsV1
  rw [List.map_congr_left kept, List.map_id']
  refine List.filter_eq_self.mpr fun group member => ?_
  simpa using (groupsValid.each group member).nonempty

namespace LQC

variable {lqc : LQC} {branch : Branch} {header : Header} {hand : AtHand} {live : CanonicalRegistry} {limit : Nat}

variable (lqc header hand live) in
/-- The pending operations that apply to a registry. -/
def applicable : List RegistryOperation :=
  (pendingOperations header hand).filter
    (live.applies lqc.crypto lqc.chainID header.number lqc.config.registryRules.proofDifficulty)

theorem pendingOperations_distinct (pooled : hand.pool.Sound) :
    ((pendingOperations header hand).map (·.address)).Nodup :=
  ((pooled.pruneExpired _ _).1.linked.pending_canonical _ _).distinct

theorem packPending_operations (pooled : hand.pool.Sound) :
    (lqc.packPending header hand limit live).2 = (lqc.applicable header hand live).take limit :=
  packRegistryOperations_eq _ live _ (pendingOperations_distinct pooled)

theorem packedExtra_ok (nonzero : ∀ bytes, lqc.crypto.keccak256 bytes ≠ 0) (pooled : hand.pool.Sound)
    (few : limit ≤ maxRegistryOperationsPerBlock) :
    ∃ extra, lqc.packedExtra header hand limit live = .ok extra := by
  have each : ∀ operation ∈ (lqc.applicable header hand live).take limit,
      live.applies lqc.crypto lqc.chainID header.number lqc.config.registryRules.proofDifficulty operation = true := by
    intro operation member
    exact (List.mem_filter.mp (List.mem_of_mem_take member)).2
  have valid : HeaderOperations (canonicalRegistryOperations (lqc.packPending header hand limit live).2) := by
    rw [packPending_operations pooled]
    refine headerOperations_of_applies each ?_ ((List.length_take_le _ _).trans few)
    exact (pendingOperations_distinct pooled).sublist (((List.take_sublist _ _).trans List.filter_sublist).map _)
  exact ⟨_, encodeRegistryHeaderExtra_ok_iff.mpr ⟨nonzero _, valid, rfl⟩⟩

end LQC

/-! ### Preparation with claims -/

def LQCHeaderV4RuntimeContextV1.withRegistryRoot (ctx : LQCHeaderV4RuntimeContextV1) (root : Hash) :
    LQCHeaderV4RuntimeContextV1 :=
  { ctx with work := { ctx.work with registryRoot := root } }

section PrepareV4

variable {crypto : Crypto} {ctx : LQCHeaderV4RuntimeContextV1} {workRoot claimRoot : Hash}
  {operations : List RegistryOperation} {tickets : List SignedRandomXWorkTicketV1}
  {claims : List CommitteeParticipationClaimGroupV1}

theorem buildLQCHeaderExtraV4_exists_iff (valid : ctx.validate crypto = .ok ())
    (ticketList : TicketList maxWorkTicketsPerBlockV1 tickets)
    (groups : ValidClaimGroups ctx.work.blockNumber.toNat claims) (nonempty : claims ≠ [])
    (post : ctx.postRoots crypto (sortOn SignedRandomXWorkTicketV1.orderKey tickets)
      (canonicalGroups claims) = .ok (workRoot, claimRoot))
    (nonzero : workRoot ≠ 0 ∧ claimRoot ≠ 0)
    (header : HeaderOperations (canonicalRegistryOperations operations)) :
    (∃ built, buildLQCHeaderExtraV4WithCanonicalRuntimeV1 crypto ctx operations tickets claims =
      .ok built) ↔ operations.length ≤ maxRegistryOperationsWithCommitteeClaimsV1 := by
  have context := ctx.validate_nonzero valid
  have listed : canonicalGroups claims ≠ [] := fun empty => nonempty (canonicalGroups_eq_nil_iff.mp empty)
  simp only [buildLQCHeaderExtraV4WithCanonicalRuntimeV1, bind_ok_iff, Except.ok.injEq,
    canonicalWorkTicketsV3_ok_iff, canonicalClaimGroups_ok_iff]
  constructor
  · intro success
    obtain ⟨_, _, _, _, ⟨_, _, rfl⟩, _, ⟨_, rfl⟩, _, _, extra, encoded, _⟩ := success
    exact (encodeLQCHeaderExtraV4_ok_iff.mp encoded).2.2.2.2.1 listed
  · intro few
    have sameLength : (canonicalRegistryOperations operations).length = operations.length :=
      length_sortOn
    have encoded := encodeLQCHeaderExtraV4_ok_iff.mpr ⟨⟨context.1, context.2, nonzero.1, nonzero.2,
      by decide⟩, header, ticketList.sorted, groups.canonical, fun _ => few,
      framedSize_V4_le header.each (sameLength ▸ few) ticketList.sorted.sorted
        groups.canonical.canonical, rfl⟩
    exact ⟨_, (), valid, _, ⟨by decide, ticketList, rfl⟩, _, ⟨groups, rfl⟩, _, post, _, encoded, rfl⟩

end PrepareV4

theorem LQCHeaderV4RuntimeContextV1.withRegistryRoot_validate {crypto : Crypto}
    {ctx : LQCHeaderV4RuntimeContextV1} {root : Hash} (nonzero : root ≠ 0)
    (valid : ctx.validate crypto = .ok ()) : (ctx.withRegistryRoot root).validate crypto = .ok () := by
  unfold validate at valid ⊢
  obtain ⟨_, work, claims⟩ := bind_ok valid
  refine bind_ok_iff.mpr ⟨(), ?_, claims⟩
  unfold LQCHeaderWorkRuntimeContextV1.validate at work ⊢
  obtain ⟨_, fields, rest⟩ := bind_ok work
  obtain ⟨chain, number, _⟩ := ensure_ok_iff.mp fields
  exact ensure_bind_ok_iff.mpr ⟨⟨chain, number, nonzero⟩, rest⟩

theorem LQCHeaderV4RuntimeContextV1.withRegistryRoot_postRoots {crypto : Crypto}
    {ctx : LQCHeaderV4RuntimeContextV1} {root : Hash} (nonzero : root ≠ 0)
    (valid : ctx.validate crypto = .ok ()) (tickets : List SignedRandomXWorkTicketV1)
    (claims : List CommitteeParticipationClaimGroupV1) :
    (ctx.withRegistryRoot root).postRoots crypto tickets claims = ctx.postRoots crypto tickets claims := by
  have moved := withRegistryRoot_validate nonzero valid
  have work : ctx.work.validate crypto = .ok () := by
    unfold validate at valid
    obtain ⟨_, work, _⟩ := bind_ok valid
    exact work
  have movedWork : (ctx.withRegistryRoot root).work.validate crypto = .ok () := by
    unfold validate at moved
    obtain ⟨_, work, _⟩ := bind_ok moved
    exact work
  have verified : (ctx.withRegistryRoot root).work.verifyTickets crypto tickets =
      ctx.work.verifyTickets crypto tickets := by
    unfold LQCHeaderWorkRuntimeContextV1.verifyTickets
    rw [work, movedWork]
    rfl
  have applied : (ctx.withRegistryRoot root).verifyAndApplyClaims crypto claims =
      ctx.verifyAndApplyClaims crypto claims := by
    unfold verifyAndApplyClaims
    rw [valid, moved]
    rfl
  unfold postRoots LQCHeaderWorkRuntimeContextV1.expectedWork
    LQCHeaderWorkRuntimeContextV1.postWorkState
  rw [verified, applied]
  rfl

namespace LQC

variable {lqc : LQC} {branch : Branch} {header : Header} {hand : AtHand} {selection : HybridSelection}
  {live : CanonicalRegistry} {runtime : CanonicalWorkRuntimeStateV1} {ctx : LQCHeaderV4RuntimeContextV1}
  {tickets : List SignedRandomXWorkTicketV1} {claims : List CommitteeParticipationClaimGroupV1}

/-- An author that the selection of the parent allows, with the registry after the turns of the block. -/
structure BySeats (lqc : LQC) (branch : Branch) (header : Header) (runtime : CanonicalWorkRuntimeStateV1)
    (parent : RegistrySnapshot) (selected : HybridSelection × Bool) (live : CanonicalRegistry) : Prop where
  closed : lqc.openActivationForHeader branch header = false
  snapshot : lqc.registryParentSnapshot branch header = .ok parent
  selects : lqc.workSelectionForHeader branch header runtime parent = .ok selected
  called : selected.2 = true ∨ selected.1.ordered ≠ []
  allowed : lqc.config.isAuthorAllowedAt header.number selected.1 header.coinbase ≠ none
  moved : ∃ registry, parent.open lqc.crypto = .ok registry ∧
    lqc.config.workV1EngineLabApplySeatLiveness registry header.number selected.1 header.coinbase = .ok live

/-- An author that may prepare a block: anybody when the block is opened to its producer, else one that the selection
allows. -/
inductive Prepares (lqc : LQC) (branch : Branch) (header : Header) (runtime : CanonicalWorkRuntimeStateV1) :
    CanonicalRegistry → Prop
  | activation {live : CanonicalRegistry} (opens : lqc.openActivationForHeader branch header = true)
      (turn : lqc.activationTurn branch header = .ok live) : Prepares lqc branch header runtime live
  | seats {parent : RegistrySnapshot} {selected : HybridSelection × Bool} {live : CanonicalRegistry}
      (seats : BySeats lqc branch header runtime parent selected live) : Prepares lqc branch header runtime live

/-- Tickets and claims at hand that are valid on the parent. -/
structure WorkAtHand (lqc : LQC) (branch : Branch) (header : Header) (hand : AtHand)
    (runtime : CanonicalWorkRuntimeStateV1) (ctx : LQCHeaderV4RuntimeContextV1)
    (tickets : List SignedRandomXWorkTicketV1) (claims : List CommitteeParticipationClaimGroupV1) : Prop where
  context : ∃ root work, lqc.workV1EngineLabContext branch header runtime root = .ok work ∧
    lqc.workV1EngineLabV4Context branch header work = .ok ctx
  valid : ctx.validate lqc.crypto = .ok ()
  answered : hookTickets header hand runtime = .ok tickets
  listed : TicketList maxWorkTicketsPerBlockV1 tickets
  claimed : hand.claims = .ok claims
  nonempty : claims ≠ []
  applied : ∃ next, ctx.parentClaims.apply ctx.work.blockNumber.toNat claims = .ok next
  post : ∃ roots, ctx.postRoots lqc.crypto (sortOn SignedRandomXWorkTicketV1.orderKey tickets)
    (canonicalGroups claims) = .ok roots

/-- A block of the fourth version on its parent: one with claims, and no randomness artifacts. -/
structure FourthVersion (lqc : LQC) (branch : Branch) (header : Header) (runtime : CanonicalWorkRuntimeStateV1) :
    Prop where
  started : header.number ≠ 0
  enabled : lqc.config.registryProtocolEnabled header.number = true
  active : lqc.config.consensusLivenessV3Active header.number = true
  noVrf : lqc.config.isRabbitVRF header.number = false
  runs : parentRuntime branch = .ok runtime

theorem FourthVersion.not_disabled (fourth : FourthVersion lqc branch header runtime) :
    ¬ (header.number = 0 ∨ lqc.config.registryProtocolEnabled header.number = false) := by
  simp [fourth.started, fourth.enabled]

/-- The registry root of a header is carried into its context, and nothing else depends on it. -/
theorem context_root {root root' : Hash} {work : LQCHeaderWorkRuntimeContextV1}
    (made : lqc.workV1EngineLabContext branch header runtime root = .ok work)
    (full : lqc.workV1EngineLabV4Context branch header work = .ok ctx) :
    lqc.workV1EngineLabContext branch header runtime root' = .ok { work with registryRoot := root' } ∧
      lqc.workV1EngineLabV4Context branch header { work with registryRoot := root' } =
        .ok (ctx.withRegistryRoot root') ∧ ctx.work.blockNumber = UInt64.ofNat header.number := by
  have block : work.blockNumber = UInt64.ofNat header.number ∧
      lqc.workV1EngineLabContext branch header runtime root' = .ok { work with registryRoot := root' } := by
    unfold workV1EngineLabContext at made ⊢
    obtain ⟨target, found, made⟩ := bind_ok made
    rw [found]
    cases target with
    | none =>
      obtain rfl := Except.ok.inj made
      exact ⟨rfl, rfl⟩
    | some epoch =>
      obtain ⟨dataset, isDataset, made⟩ := bind_ok made
      obtain ⟨challenge, isChallenge, made⟩ := bind_ok made
      dsimp only [bind, Except.bind]
      rw [isDataset]
      dsimp only
      rw [isChallenge]
      dsimp only
      split at made
      · obtain rfl := Except.ok.inj made
        exact ⟨rfl, rfl⟩
      · cases made
  obtain ⟨ledger, isLedger, full⟩ := bind_ok full
  obtain rfl := Except.ok.inj full
  refine ⟨block.2, ?_, block.1⟩
  exact bind_ok_iff.mpr ⟨ledger, isLedger, rfl⟩

theorem WorkAtHand.hook_exists_iff (work : WorkAtHand lqc branch header hand runtime ctx tickets claims)
    (nonzero : ∀ bytes, lqc.crypto.keccak256 bytes ≠ 0) (fourth : FourthVersion lqc branch header runtime)
    {root : Hash} {operations : List RegistryOperation} {extra : Bytes}
    (encoded : encodeRegistryHeaderExtra (UInt64.ofNat header.number) root operations = .ok extra) :
    (∃ full, lqc.prepareWorkV1EngineLabHook branch header hand extra = .ok full) ↔
      operations.length ≤ maxRegistryOperationsWithCommitteeClaimsV1 := by
  obtain ⟨rooted, valid, _⟩ := encodeRegistryHeaderExtra_ok_iff.mp encoded
  obtain ⟨_, _, made, full⟩ := work.context
  obtain ⟨made, full, _⟩ := @context_root lqc branch header runtime ctx _ root _ made full
  obtain ⟨next, applied⟩ := work.applied
  obtain ⟨roots, post⟩ := work.post
  have ledger : ctx.parentClaims.validate = .ok () := by
    have valid := work.valid
    unfold LQCHeaderV4RuntimeContextV1.validate at valid
    obtain ⟨_, _, claimsValid⟩ := bind_ok valid
    exact claimsValid
  have groups := ((CommitteeClaimLedgerV1.apply_exists_iff ledger).mp ⟨next, applied⟩).1
  -- the operations are read back in canonical order, which changes neither validity nor number
  have built := buildLQCHeaderExtraV4_exists_iff (ctx.withRegistryRoot_validate rooted work.valid) work.listed
    groups work.nonempty ((ctx.withRegistryRoot_postRoots rooted work.valid _ _).trans post)
    (ctx.postRoots_ne_zero nonzero post) ((canonicalRegistryOperations_idem _).symm ▸ valid)
  have sameLength : (canonicalRegistryOperations operations).length = operations.length := length_sortOn
  rw [sameLength] at built
  have registry : lqc.hookRegistry header extra = .ok (root, canonicalRegistryOperations operations) := by
    unfold hookRegistry
    rw [decodeRegistryHeaderExtra_encode encoded]
    rfl
  have kept : filterAlreadyClaimedCommitteeParticipationsV1 (ctx.withRegistryRoot root).parentClaims claims = claims :=
    filterAlreadyClaimed_eq ledger applied
  rw [← built]
  unfold prepareWorkV1EngineLabHook
  rw [if_neg fourth.not_disabled]
  simp only [bind_ok_iff, registry, fourth.runs, made, work.answered, fourth.active, work.claimed, full, fourth.noVrf,
    kept, if_true, Bool.false_eq_true, if_false, Except.ok.injEq, exists_eq_left']
  constructor
  · rintro ⟨_, result, success, _⟩
    exact ⟨result, success⟩
  · rintro ⟨result, success⟩
    exact ⟨_, result, success, rfl⟩

theorem WorkAtHand.packed_exists_iff (work : WorkAtHand lqc branch header hand runtime ctx tickets claims)
    (nonzero : ∀ bytes, lqc.crypto.keccak256 bytes ≠ 0) (pooled : hand.pool.Sound)
    (fourth : FourthVersion lqc branch header runtime) {limit : Nat} {extra : Bytes}
    (packed : lqc.packedExtra header hand limit live = .ok extra) :
    (∃ full, lqc.prepareWorkV1EngineLabHook branch header hand extra = .ok full) ↔
      min limit (lqc.applicable header hand live).length ≤ maxRegistryOperationsWithCommitteeClaimsV1 := by
  rw [work.hook_exists_iff nonzero fourth packed, packPending_operations pooled, List.length_take]

theorem BySeats.exists_iff {parent : RegistrySnapshot} {selected : HybridSelection × Bool}
    (seats : BySeats lqc branch header runtime parent selected live)
    (work : WorkAtHand lqc branch header hand runtime ctx tickets claims)
    (nonzero : ∀ bytes, lqc.crypto.keccak256 bytes ≠ 0) (pooled : hand.pool.Sound)
    (fourth : FourthVersion lqc branch header runtime) :
    (∃ result, lqc.prepareCanonicalRegistryExtraMaybeWorkV1Lab branch header hand = .ok result) ↔
      (lqc.applicable header hand live).length ≤ maxRegistryOperationsWithCommitteeClaimsV1 := by
  obtain ⟨extra, packed⟩ := @packedExtra_ok lqc header hand live maxRegistryOperationsPerBlock nonzero pooled le_rfl
  obtain ⟨registry, opened, moved⟩ := seats.moved
  have prepared : lqc.workV1EngineLabPrepareRegistryBySeats header hand parent selected.1 = .ok extra := by
    unfold workV1EngineLabPrepareRegistryBySeats
    simp only [bind_ok_iff, ensure_ok_iff, exists_unit, opened, moved, packed, Except.ok.injEq, exists_eq_left']
    exact ⟨seats.allowed, trivial⟩
  have small : (lqc.applicable header hand live).length ≤ maxRegistryOperationsWithCommitteeClaimsV1 ↔
      min maxRegistryOperationsPerBlock (lqc.applicable header hand live).length ≤
        maxRegistryOperationsWithCommitteeClaimsV1 := by
    unfold maxRegistryOperationsPerBlock maxRegistryOperationsWithCommitteeClaimsV1
    omega
  unfold prepareCanonicalRegistryExtraMaybeWorkV1Lab
  rw [seats.closed, if_neg Bool.false_ne_true, if_neg fourth.not_disabled, small,
    ← work.packed_exists_iff nonzero pooled fourth packed]
  simp only [bind_ok_iff, fourth.runs, seats.snapshot, seats.selects, ensure_ok_iff, exists_unit, seats.called,
    prepared,
    true_and, Except.ok.injEq, exists_eq_left']
  constructor
  · rintro ⟨_, full, hook, _⟩
    exact ⟨full, hook⟩
  · rintro ⟨full, hook⟩
    exact ⟨_, full, hook, rfl⟩

/-- Preparing a block of the fourth version with committee claims, for an author who may do so, succeeds exactly when
the block is opened to its producer or no more than 48 of the pending operations apply to the registry. -/
theorem prepareV4_ok_iff (nonzero : ∀ bytes, lqc.crypto.keccak256 bytes ≠ 0) {calls : List RegistryPoolCall}
    (pooled : hand.pool = RegistryPoolIndexes.run lqc.crypto calls) (fourth : FourthVersion lqc branch header runtime)
    (prepares : Prepares lqc branch header runtime live)
    (work : WorkAtHand lqc branch header hand runtime ctx tickets claims) :
    (∃ result, lqc.prepareCanonicalRegistryExtraMaybeWorkV1Lab branch header hand = .ok result) ↔
      lqc.openActivationForHeader branch header = true ∨
        (lqc.applicable header hand live).length ≤ maxRegistryOperationsWithCommitteeClaimsV1 := by
  have sound : hand.pool.Sound := pooled ▸ RegistryPoolIndexes.run_sound calls
  cases prepares with
  | activation opens turn =>
    obtain ⟨extra, packed⟩ := @packedExtra_ok lqc header hand live maxRegistryOperationsWithCommitteeClaimsV1 nonzero
      sound (by decide)
    obtain ⟨full, hook⟩ := (work.packed_exists_iff nonzero sound fourth packed).mpr (Nat.min_le_left _ _)
    have prepared : lqc.prepareCanonicalRegistryExtra branch header hand =
        .ok ({ ordered := [header.coinbase] }, extra) := by
      unfold prepareCanonicalRegistryExtra
      simp only [opens, if_true, fourth.active, bind_ok_iff, turn, Except.ok.injEq, exists_eq_left']
      exact ⟨extra, packed, rfl⟩
    refine iff_of_true ?_ (.inl opens)
    unfold prepareCanonicalRegistryExtraMaybeWorkV1Lab
    rw [if_pos opens]
    simp only [bind_ok_iff, fourth.active, fourth.runs, prepared, hook, if_true, Except.ok.injEq, exists_eq_left']
    exact ⟨_, (), rfl, rfl⟩
  | seats seats =>
    rw [seats.exists_iff work nonzero sound fourth, seats.closed]
    simp

end LQC

/-! ### A full pool

The block after 299 on a chain whose first work epoch is closed: two seats, the owner of one the producer and the other
the committee, and a claim of the committee for the block before. The branch holds the entries that the block looks up.
-/

def seatConfig : LqcConfig where
  registryProtocolBlock := 1
  proofDifficulty := 1
  consensusLivenessV3Block := 257
  committeeSize := 1
  fallbackCount := 1
  recoveryTimeoutMs := 60000

def seatLqc : LQC where
  crypto := plainCrypto
  bls := plainBls
  config := seatConfig
  chainID := 1
  executionRules _ _ := .ok ()
  verifyArtifacts _ _ _ := .error .workV1EngineLabUnavailable
  legacySelection _ _ := {}

def seatHeader (number : Nat) (parentHash : Hash) (time : Nat) : Header :=
  { parentHash, coinbase := 1000, number, time, extra := [] }

def seatParent : Header := seatHeader 299 8 0

def closedEpoch : WorkEpochSnapshotV1 :=
  match newWorkEpochSnapshotV1 plainCrypto 1 1 5 1 [⟨7, 1000⟩, ⟨8, 1001⟩] with
  | .ok snapshot => snapshot
  | .error _ => ⟨0, 0, 0, 0, []⟩

def seatRegistry : CanonicalRegistry :=
  (KeyedList.empty.put { address := 1000, registeredAt := 1, lastHeartbeat := 290, active := true }).put
    { address := 1001, registeredAt := 1, lastHeartbeat := 290, sequence := 1, active := true }

def seatRuntime : CanonicalWorkRuntimeStateV1 :=
  ⟨⟨299, seatParent.hash plainCrypto, 128, some ⟨2, (seatHeader 128 0 0).hash plainCrypto, 1, []⟩, some closedEpoch⟩,
    ⟨3, 1, 2, 1⟩⟩

def seatBranch : Branch :=
  [⟨seatParent, .ok seatRuntime, .ok ⟨299, seatParent.hash plainCrypto, seatRegistry⟩, some newCommitteeClaimLedgerV1⟩,
    ⟨seatHeader 298 0 0, .error .workV1EngineLabParentMissing, .ok ⟨298, 8, seatRegistry⟩, none⟩,
    ⟨seatHeader 128 0 0, .error .workV1EngineLabParentMissing, .error .registryProtocolUnavailable, none⟩,
    ⟨seatHeader 0 0 0, .error .workV1EngineLabParentMissing, .error .registryProtocolUnavailable, none⟩]

/-- The block to prepare, in its slot or after the recovery timeout. -/
def seatBlock (time : Nat) : Header := seatHeader 300 (seatParent.hash plainCrypto) time

def seatContext : LQCHeaderV4RuntimeContextV1 where
  work := ⟨1, seatRuntime, 300, 1, (seatHeader 0 0 0).hash plainCrypto, (seatHeader 128 0 0).hash plainCrypto⟩
  parentClaims := newCommitteeClaimLedgerV1
  resolveClaims := seatLqc.workV1EngineLabClaimResolver seatBranch

def seatClaims : List CommitteeParticipationClaimGroupV1 := [⟨299, [⟨0, plainSignature 1001⟩]⟩]

def seatSelection : HybridSelection := { ordered := [1000, 1001], committee := [1001] }

/-- First registrations of some addresses, one after the other. -/
def registrations (count : Nat) : List RegistryPoolCall :=
  (List.range count).map fun index => .add 1 (plainOperation 1 (index + 1) 1 300)

def mapOrder : MapOrder HashedOperation := ⟨id, fun _ => .rfl⟩

def seatHand (count : Nat) : AtHand where
  pool := .run plainCrypto (registrations count)
  pruneOrder := mapOrder
  pendingOrder := mapOrder
  tickets _ := .ok []
  claims := .ok seatClaims
  finalizations := .ok []
  keysetCertificate := .ok none

theorem seatContext_evaluates : seatContext.validate plainCrypto = .ok () ∧
    (seatContext.postRoots plainCrypto [] (canonicalGroups seatClaims)).isOk = true ∧
    (seatContext.parentClaims.apply 300 seatClaims).isOk = true ∧
    seatLqc.workSelectionForHeader seatBranch (seatBlock 15) seatRuntime
      ⟨299, seatParent.hash plainCrypto, seatRegistry⟩ = .ok (seatSelection, true) := by
  decide +kernel

theorem seatHand_evaluates :
    (seatLqc.applicable (seatBlock 15) (seatHand 48) seatRegistry).length ≤ maxRegistryOperationsWithCommitteeClaimsV1 ∧
      (seatHand 49).pool.size = 49 ∧
      maxRegistryOperationsWithCommitteeClaimsV1 <
        (seatLqc.applicable (seatBlock 15) (seatHand 49) seatRegistry).length := by
  decide +kernel

theorem seatBlock_fourth (time : Nat) : LQC.FourthVersion seatLqc seatBranch (seatBlock time) seatRuntime :=
  ⟨(by decide : 300 ≠ 0), (by decide : seatConfig.registryProtocolEnabled 300 = true),
    (by decide : seatConfig.consensusLivenessV3Active 300 = true),
    (by decide : seatConfig.isRabbitVRF 300 = false), rfl⟩

theorem seatHand_sound (count : Nat) : (seatHand count).pool.Sound :=
  RegistryPoolIndexes.run_sound (registrations count)

theorem seatBlock_context (time : Nat) :
    seatLqc.workV1EngineLabContext seatBranch (seatBlock time) seatRuntime 1 = .ok seatContext.work := by
  have target : workCommitTargetEpochV1 (seatBlock time).number seatRuntime.work.epochLength = .ok (some 2) :=
    (by decide : workCommitTargetEpochV1 300 128 = .ok (some 2))
  unfold LQC.workV1EngineLabContext
  rw [target]
  rfl

theorem seatHand_work (time count : Nat) :
    LQC.WorkAtHand seatLqc seatBranch (seatBlock time) (seatHand count) seatRuntime seatContext [] seatClaims where
  context := ⟨1, seatContext.work, seatBlock_context time, rfl⟩
  valid := seatContext_evaluates.1
  answered := by
    have target : workCommitTargetEpochV1 300 128 = .ok (some 2) := by decide
    exact congrArg (fun answer => answer >>= _) target
  listed := ⟨by decide, by simp, by simp⟩
  claimed := rfl
  nonempty := by decide
  applied := exists_ok_of_isOk seatContext_evaluates.2.2.1
  post := exists_ok_of_isOk seatContext_evaluates.2.1

theorem seatBlock_bySeats : LQC.BySeats seatLqc seatBranch (seatBlock 15) seatRuntime
    ⟨299, seatParent.hash plainCrypto, seatRegistry⟩ (seatSelection, true) seatRegistry where
  closed := by decide
  snapshot := rfl
  selects := seatContext_evaluates.2.2.2
  called := .inl rfl
  allowed := by decide
  moved := ⟨seatRegistry, RegistrySnapshot.open_ok_iff.mpr
    ⟨⟨plainCrypto_keccak256_ne_zero _, plainCrypto_keccak256_ne_zero _⟩, by decide, rfl⟩, rfl⟩

/-- With 48 operations in the pool the header is built, and with 49 when the block is opened to its producer. -/
theorem prepareV4_fortyEight :
    (∃ result, seatLqc.prepareCanonicalRegistryExtraMaybeWorkV1Lab seatBranch (seatBlock 15) (seatHand 48) =
      .ok result) ∧ seatLqc.openActivationForHeader seatBranch (seatBlock 60) = true ∧
      ∃ result, seatLqc.prepareCanonicalRegistryExtraMaybeWorkV1Lab seatBranch (seatBlock 60) (seatHand 49) =
        .ok result := by
  have opens : seatLqc.openActivationForHeader seatBranch (seatBlock 60) = true := by decide
  have bySeats := LQC.prepareV4_ok_iff plainCrypto_keccak256_ne_zero rfl (seatBlock_fourth 15)
    (.seats seatBlock_bySeats) (seatHand_work 15 48)
  have opened := LQC.prepareV4_ok_iff plainCrypto_keccak256_ne_zero rfl (seatBlock_fourth 60) (.activation opens rfl)
    (seatHand_work 60 49)
  exact ⟨bySeats.mpr (.inr seatHand_evaluates.1), opens, opened.mpr (.inl opens)⟩

/-- One more, and the producer of a block with valid claims cannot build a header. -/
theorem prepareV4_fortyNine_fails :
    seatConfig.checkConfigForkOrder = true ∧ (seatHand 49).pool.size = 49 ∧
      LQC.FourthVersion seatLqc seatBranch (seatBlock 15) seatRuntime ∧
      LQC.Prepares seatLqc seatBranch (seatBlock 15) seatRuntime seatRegistry ∧
      LQC.WorkAtHand seatLqc seatBranch (seatBlock 15) (seatHand 49) seatRuntime seatContext [] seatClaims ∧
      ∀ result, seatLqc.prepareCanonicalRegistryExtraMaybeWorkV1Lab seatBranch (seatBlock 15) (seatHand 49) ≠
        .ok result := by
  obtain ⟨_, stored, many⟩ := seatHand_evaluates
  refine ⟨by decide, stored, seatBlock_fourth 15, .seats seatBlock_bySeats, seatHand_work 15 49, ?_⟩
  intro result success
  have few := (seatBlock_bySeats.exists_iff (seatHand_work 15 49) plainCrypto_keccak256_ne_zero
    (seatHand_sound 49) (seatBlock_fourth 15)).mp ⟨result, success⟩
  exact absurd few (Nat.not_le.mpr many)

end RabbitLqc
