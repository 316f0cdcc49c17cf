import RabbitLqc.Engine.Authors
import RabbitLqc.Lib.Words

/-!
# The first seats

Tickets of the first epoch become seats when it closes, and from the second epoch on the seats elect.
-/

namespace RabbitLqc
open Lib RlpCodec

variable {lqc : LQC} {rest : Branch} {parent : Entry} {state : CanonicalWorkRuntimeStateV1}

variable {n spacing : Nat} {config : LqcConfig}

/-! ### Tickets -/

/-- The ticket of a participant that found a proof with its own number as nonce. -/
def plainTicket (epoch : UInt64) (signer : Nat) : SignedRandomXWorkTicketV1 :=
  ⟨⟨randomXWorkProtocolVersion, epoch, BitVec.ofNat 160 signer, UInt64.ofNat signer⟩, plainSignature signer⟩

def plainVerified (epoch : UInt64) (signer : Nat) : VerifiedRandomXWorkTicketV1 :=
  ⟨(plainTicket epoch signer).ticket, BitVec.ofNat 256 signer⟩

theorem challengeInput_last {chainID : Nat} {anchor : Hash} {epoch : UInt64} {signer : Nat}
    (positive : signer ≠ 0) (small : signer < 128) :
    (Rlp.encode (.list (textItem "RABBIT-LQC-RANDOMX-INPUT-V1" ::
      ticketFields chainID anchor (plainTicket epoch signer).ticket))).getLastD 0 = UInt8.ofNat signer := by
  have nonce : Rlp.encode (toItem (UInt64.ofNat signer)) = [UInt8.ofNat signer] := by
    have value : (UInt64.ofNat signer).toNat = signer := toNat_ofNat_of_le (by unfold maxUint64; omega)
    show Rlp.encodeBytes (natBytes (UInt64.ofNat signer).toNat) = _
    rw [value, natBytes_small positive (by omega)]
    have single : UInt8.ofNat signer < 0x80 := by
      rw [UInt8.lt_iff_toNat_lt, UInt8.toNat_ofNat_of_lt' (show signer < 256 by omega)]
      exact small
    exact if_pos single
  have parts : Rlp.encodeAll (textItem "RABBIT-LQC-RANDOMX-INPUT-V1" ::
      ticketFields chainID anchor (plainTicket epoch signer).ticket) =
        Rlp.encodeAll [textItem "RABBIT-LQC-RANDOMX-INPUT-V1", toItem randomXWorkProtocolVersion, natItem chainID,
          toItem epoch, toItem anchor, toItem (BitVec.ofNat 160 signer : Address)] ++ [UInt8.ofNat signer] := by
    rw [← nonce, ← List.append_nil (Rlp.encode (toItem (UInt64.ofNat signer)))]
    exact Rlp.encodeAll_append [_, _, _, _, _, _] [_]
  show (Rlp.lengthPrefix 0xc0 _ ++ Rlp.encodeAll _).getLastD 0 = _
  rw [parts, ← List.append_assoc]
  simp

section Plain

variable {epoch : UInt64} {signer : Nat} (started : epoch ≠ 0) (positive : signer ≠ 0) (small : signer < 128)

include started positive small

theorem plainTicket_shape : TicketShape (plainTicket epoch signer) where
  version := rfl
  epoch := started
  participant := Word.ofNat_ne_zero positive (small.trans (by decide))
  signature := plainSignature_shape positive (small.trans (by decide))

theorem plainVerified_valid : checkVerified (plainVerified epoch signer) = .ok () := by
  unfold checkVerified validateRandomXWorkTicketV1
  simp only [bind_ok_iff, ensure_ok_iff, exists_unit]
  exact ⟨⟨rfl, started, Word.ofNat_ne_zero positive (small.trans (by decide))⟩,
    Word.ofNat_ne_zero positive (small.trans (by decide))⟩

theorem plainTicket_verifies {ctx : LQCHeaderWorkRuntimeContextV1} {difficulty : Nat} {key : Hash}
    (chain : ctx.chainID ≠ 0) (anchored : ctx.challengeAnchor ≠ 0) (set : difficulty ≠ 0)
    (easy : 128 ≤ (2 ^ 256 - 1) / difficulty) :
    ctx.verifyTicket nonceCrypto epoch.toNat difficulty key (plainTicket epoch signer) =
      .ok (plainVerified epoch signer) := by
  have shape := plainTicket_shape started positive small
  have context : validateRandomXWorkContextV1 ctx.chainID ctx.challengeAnchor (plainTicket epoch signer).ticket =
      .ok () := by
    unfold validateRandomXWorkContextV1 validateRandomXWorkTicketV1
    simp only [bind_ok_iff, ensure_ok_iff, exists_unit]
    exact ⟨chain, anchored, shape.version, shape.epoch, shape.participant⟩
  have proof : nonceCrypto.randomX key (Rlp.encode (.list (textItem "RABBIT-LQC-RANDOMX-INPUT-V1" ::
      ticketFields ctx.chainID ctx.challengeAnchor (plainTicket epoch signer).ticket))) =
        some (BitVec.ofNat 256 signer) := by
    have value : max 1 (UInt8.ofNat signer).toNat = signer := by
      rw [UInt8.toNat_ofNat_of_lt' (show signer < 256 by omega)]
      omega
    rw [nonceCrypto_randomX, challengeInput_last positive small, value]
  have meets : (BitVec.ofNat 256 signer).toNat ≤ (2 ^ 256 - 1) / difficulty := by
    rw [BitVec.toNat_ofNat, Nat.mod_eq_of_lt (small.trans (by decide))]
    exact small.le.trans easy
  have recovers : ∀ hash, nonceCrypto.recover hash (plainTicket epoch signer).signature =
      some (plainTicket epoch signer).ticket.participant :=
    nonceCrypto_recover (small.trans (by decide))
  unfold LQCHeaderWorkRuntimeContextV1.verifyTicket workV2AdmissionEligibility randomXWorkChallengeInputV1
  simp only [bind_ok_iff, ensure_ok_iff, exists_unit, Except.ok.injEq]
  refine ⟨rfl, shape.participant, _, ⟨context, rfl⟩, ?_⟩
  rw [proof]
  unfold validateRecomputedRandomXWorkV1 randomXWorkTargetV1 verifyRandomXWorkSignatureV1
    randomXWorkSigningHashV1
  simp only [bind_ok_iff, ensure_ok_iff, exists_unit, Except.ok.injEq]
  exact ⟨_, ⟨⟨set, (Nat.lt_of_lt_of_le (by decide) easy).ne'⟩, rfl⟩, meets,
    ⟨shape.signature, _, ⟨context, rfl⟩, recovers _⟩, rfl⟩

end Plain

section Signers

variable {epoch : UInt64} {signers : List Nat} (ordered : signers.Pairwise (· < ·))
  (range : ∀ signer ∈ signers, signer ≠ 0 ∧ signer < 128)

include ordered

theorem plainTickets_sorted (range : ∀ signer ∈ signers, signer ≠ 0 ∧ signer < 128) :
    sortOn SignedRandomXWorkTicketV1.orderKey (signers.map (plainTicket epoch)) =
      signers.map (plainTicket epoch) := by
  apply sortOn_of_sorted
  refine List.pairwise_map.mpr (ordered.imp_of_mem fun {first second} inFirst inSecond less => ?_)
  have small {signer : Nat} (member : signer ∈ signers) :
      (BitVec.ofNat 160 signer).toNat = signer := by
    rw [BitVec.toNat_ofNat]
    exact Nat.mod_eq_of_lt ((range signer member).2.trans (by decide))
  show epoch.toNat :: (BitVec.ofNat 160 first).toNat :: _ ≤ epoch.toNat :: (BitVec.ofNat 160 second).toNat :: _
  rw [small inFirst, small inSecond]
  exact le_of_lt (List.cons_lt_cons_iff.mpr (.inr ⟨rfl, List.cons_lt_cons_iff.mpr (.inl less)⟩))

include range

theorem plainSeats_set : SeatSet (signers.map fun signer => (plainVerified epoch signer).seat) := by
  have injective {width : Nat} (wide : 128 ≤ 2 ^ width) : (signers.map (BitVec.ofNat width)).Nodup := by
    refine (List.nodup_map_iff_inj_on (ordered.imp fun less => Nat.ne_of_lt less)).mpr ?_
    intro first inFirst second inSecond same
    have value := congrArg BitVec.toNat same
    rw [BitVec.toNat_ofNat, BitVec.toNat_ofNat, Nat.mod_eq_of_lt ((range first inFirst).2.trans_le wide),
      Nat.mod_eq_of_lt ((range second inSecond).2.trans_le wide)] at value
    exact value
  refine ⟨?_, ?_, ?_⟩
  · intro seat member
    obtain ⟨signer, inside, rfl⟩ := List.mem_map.mp member
    obtain ⟨positive, small⟩ := range signer inside
    exact ⟨Word.ofNat_ne_zero positive (small.trans (by decide)),
      Word.ofNat_ne_zero positive (small.trans (by decide))⟩
  · rw [List.map_map]
    exact injective (by decide)
  · rw [List.map_map]
    exact injective (by decide)

theorem Tip.brought_plain {config : LqcConfig} {draft : Header} {registry : CanonicalRegistry} {root : Hash}
    (positive : config.proofDifficulty ≠ 0) (tip : Tip (plainLqc config) parent rest state [] registry)
    (links : Links (plainLqc config) parent.header draft) (rooted : root ≠ 0) (started : epoch ≠ 0)
    (open' : state.openEpoch = epoch.toNat) (few : signers.length ≤ maxWorkTicketsPerBlockV1)
    (easy : 128 ≤ (2 ^ 256 - 1) / ticketDifficulty config.proofDifficulty [] epoch.toNat) :
    Brought (plainLqc config) (parent :: rest) draft state root (signers.map (plainTicket epoch))
      (signers.map (plainVerified epoch)) := by
  have listed : TicketList maxWorkTicketsPerBlockV1 (signers.map (plainTicket epoch)) := by
    refine ⟨by rwa [List.length_map], fun signed member => ?_, ?_⟩
    · obtain ⟨signer, inside, rfl⟩ := List.mem_map.mp member
      exact plainTicket_shape started (range signer inside).1 (range signer inside).2
    · have participants := (@plainSeats_set epoch signers ordered range).participants
      rw [List.map_map] at participants ⊢
      exact participants
  have sorted := @plainTickets_sorted epoch signers ordered range
  have had := (tip.accepted.runtimes tip.runtime).1
  have opened : state.openEpoch ≠ 0 := by
    rw [open']
    exact fun zero => started (UInt64.toNat_inj.mp zero)
  refine ⟨listed, sorted, fun ctx made => ?_, fun early => absurd early opened, ?_, ?_, ?_⟩
  · obtain ⟨key, each⟩ := tip.scheduled.verifyTickets_open nonceCrypto_keccak256_ne_zero tip.accepted had links.number
      links.bounded made positive rooted opened
      (checkCanonicalTickets_ok_iff.mpr ⟨by decide, listed, sorted⟩)
    have anchored : ctx.chainID ≠ 0 ∧ ctx.challengeAnchor ≠ 0 := by
      rcases workV1EngineLabContext_cases tip.accepted had links.number links.bounded root with
        ⟨early, _⟩ | ⟨_, _, _, _, _, _, _, context⟩
      · exact absurd early opened
      · rw [Except.ok.inj (made.symm.trans context)]
        exact ⟨Nat.one_ne_zero, nonceCrypto_keccak256_ne_zero _⟩
    rw [each, open', mapM_ok_iff, List.forall₂_map_left_iff, List.forall₂_map_right_iff]
    refine List.forall₂_same.mpr fun signer inside => ?_
    exact plainTicket_verifies started (range signer inside).1 (range signer inside).2 anchored.1 anchored.2
      (epochDifficulty_ne_zero positive _) easy
  · intro item member
    obtain ⟨signer, _, rfl⟩ := List.mem_map.mp member
    exact open'.symm
  · intro item member
    obtain ⟨signer, inside, rfl⟩ := List.mem_map.mp member
    exact plainVerified_valid started (range signer inside).1 (range signer inside).2
  · obtain ⟨closed, commits⟩ := tip.scheduled.seats rfl
    rw [closed, commits, List.nil_append, List.nil_append, List.map_map]
    exact plainSeats_set ordered range

end Signers

/-! ### Seats -/

/-- A network of one identity that stays under the rules before the hardening up to a block. -/
structure Idling (config : LqcConfig) (spacing last : Nat) : Prop where
  difficulty : config.proofDifficulty = 1
  registry : config.registryProtocolBlock = 1
  nobody : config.bootstrapParticipants = []
  plain : config.isConsensusStabilizationBlock 1 = false ∧ config.isConsensusFairnessBlock 1 = false ∧
    config.consensusCommitteeLivenessActive 1 = false
  early : ∀ number ≤ last, config.consensusLivenessV3Active number = false ∧
    forkActive config.consensusHardeningBlock number = false
  due : config.targetBlockSeconds ≤ spacing
  calm : config.recoveryTimeoutSeconds = 0 ∨ spacing < config.recoveryTimeoutSeconds
  short : spacing ≤ 1000

section Idling

variable {config : LqcConfig} {spacing last : Nat}

theorem Idling.positive (idling : Idling config spacing last) : (plainLqc config).config.proofDifficulty ≠ 0 := by
  rw [show (plainLqc config).config.proofDifficulty = 1 from idling.difficulty]
  exact Nat.one_ne_zero

theorem Idling.pace (idling : Idling config spacing last) : spacing ≠ 0 := by
  have seconds : config.targetBlockSeconds ≠ 0 := secondsOr_ne_zero (by decide)
  have due := idling.due
  omega

theorem Idling.enabled (idling : Idling config spacing last) {number : Nat} (started : 1 ≤ number) :
    (plainLqc config).config.registryProtocolEnabled number = true := by
  unfold LqcConfig.registryProtocolEnabled forkActive
  rw [show (plainLqc config).config.registryProtocolBlock = 1 from idling.registry]
  exact decide_eq_true ⟨Nat.one_ne_zero, started⟩

theorem Idling.exists_idle (idling : Idling config spacing last) (some : 1 ≤ last)
    (young : last ≤ 2 * workProtocolEpochLengthV1) :
    ∃ entry rest state, entry.header.number = last ∧ entry.header.time = last * spacing ∧
      (∃ newer, entry :: rest = newer ++ [(plainLqc config).genesisEntry plainGenesis]) ∧
      Tip (plainLqc config) entry rest state [] (openedRegistry 1) := by
  have nonzero := nonceCrypto_keccak256_ne_zero
  have seals := plainLqc_seals config Nat.one_ne_zero (by decide)
  have short := idling.short
  obtain ⟨first, _, number, time, opened, _⟩ := @exists_opened (plainLqc config) plainGenesis 1 _ spacing nonzero
    idling.positive seals idling.due rfl (show 0 + spacing ≤ maxUint64 by unfold maxUint64; omega) idling.registry
    idling.nobody (idling.early 1 some).1 idling.plain.1 idling.plain.2.1 idling.plain.2.2
  have bound : last ≤ 256 := young
  have fits : (last - 1) * spacing ≤ 256 * 1000 := Nat.mul_le_mul (by omega) short
  obtain ⟨entry, below, newer, state, tip, longer, entryNumber, entryTime⟩ := opened.idles nonzero idling.positive
    seals idling.due idling.calm (by rw [number]; exact Nat.one_ne_zero) rfl rfl (last - 1)
    (by rw [number]; omega)
    (fun block above small => ⟨idling.enabled (by omega), idling.early block (by omega)⟩)
    (by rw [time]; unfold maxUint64; show 0 + spacing + _ ≤ _; omega)
  refine ⟨entry, below, state, by omega, ?_, ⟨newer ++ [first], by rw [longer, List.append_assoc]; rfl⟩, tip⟩
  rw [entryTime, time]
  show 0 + spacing + (last - 1) * spacing = last * spacing
  obtain ⟨before, rfl⟩ := Nat.exists_eq_add_of_le some
  rw [Nat.add_sub_cancel_left, Nat.add_mul, Nat.zero_add, Nat.one_mul]

end Idling

/-! ### Selections by seat -/

section Select

variable {registry : CanonicalRegistry} {tickets : List VerifiedRandomXWorkTicketV1} {draft : Header}
  {source : WorkEpochSnapshotV1}

variable {crypto : Crypto} {chainID epoch : Nat}

theorem exists_datasetKey {anchor : Hash} (nonzero : ∀ bytes, crypto.keccak256 bytes ≠ 0) (chain : chainID ≠ 0)
    (started : epoch ≠ 0) (anchored : anchor ≠ 0) :
    ∃ key, randomXWorkDatasetKeyV1 crypto chainID epoch anchor = .ok key ∧ key ≠ 0 := by
  unfold randomXWorkDatasetKeyV1
  simp only [ensure_bind_ok_iff, Except.ok.injEq]
  exact ⟨_, ⟨chain, started, anchored, rfl⟩, nonzero _⟩

theorem WorkChainSnapshotV1.Valid.electing {snapshot : WorkChainSnapshotV1}
    (nonzero : ∀ bytes, crypto.keccak256 bytes ≠ 0) (valid : snapshot.Valid crypto chainID)
    (present : snapshot.selection = some source) : SeatSet source.seats ∧ source.epoch ≠ 0 ∧ source.root ≠ 0 := by
  have checked := valid.selection
  rw [present] at checked
  simp only [validateSelectionPart, bind_ok_iff, exists_unit, Prod.exists,
    WorkChainSnapshotV1.validateWorkEpochState_ok_iff, workEpochRootV1_ok_iff, ensure_ok_iff] at checked
  obtain ⟨⟨fields, set, _⟩, root, _, ⟨_, _, rooted, rfl⟩, same⟩ := checked
  refine ⟨set, fields.1, ?_⟩
  rw [← same, rooted]
  exact nonzero _

theorem Tip.electing (nonzero : ∀ bytes, lqc.crypto.keccak256 bytes ≠ 0)
    (tip : Tip lqc parent rest state tickets registry) (late : 2 * workProtocolEpochLengthV1 ≤ parent.header.number) :
    ∃ source, state.work.selection = some source ∧ source.epoch + 1 = state.openEpoch ∧
      SeatSet source.seats ∧ source.root ≠ 0 ∧
      source.seats.Perm ((ticketsBefore tickets state.openEpoch).map (·.seat)) := by
  have had := (tip.accepted.runtimes tip.runtime).1
  have started : 2 ≤ state.openEpoch := by
    rw [had.openEpoch]
    exact (Nat.le_div_iff_mul_le (by decide)).mpr late
  rcases tip.scheduled.schedule.selection with ⟨_, early⟩ | ⟨source, present, follows, _⟩
  · omega
  · obtain ⟨set, _, root⟩ := had.valid.work.electing nonzero present
    have seats := tip.scheduled.schedule.closedSeats
    unfold WorkChainSnapshotV1.selectionSeats at seats
    rw [present] at seats
    exact ⟨source, present, follows, set, root, seats⟩

def roleCountsAt (config : LqcConfig) (seatCount blockNumber : Nat) : Nat × Nat :=
  workV1EngineLabRoleCounts seatCount config.hybridFallbackCount
    (config.workV1EngineLabCommitteeSize seatCount) (config.vrfForkLivenessActive blockNumber)

def seatRoles (config : LqcConfig) (registry : CanonicalRegistry) (seatCount blockNumber : Nat)
    (ordered : List WorkSeatV1) : HybridSelection :=
  let counts := roleCountsAt config seatCount blockNumber
  workV1EngineLabHybridSelection (config.filterCommitteeAt registry blockNumber
    (buildWorkSelectionFromOrderedSeatsV1 ordered counts.1 counts.2))

theorem exists_entropy {root key : Hash}
    (proofs : ∀ key input, ∃ entropy, crypto.randomX key input = some entropy ∧ entropy ≠ 0)
    (fields : chainID ≠ 0 ∧ epoch ≠ 0 ∧ root ≠ 0 ∧ key ≠ 0) :
    ∃ entropy, deriveWorkSelectionEntropyV1 crypto chainID epoch root key = .ok entropy ∧ entropy ≠ 0 := by
  obtain ⟨entropy, proof, nonzero⟩ := proofs key (Rlp.encode (.list
    [textItem "RABBIT-LQC-WORK-SELECTION-BEACON-V1", toItem randomXWorkProtocolVersion, natItem chainID,
      natItem epoch, toItem root, toItem key]))
  refine ⟨entropy, bind_ok_iff.mpr ⟨_, ensure_bind_ok_iff.mpr ⟨fields, rfl⟩, ?_⟩, nonzero⟩
  rw [proof]
  exact ensure_bind_ok_iff.mpr ⟨nonzero, rfl⟩

theorem Tip.exists_dataset (nonzero : ∀ bytes, lqc.crypto.keccak256 bytes ≠ 0)
    (tip : Tip lqc parent rest state tickets registry) (bounded : parent.header.number ≤ maxUint64)
    (present : state.work.selection = some source) : ∃ dataset key,
      workDatasetAnchorBlockV1 source.epoch state.work.epochLength = .ok (datasetNumber source.epoch) ∧
      Branch.ancestor? (parent :: rest) state.work.number (datasetNumber source.epoch) = some dataset ∧
      randomXWorkDatasetKeyV1 lqc.crypto lqc.chainID source.epoch (dataset.header.hash lqc.crypto) = .ok key ∧
      key ≠ 0 := by
  have had := (tip.accepted.runtimes tip.runtime).1
  obtain ⟨_, started, _⟩ := had.valid.work.electing nonzero present
  have follows : source.epoch + 1 = state.openEpoch := by
    rcases had.elects with ⟨none, _⟩ | ⟨_, some, follows, _⟩
    · cases none.symm.trans present
    · obtain rfl := Option.some.inj (present.symm.trans some)
      exact follows
  have openEpoch := had.openEpoch
  obtain ⟨dataset, member, datasetAt⟩ := tip.accepted.exists_number
    (show datasetNumber source.epoch ≤ parent.header.number by
      unfold datasetNumber workProtocolEpochLengthV1
      unfold workProtocolEpochLengthV1 at openEpoch
      split <;> omega)
  have small : source.epoch ≤ maxUint64 / workProtocolEpochLengthV1 := by
    have : state.openEpoch ≤ maxUint64 / workProtocolEpochLengthV1 := by
      rw [openEpoch]
      exact Nat.div_le_div_right bounded
    omega
  have found := tip.accepted.ancestor?_eq member (show dataset.header.number ≤ state.work.number by
    rw [had.number]
    rcases List.mem_cons.mp member with rfl | further
    · exact le_rfl
    · exact ((List.pairwise_cons.mp tip.accepted.numbers).1 dataset further).le)
  rw [datasetAt] at found
  obtain ⟨key, keyed, keyNonzero⟩ := @exists_datasetKey lqc.crypto lqc.chainID source.epoch
    (dataset.header.hash lqc.crypto) nonzero had.valid.work.fields.1 started (nonzero _)
  refine ⟨dataset, key, ?_, found, keyed, keyNonzero⟩
  rw [had.length]
  exact anchorBlock_eq started small

theorem Tip.selects_seats {identity : CanonicalParticipant} (nonzero : ∀ bytes, lqc.crypto.keccak256 bytes ≠ 0)
    (proofs : ∀ key input, ∃ entropy, lqc.crypto.randomX key input = some entropy ∧ entropy ≠ 0)
    (tip : Tip lqc parent rest state tickets registry) (number : draft.number = parent.header.number + 1)
    (late : 2 * workProtocolEpochLengthV1 ≤ parent.header.number)
    (present : state.work.selection = some source) (bounded : draft.number ≤ maxUint64)
    (only : registry.participants.filter CanonicalParticipant.isActivationIdentity = [identity])
    (seated : ∃ seat ∈ source.seats, seat.participant = identity.address)
    (orders : ∀ seed : Hash, seed ≠ 0 → ∃ ordered, ordered ≠ [] ∧
      lqc.config.orderSeatsAt registry lqc.crypto source.seats seed draft.number
        (1 + (roleCountsAt lqc.config source.seats.length draft.number).1 +
          (roleCountsAt lqc.config source.seats.length draft.number).2) = .ok ordered) :
    ∃ seed ordered, seed ≠ 0 ∧
      lqc.config.orderSeatsAt registry lqc.crypto source.seats seed draft.number
        (1 + (roleCountsAt lqc.config source.seats.length draft.number).1 +
          (roleCountsAt lqc.config source.seats.length draft.number).2) = .ok ordered ∧
      lqc.workSelectionForHeader (parent :: rest) draft state
        ⟨parent.header.number, parent.header.hash lqc.crypto, registry⟩ =
          .ok (seatRoles lqc.config registry source.seats.length draft.number ordered, true) := by
  have had := (tip.accepted.runtimes tip.runtime).1
  obtain ⟨set, started, root⟩ := had.valid.work.electing nonzero present
  have opened : RegistrySnapshot.open lqc.crypto
      ⟨parent.header.number, parent.header.hash lqc.crypto, registry⟩ = .ok registry :=
    RegistrySnapshot.open_ok_iff.mpr ⟨⟨nonzero _, nonzero _⟩, tip.clean, rfl⟩
  have follows : source.epoch + 1 = state.openEpoch := by
    rcases had.elects with ⟨none, _⟩ | ⟨_, some, follows, _⟩
    · cases none.symm.trans present
    · obtain rfl := Option.some.inj (present.symm.trans some)
      exact follows
  have openEpoch := had.openEpoch
  have elects : workSelectionSourceEpochV1 draft.number state.work.epochLength = .ok (some source.epoch) := by
    have later : ¬ parent.header.number / workProtocolEpochLengthV1 < 2 :=
      Nat.not_lt.mpr ((Nat.le_div_iff_mul_le (by decide)).mpr late)
    rw [number, workSelectionSourceEpochV1_succ had.valid.work.fields.2.2, had.length, if_neg later]
    congr 2
    omega
  have noLease : earlyLease lqc.crypto lqc.config
      ⟨parent.header.number, parent.header.hash lqc.crypto, registry⟩ draft source = .ok {} := by
    have lease : workV2EngineLabActivationLease lqc.crypto
        ⟨parent.header.number, parent.header.hash lqc.crypto, registry⟩ draft source.seats = .ok {} := by
      have owned : source.seats.any (·.participant = identity.address) = true := by
        obtain ⟨seat, member, same⟩ := seated
        exact List.any_eq_true.mpr ⟨seat, member, decide_eq_true same⟩
      refine bind_ok_iff.mpr ⟨_, activationSelection_few opened only le_rfl 0, ?_⟩
      simp only [List.map_singleton, HybridSelection.producer?, List.head?_cons, owned, if_true]
    unfold earlyLease
    rw [lease, ite_self]
  have chain := had.valid.work.fields.1
  obtain ⟨dataset, key, anchors, found, keyed, keyNonzero⟩ := tip.exists_dataset nonzero (by omega) present
  have block : draft.number ≠ 0 := by omega
  obtain ⟨seed, seeded, seedNonzero⟩ : ∃ seed, deterministicWorkSelectionSeedV1 lqc.crypto lqc.chainID source.epoch
      source.root key draft.number = .ok seed ∧ seed.2 ≠ 0 := by
    obtain ⟨entropy, derived, entropyNonzero⟩ := exists_entropy proofs ⟨chain, started, root, keyNonzero⟩
    exact ⟨_, bind_ok_iff.mpr ⟨_, derived,
      bind_ok_iff.mpr ⟨_, ensure_bind_ok_iff.mpr ⟨⟨chain, started, root, entropyNonzero, block⟩, rfl⟩, rfl⟩⟩, nonzero _⟩
  obtain ⟨ordered, called, order⟩ := orders seed.2 seedNonzero
  have some : source.seats ≠ [] := by
    obtain ⟨_, member, _⟩ := seated
    exact List.ne_nil_of_mem member
  have built : workV1EngineLabBuildSeatSelection lqc.crypto lqc.config lqc.chainID source.epoch source.root
      source.seats key draft.number registry =
        .ok (seatRoles lqc.config registry source.seats.length draft.number ordered, true) := by
    refine ensure_bind_ok_iff.mpr ⟨⟨chain, started, root, keyNonzero, block⟩, ?_⟩
    rw [if_neg some]
    refine ensure_bind_ok_iff.mpr ⟨set.nonzero, bind_ok_iff.mpr ⟨_, seeded,
      bind_ok_iff.mpr ⟨_, order, ?_⟩⟩⟩
    rw [if_neg fun idle => called idle.1]
    rfl
  have seats : seatSelectionForHeader lqc.crypto lqc.config lqc.chainID
      (fun number => (Branch.ancestor? (parent :: rest) state.work.number number).map (·.header.hash lqc.crypto))
      state ⟨parent.header.number, parent.header.hash lqc.crypto, registry⟩ draft source =
        .ok (seatRoles lqc.config registry source.seats.length draft.number ordered, true) := by
    refine bind_ok_iff.mpr ⟨_, anchors, ?_⟩
    dsimp only
    rw [found]
    exact bind_ok_iff.mpr ⟨_, keyed, bind_ok_iff.mpr ⟨_, opened, built⟩⟩
  refine ⟨seed.2, ordered, seedNonzero, order, ?_⟩
  unfold LQC.workSelectionForHeader workV1EngineLabSelectionForHeader
  refine ensure_bind_ok_iff.mpr ⟨block, bind_ok_iff.mpr ⟨_, elects, ?_⟩⟩
  rw [present]
  refine ensure_bind_ok_iff.mpr ⟨⟨rfl, root⟩, bind_ok_iff.mpr ⟨_, noLease, ?_⟩⟩
  simp only [HybridSelection.producer?, List.head?_nil, Option.isSome_none, Bool.and_false, Bool.false_eq_true,
    if_false]
  exact bind_ok_iff.mpr ⟨_, seats, rfl⟩

theorem seatRoles_ordered (config : LqcConfig) (registry : CanonicalRegistry) (seatCount blockNumber : Nat)
    (ordered : List WorkSeatV1) :
    (seatRoles config registry seatCount blockNumber ordered).ordered = ordered.map (·.participant) := by
  show (config.filterCommitteeAt registry blockNumber _).ordered.map _ = _
  rw [filterCommitteeAt_ordered]
  rfl

end Select

/-! ### The first election -/

theorem nonceCrypto_proves (key : Hash) (input : Bytes) :
    ∃ entropy, nonceCrypto.randomX key input = some entropy ∧ entropy ≠ 0 := by
  refine ⟨_, nonceCrypto_randomX key input, Word.ofNat_ne_zero (by omega) ?_⟩
  have byte := (input.getLastD 0).toNat_lt
  exact (show max 1 (input.getLastD 0).toNat < 256 by omega).trans (by decide)

end RabbitLqc
