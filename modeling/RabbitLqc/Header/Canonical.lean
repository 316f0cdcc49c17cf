import RabbitLqc.Header.RoundTrip

/-!
# Header codecs are canonical

Every envelope version has one byte string for one content: the encoder fixes the order of each
list, the decoder accepts nothing else, and neither looks at the seal.
-/

namespace RabbitLqc
open Lib RlpCodec

variable {left right : List CommitteeParticipationClaimGroupV1} {inclusionBlock : Nat} {α : Type} {mark : Bytes}

structure HeaderContent where
  blockNumber : UInt64
  registryRoot : Hash
  workStateRoot : Hash := 0
  committeeClaimRoot : Hash := 0
  registryOperations : List RegistryOperation
  workTickets : List SignedRandomXWorkTicketV1 := []
  committeeClaims : List CommitteeParticipationClaimGroupV1 := []
  vrfKeysetCertificates : List RabbitVRFKeysetCertificateV1 := []
  vrfFinalizations : List RabbitVRFFinalizationV1 := []

/-! ### The four versions -/

namespace HeaderContent

variable (content : HeaderContent)

def encodeV2 : Except LqcError Bytes :=
  encodeRegistryHeaderExtra content.blockNumber content.registryRoot content.registryOperations

def encodeV3 (maxWorkTickets : Nat) : Except LqcError Bytes :=
  encodeLQCHeaderExtraV3 content.blockNumber content.registryRoot content.workStateRoot
    content.registryOperations content.workTickets maxWorkTickets

def encodeV4 (maxWorkTickets : Nat) : Except LqcError Bytes :=
  encodeLQCHeaderExtraV4 content.blockNumber content.registryRoot content.workStateRoot
    content.committeeClaimRoot content.registryOperations content.workTickets content.committeeClaims
    maxWorkTickets

def encodeV5 (maxWorkTickets : Nat) : Except LqcError Bytes :=
  encodeLQCHeaderExtraV5 content.blockNumber content.registryRoot content.workStateRoot
    content.committeeClaimRoot content.registryOperations content.workTickets content.committeeClaims
    content.vrfKeysetCertificates content.vrfFinalizations maxWorkTickets

/-! The canonical form: the same fields with every list in order. -/

def formV2 : RegistryHeaderEnvelope :=
  registryEnvelope content.blockNumber content.registryRoot
    (canonicalRegistryOperations content.registryOperations)

def formV3 : LQCHeaderEnvelopeV3 :=
  ⟨3, content.blockNumber, content.registryRoot, content.workStateRoot,
    canonicalRegistryOperations content.registryOperations,
    sortOn SignedRandomXWorkTicketV1.orderKey content.workTickets⟩

def formV4 : LQCHeaderEnvelopeV4 :=
  ⟨4, content.blockNumber, content.registryRoot, content.workStateRoot, content.committeeClaimRoot,
    canonicalRegistryOperations content.registryOperations,
    sortOn SignedRandomXWorkTicketV1.orderKey content.workTickets,
    canonicalGroups content.committeeClaims⟩

def formV5 : LQCHeaderEnvelopeV5 :=
  ⟨5, content.blockNumber, content.registryRoot, content.workStateRoot, content.committeeClaimRoot,
    canonicalRegistryOperations content.registryOperations,
    sortOn SignedRandomXWorkTicketV1.orderKey content.workTickets,
    canonicalGroups content.committeeClaims, content.vrfKeysetCertificates,
    RabbitVRFFinalizationV1.sorted content.vrfFinalizations⟩

end HeaderContent

/-! The content of a decoded envelope. -/

def RegistryHeaderEnvelope.content (envelope : RegistryHeaderEnvelope) : HeaderContent where
  blockNumber := envelope.blockNumber
  registryRoot := envelope.registryRoot
  registryOperations := envelope.operations

def LQCHeaderEnvelopeV3.content (envelope : LQCHeaderEnvelopeV3) : HeaderContent where
  blockNumber := envelope.blockNumber
  registryRoot := envelope.registryRoot
  workStateRoot := envelope.workStateRoot
  registryOperations := envelope.registryOperations
  workTickets := envelope.workTickets

def LQCHeaderEnvelopeV4.content (envelope : LQCHeaderEnvelopeV4) : HeaderContent where
  blockNumber := envelope.blockNumber
  registryRoot := envelope.registryRoot
  workStateRoot := envelope.workStateRoot
  committeeClaimRoot := envelope.committeeClaimRoot
  registryOperations := envelope.registryOperations
  workTickets := envelope.workTickets
  committeeClaims := envelope.committeeParticipationClaims

def LQCHeaderEnvelopeV5.content (envelope : LQCHeaderEnvelopeV5) : HeaderContent where
  blockNumber := envelope.blockNumber
  registryRoot := envelope.registryRoot
  workStateRoot := envelope.workStateRoot
  committeeClaimRoot := envelope.committeeClaimRoot
  registryOperations := envelope.registryOperations
  workTickets := envelope.workTickets
  committeeClaims := envelope.committeeParticipationClaims
  vrfKeysetCertificates := envelope.rabbitVRFKeysetCertificates
  vrfFinalizations := envelope.rabbitVRFFinalizations

/-! ### Permuted content -/

/-- The same claims: the groups in another order, and the proofs of each in another order. -/
def ClaimsPermuted (left right : List CommitteeParticipationClaimGroupV1) : Prop :=
  ∃ between, left.Perm between ∧ List.Forall₂ (fun group other =>
    group.targetBlock = other.targetBlock ∧ group.participations.Perm other.participations) between right

/-- The same content with every list in some other order. -/
structure HeaderContent.Permuted (left right : HeaderContent) : Prop where
  blockNumber : left.blockNumber = right.blockNumber
  registryRoot : left.registryRoot = right.registryRoot
  workStateRoot : left.workStateRoot = right.workStateRoot
  committeeClaimRoot : left.committeeClaimRoot = right.committeeClaimRoot
  operations : left.registryOperations.Perm right.registryOperations
  tickets : left.workTickets.Perm right.workTickets
  claims : ClaimsPermuted left.committeeClaims right.committeeClaims
  certificates : left.vrfKeysetCertificates.Perm right.vrfKeysetCertificates
  finalizations : left.vrfFinalizations.Perm right.vrfFinalizations

theorem operations_keys_nodup {operations : List RegistryOperation}
    (valid : HeaderOperations (canonicalRegistryOperations operations)) :
    (operations.map RegistryOperation.orderKey).Nodup := by
  refine sortOn_neighbours_iff.mp (valid.slots.imp fun before operation apart same => apart ?_)
  -- the key starts with the slot
  have address := congrArg (·[0]?) same
  have sequence := congrArg (·[1]?) same
  simp only [RegistryOperation.orderKey, List.cons_append, List.getElem?_cons_zero,
    List.getElem?_cons_succ, Option.some.injEq] at address sequence
  exact Prod.ext (BitVec.toNat_inj.mp address) (UInt64.toNat_inj.mp sequence)

theorem canonicalRegistryOperations_perm {left right : List RegistryOperation} (perm : left.Perm right)
    (valid : HeaderOperations (canonicalRegistryOperations left)) :
    canonicalRegistryOperations left = canonicalRegistryOperations right :=
  sortOn_eq_of_perm perm (operations_keys_nodup valid)

theorem tickets_perm {limit : Nat} {left right : List SignedRandomXWorkTicketV1}
    (perm : left.Perm right) (valid : TicketList limit left) :
    TicketList limit right ∧ sortOn SignedRandomXWorkTicketV1.orderKey left =
      sortOn SignedRandomXWorkTicketV1.orderKey right := by
  refine ⟨⟨perm.length_eq ▸ valid.capacity,
    fun signed member => valid.shapes signed (perm.mem_iff.mpr member),
    (perm.map _).nodup_iff.mp valid.participants⟩, sortOn_eq_of_perm perm ?_⟩
  refine List.pairwise_map.mpr ((List.pairwise_map.mp valid.participants).imp fun apart same => apart ?_)
  have participant := congrArg (·[1]?) same
  simp only [SignedRandomXWorkTicketV1.orderKey, List.cons_append, List.getElem?_cons_zero,
    List.getElem?_cons_succ, Option.some.injEq] at participant
  exact BitVec.toNat_inj.mp participant

theorem finalizations_perm {left right : List RabbitVRFFinalizationV1} (perm : left.Perm right)
    (valid : FinalizationList left) :
    FinalizationList right ∧
      RabbitVRFFinalizationV1.sorted left = RabbitVRFFinalizationV1.sorted right := by
  refine ⟨⟨fun value member => valid.each value (perm.mem_iff.mpr member),
    (perm.map _).nodup_iff.mp valid.requests⟩, sortOn_eq_of_perm perm ?_⟩
  exact List.pairwise_map.mpr ((List.pairwise_map.mp valid.requests).imp fun apart same =>
    apart (BitVec.toNat_inj.mp same))

/-! Claims permute on two levels. -/

theorem validClaimGroups_perm (perm : left.Perm right) (valid : ValidClaimGroups inclusionBlock left) :
    ValidClaimGroups inclusionBlock right ∧ canonicalGroups left = canonicalGroups right := by
  have targets := (perm.map (·.target)).nodup_iff.mp valid.targets
  refine ⟨⟨valid.inclusion, fun group member => valid.each group (perm.mem_iff.mpr member), targets, ?_⟩,
    sortOn_eq_of_perm (perm.map _) ?_⟩
  · rw [claimCount, ← (perm.map _).sum_eq]
    exact valid.count
  · rw [List.map_map]
    exact valid.targets

theorem group_valid_perm {group other : CommitteeParticipationClaimGroupV1}
    (target : group.targetBlock = other.targetBlock) (perm : group.participations.Perm other.participations)
    (valid : group.Valid inclusionBlock) : other.Valid inclusionBlock ∧ group.sorted = other.sorted := by
  have same : group.target = other.target := congrArg UInt64.toNat target
  refine ⟨⟨same ▸ valid.positive, same ▸ valid.past, same ▸ valid.inWindow,
    fun empty => valid.nonempty (List.Perm.eq_nil (empty ▸ perm)),
    fun item member => valid.position_lt item (perm.mem_iff.mpr member),
    fun item member => valid.signature_length item (perm.mem_iff.mpr member),
    (perm.map _).nodup_iff.mp valid.distinct⟩, ?_⟩
  have keys : (group.participations.map fun item => item.position.toNat).Nodup :=
    List.pairwise_map.mpr ((List.pairwise_map.mp valid.distinct).imp fun apart equal =>
      apart (UInt8.toNat_inj.mp equal))
  unfold CommitteeParticipationClaimGroupV1.sorted
  rw [sortOn_eq_of_perm perm keys, target]

theorem groups_forall₂ (related : List.Forall₂ (fun group other => group.targetBlock = other.targetBlock ∧
        group.participations.Perm other.participations) left right)
    (each : ∀ group ∈ left, group.Valid inclusionBlock) :
    (∀ group ∈ right, group.Valid inclusionBlock) ∧
      left.map (·.sorted) = right.map (·.sorted) ∧ left.map (·.target) = right.map (·.target) ∧
      claimCount left = claimCount right := by
  induction related with
  | nil => simp
  | cons head _ ih =>
    obtain ⟨target, perm⟩ := head
    obtain ⟨first, rest⟩ := List.forall_mem_cons.mp each
    obtain ⟨valid, sorted⟩ := group_valid_perm target perm first
    obtain ⟨others, forms, targets, count⟩ := ih rest
    refine ⟨List.forall_mem_cons.mpr ⟨valid, others⟩, ?_, ?_, ?_⟩
    · rw [List.map_cons, List.map_cons, sorted, forms]
    · rw [List.map_cons, List.map_cons, targets]
      unfold CommitteeParticipationClaimGroupV1.target
      rw [target]
    · unfold claimCount at count ⊢
      rw [List.map_cons, List.map_cons, List.sum_cons, List.sum_cons, count, perm.length_eq]

theorem claims_perm (permuted : ClaimsPermuted left right) (valid : ValidClaimGroups inclusionBlock left) :
    ValidClaimGroups inclusionBlock right ∧ canonicalGroups left = canonicalGroups right ∧
      (left = [] ↔ right = []) := by
  obtain ⟨between, perm, related⟩ := permuted
  obtain ⟨middle, forms⟩ := validClaimGroups_perm perm valid
  obtain ⟨each, sorted, targets, count⟩ := groups_forall₂ related middle.each
  have same : canonicalGroups left = canonicalGroups right := by
    rw [forms]
    unfold canonicalGroups
    rw [sorted]
  refine ⟨⟨middle.inclusion, each, targets ▸ middle.targets, count ▸ middle.count⟩, same, ?_⟩
  rw [← canonicalGroups_eq_nil_iff, same, canonicalGroups_eq_nil_iff]

theorem ClaimsPermuted.symm (permuted : ClaimsPermuted left right) : ClaimsPermuted right left := by
  obtain ⟨between, perm, related⟩ := permuted
  obtain ⟨moved, paired, shuffled⟩ := List.perm_comp_forall₂ perm related
  refine ⟨moved, shuffled.symm, (paired.imp fun group other same => ?_).flip⟩
  exact ⟨same.1.symm, same.2.symm⟩

theorem HeaderContent.Permuted.symm {left right : HeaderContent} (permuted : left.Permuted right) :
    right.Permuted left :=
  ⟨permuted.blockNumber.symm, permuted.registryRoot.symm, permuted.workStateRoot.symm,
    permuted.committeeClaimRoot.symm, permuted.operations.symm, permuted.tickets.symm,
    permuted.claims.symm, permuted.certificates.symm, permuted.finalizations.symm⟩

/-! ### One byte string for one content -/

/-- An encoder and a decoder that agree on one byte string for one content, `Passed` being what
callers pass to the encoder. -/
structure CanonicalCodec {ε : Type} (encode : HeaderContent → Except LqcError Bytes)
    (decode : Bytes → Except LqcError ε) (form : HeaderContent → ε) (content : ε → HeaderContent)
    (Passed : HeaderContent → Prop) : Prop where
  round_trip : ∀ input extra, Passed input → encode input = .ok extra → decode extra = .ok (form input)
  permuted : ∀ left right extra, Passed left → left.Permuted right →
    (encode left = .ok extra ↔ encode right = .ok extra)
  any_seal : ∀ payload mark other, mark.length = producerSealLength → other.length = producerSealLength →
    decode (payload ++ mark) = decode (payload ++ other)
  reencodes : ∀ extra envelope, decode extra = .ok envelope → ∃ again payload mark,
    encode (content envelope) = .ok again ∧ splitProducerSeal extra = some (payload, mark) ∧
      splitProducerSeal again = some (payload, List.replicate producerSealLength 0)

theorem openExtra_any_seal [RlpCodec α] {invalid : LqcError} {payload other : Bytes}
    (length : mark.length = producerSealLength) (otherLength : other.length = producerSealLength) :
    (openExtra invalid (payload ++ mark) : Except LqcError (Bytes × α)) =
      openExtra invalid (payload ++ other) := by
  unfold openExtra
  rw [splitProducerSeal_append length, splitProducerSeal_append otherLength, List.length_append,
    List.length_append, length, otherLength]

theorem reencodes_of_framed [RlpCodec α] {extra again : Bytes} {envelope : α}
    (length : mark.length = producerSealLength) (framed : extra = framedPayload envelope ++ mark)
    (encoded : again = appendEmptyProducerSeal (framedPayload envelope)) :
    ∃ payload mark, splitProducerSeal extra = some (payload, mark) ∧
      splitProducerSeal again = some (payload, List.replicate producerSealLength 0) := by
  refine ⟨framedPayload envelope, mark, ?_, ?_⟩
  · rw [framed, splitProducerSeal_append length]
  · rw [encoded, splitProducerSeal_empty]

section Codecs

variable {left right content : HeaderContent} {extra : Bytes} {limit : Nat}

variable {operations : List RegistryOperation}

/-! Permuted content encodes alike: one direction for each version, the other by symmetry. -/

theorem encodeV2_permuted (permuted : left.Permuted right) (encoded : left.encodeV2 = .ok extra) :
    right.encodeV2 = .ok extra := by
  unfold HeaderContent.encodeV2 at encoded ⊢
  obtain ⟨root, valid, same⟩ := encodeRegistryHeaderExtra_ok_iff.mp encoded
  have operations := canonicalRegistryOperations_perm permuted.operations valid
  refine encodeRegistryHeaderExtra_ok_iff.mpr ⟨permuted.registryRoot ▸ root, operations ▸ valid, ?_⟩
  rw [same, permuted.blockNumber, permuted.registryRoot, operations]

theorem encodeV3_permuted (permuted : left.Permuted right) (encoded : left.encodeV3 limit = .ok extra) :
    right.encodeV3 limit = .ok extra := by
  unfold HeaderContent.encodeV3 at encoded ⊢
  obtain ⟨roots, positive, valid, tickets, fits, same⟩ := encodeLQCHeaderExtraV3_ok_iff.mp encoded
  have operations := canonicalRegistryOperations_perm permuted.operations valid
  obtain ⟨listed, order⟩ := tickets_perm permuted.tickets tickets
  rw [permuted.blockNumber, permuted.registryRoot, permuted.workStateRoot] at roots
  rw [permuted.blockNumber, permuted.registryRoot, permuted.workStateRoot, operations, order] at fits same
  exact encodeLQCHeaderExtraV3_ok_iff.mpr ⟨roots, positive, operations ▸ valid, listed, fits, same⟩

theorem encodeV4_permuted (permuted : left.Permuted right) (encoded : left.encodeV4 limit = .ok extra) :
    right.encodeV4 limit = .ok extra := by
  unfold HeaderContent.encodeV4 at encoded ⊢
  obtain ⟨roots, valid, tickets, claims, room, fits, same⟩ := encodeLQCHeaderExtraV4_ok_iff.mp encoded
  have operations := canonicalRegistryOperations_perm permuted.operations valid
  obtain ⟨listed, order⟩ := tickets_perm permuted.tickets tickets
  obtain ⟨groups, forms, empty⟩ := claims_perm permuted.claims claims
  rw [permuted.blockNumber, permuted.registryRoot, permuted.workStateRoot,
    permuted.committeeClaimRoot] at roots
  rw [permuted.blockNumber] at groups
  rw [ne_eq, empty, permuted.operations.length_eq] at room
  rw [permuted.blockNumber, permuted.registryRoot, permuted.workStateRoot, permuted.committeeClaimRoot,
    operations, order, forms] at fits same
  exact encodeLQCHeaderExtraV4_ok_iff.mpr
    ⟨roots, operations ▸ valid, listed, groups, room, fits, same⟩

theorem encodeV5_permuted (single : left.vrfKeysetCertificates.length ≤ 1)
    (permuted : left.Permuted right) (encoded : left.encodeV5 limit = .ok extra) :
    right.encodeV5 limit = .ok extra := by
  unfold HeaderContent.encodeV5 at encoded ⊢
  obtain ⟨roots, few, valid, tickets, claims, room, final, fits, same⟩ :=
    encodeLQCHeaderExtraV5_ok_iff.mp encoded
  have operations := canonicalRegistryOperations_perm permuted.operations valid
  obtain ⟨listed, order⟩ := tickets_perm permuted.tickets tickets
  obtain ⟨groups, forms, empty⟩ := claims_perm permuted.claims claims
  obtain ⟨finals, finalOrder⟩ := finalizations_perm permuted.finalizations final
  have certificates : left.vrfKeysetCertificates = right.vrfKeysetCertificates := by
    have perm := permuted.certificates
    rcases Nat.le_one_iff_eq_zero_or_eq_one.mp single with none | one
    · rw [List.length_eq_zero_iff.mp none] at perm ⊢
      exact perm.nil_eq
    · obtain ⟨certificate, same⟩ := List.length_eq_one_iff.mp one
      rw [same] at perm ⊢
      exact (List.perm_singleton.mp perm.symm).symm
  rw [permuted.blockNumber, permuted.registryRoot, permuted.workStateRoot,
    permuted.committeeClaimRoot] at roots
  rw [permuted.finalizations.length_eq] at few
  rw [permuted.blockNumber] at groups
  rw [ne_eq, empty, permuted.operations.length_eq] at room
  rw [permuted.blockNumber, permuted.registryRoot, permuted.workStateRoot, permuted.committeeClaimRoot,
    operations, order, forms, certificates, finalOrder] at fits same
  exact encodeLQCHeaderExtraV5_ok_iff.mpr
    ⟨roots, few, operations ▸ valid, listed, groups, room, finals, fits, same⟩

theorem listedWork_of_encoded {tickets : List SignedRandomXWorkTicketV1}
    (valid : HeaderOperations (canonicalRegistryOperations operations)) (listed : TicketList limit tickets) :
    ListedWork limit (canonicalRegistryOperations operations)
      (sortOn SignedRandomXWorkTicketV1.orderKey tickets) :=
  ⟨valid, canonicalRegistryOperations_idem operations, listed.sorted, sortOn_sortOn⟩

theorem listedClaims_of_encoded {blockNumber : UInt64} {claims : List CommitteeParticipationClaimGroupV1}
    (groups : ValidClaimGroups blockNumber.toNat claims)
    (room : claims ≠ [] → operations.length ≤ maxRegistryOperationsWithCommitteeClaimsV1) :
    ListedClaims blockNumber (canonicalRegistryOperations operations) (canonicalGroups claims) := by
  refine ⟨groups.canonical, canonicalGroups_idem claims, fun some => ?_⟩
  rw [length_canonicalRegistryOperations]
  exact room fun none => some (canonicalGroups_eq_nil_iff.mpr none)

theorem canonicalCodecV2 : CanonicalCodec HeaderContent.encodeV2 decodeRegistryHeaderExtra
    HeaderContent.formV2 RegistryHeaderEnvelope.content fun _ => True where
  round_trip input extra _ encoded := decodeRegistryHeaderExtra_encode encoded
  permuted left right extra _ permuted :=
    ⟨encodeV2_permuted permuted, encodeV2_permuted permuted.symm⟩
  any_seal payload mark other length otherLength := by
    unfold decodeRegistryHeaderExtra
    rw [openExtra_any_seal length otherLength]
  reencodes extra envelope decoded := by
    unfold decodeRegistryHeaderExtra at decoded
    obtain ⟨⟨payload, found⟩, opened, decoded⟩ := bind_ok decoded
    iterate 4 obtain ⟨_, _, decoded⟩ := bind_ok decoded
    obtain ⟨again, encoded, decoded⟩ := bind_ok decoded
    obtain ⟨_, same, decoded⟩ := bind_ok decoded
    obtain rfl := Except.ok.inj decoded
    obtain ⟨mark, length, framed⟩ := openExtra_ok opened
    obtain ⟨_, _, written⟩ := encodeRegistryHeaderExtra_ok_iff.mp encoded
    rw [written] at same
    refine ⟨again, payload, mark, encoded, ?_, ?_⟩
    · rw [framed, splitProducerSeal_append length]
    · rw [written, sameEnvelope_ok_iff.mp same, splitProducerSeal_empty]

theorem canonicalCodecV3 (limit : Nat) : CanonicalCodec (HeaderContent.encodeV3 · limit)
    (decodeLQCHeaderExtraV3 · limit) HeaderContent.formV3 LQCHeaderEnvelopeV3.content fun _ => True where
  round_trip input extra _ encoded := by
    obtain ⟨roots, positive, valid, tickets, fits, same⟩ := encodeLQCHeaderExtraV3_ok_iff.mp encoded
    exact (decodeLQCHeaderExtraV3_ok_iff positive).mpr
      ⟨⟨rfl, roots, listedWork_of_encoded valid tickets, fits⟩, _, List.length_replicate, same⟩
  permuted left right extra _ permuted :=
    ⟨encodeV3_permuted permuted, encodeV3_permuted permuted.symm⟩
  any_seal payload mark other length otherLength := by
    unfold decodeLQCHeaderExtraV3
    rw [openExtra_any_seal length otherLength]
  reencodes extra envelope decoded := by
    have positive : limit ≠ 0 := ensure_ok_iff.mp (bind_ok decoded).choose_spec.1
    obtain ⟨⟨version, roots, work, fits⟩, mark, length, framed⟩ :=
      (decodeLQCHeaderExtraV3_ok_iff positive).mp decoded
    have form : envelope.content.formV3 = envelope := by
      unfold HeaderContent.formV3 LQCHeaderEnvelopeV3.content
      rw [work.operationOrder, work.ticketOrder, ← version]
    obtain ⟨payload, mark, whole, again⟩ := reencodes_of_framed length framed rfl
    refine ⟨_, payload, mark, encodeLQCHeaderExtraV3_ok_iff.mpr ?_, whole, again⟩
    change _ ∧ _ ∧ _ ∧ _ ∧ framedSize envelope.content.formV3 ≤ _ ∧
      _ = appendEmptyProducerSeal (framedPayload envelope.content.formV3)
    rw [form]
    exact ⟨roots, positive, work.operationOrder.symm ▸ work.validOperations, work.validTickets, fits, rfl⟩

theorem canonicalCodecV4 (limit : Nat) : CanonicalCodec (HeaderContent.encodeV4 · limit)
    (decodeLQCHeaderExtraV4 · limit) HeaderContent.formV4 LQCHeaderEnvelopeV4.content fun _ => True where
  round_trip input extra _ encoded := by
    obtain ⟨⟨number, root, work, claim, positive⟩, valid, tickets, groups, room, fits, same⟩ :=
      encodeLQCHeaderExtraV4_ok_iff.mp encoded
    exact (decodeLQCHeaderExtraV4_ok_iff positive).mpr ⟨⟨rfl, ⟨number, root, work, claim⟩,
      listedWork_of_encoded valid tickets, listedClaims_of_encoded groups room, fits⟩, _,
      List.length_replicate, same⟩
  permuted left right extra _ permuted :=
    ⟨encodeV4_permuted permuted, encodeV4_permuted permuted.symm⟩
  any_seal payload mark other length otherLength := by
    unfold decodeLQCHeaderExtraV4
    rw [openExtra_any_seal length otherLength]
  reencodes extra envelope decoded := by
    have positive : limit ≠ 0 := ensure_ok_iff.mp (bind_ok decoded).choose_spec.1
    obtain ⟨⟨version, ⟨number, root, state, claim⟩, work, claims, fits⟩, mark, length, framed⟩ :=
      (decodeLQCHeaderExtraV4_ok_iff positive).mp decoded
    have form : envelope.content.formV4 = envelope := by
      unfold HeaderContent.formV4 LQCHeaderEnvelopeV4.content
      rw [work.operationOrder, work.ticketOrder, claims.order, ← version]
    obtain ⟨payload, mark, whole, again⟩ := reencodes_of_framed length framed rfl
    refine ⟨_, payload, mark, encodeLQCHeaderExtraV4_ok_iff.mpr ?_, whole, again⟩
    change _ ∧ _ ∧ _ ∧ _ ∧ _ ∧ framedSize envelope.content.formV4 ≤ _ ∧
      _ = appendEmptyProducerSeal (framedPayload envelope.content.formV4)
    rw [form]
    exact ⟨⟨number, root, state, claim, positive⟩, work.operationOrder.symm ▸ work.validOperations,
      work.validTickets, claims.groups, claims.capacity, fits, rfl⟩

def HeaderContent.OneCertificate (bls : Bls) (content : HeaderContent) : Prop :=
  content.vrfKeysetCertificates.length ≤ maxRabbitVRFKeysetCertificatesPerBlockV1 ∧
    ∀ certificate ∈ content.vrfKeysetCertificates,
      validateRabbitVRFKeysetCertificateShapeV1 bls certificate = .ok ()

theorem HeaderContent.OneCertificate.permuted {bls : Bls} (passed : left.OneCertificate bls)
    (permuted : left.Permuted right) : right.OneCertificate bls :=
  ⟨permuted.certificates.length_eq ▸ passed.1,
    fun certificate member => passed.2 certificate (permuted.certificates.mem_iff.mpr member)⟩

theorem canonicalCodecV5 (bls : Bls) (limit : Nat) : CanonicalCodec (HeaderContent.encodeV5 · limit)
    (decodeLQCHeaderExtraV5 bls · limit) HeaderContent.formV5 LQCHeaderEnvelopeV5.content
    (HeaderContent.OneCertificate bls) where
  round_trip input extra passed encoded := by
    obtain ⟨⟨number, root, work, claim, positive⟩, few, valid, tickets, groups, room, final, fits, same⟩ :=
      encodeLQCHeaderExtraV5_ok_iff.mp encoded
    have shuffled : (RabbitVRFFinalizationV1.sorted input.vrfFinalizations).Perm input.vrfFinalizations :=
      sortOn_perm
    obtain ⟨finals, finalOrder⟩ := finalizations_perm shuffled.symm final
    refine (decodeLQCHeaderExtraV5_ok_iff positive).mpr ⟨⟨rfl, ⟨number, root, work, claim⟩,
      listedWork_of_encoded valid tickets, listedClaims_of_encoded groups room, passed.1, passed.2, ?_,
      finals, finalOrder.symm, fits⟩, _, List.length_replicate, same⟩
    exact length_sortOn.trans_le few
  permuted left right extra passed permuted :=
    ⟨encodeV5_permuted passed.1 permuted,
      encodeV5_permuted (passed.permuted permuted).1 permuted.symm⟩
  any_seal payload mark other length otherLength := by
    unfold decodeLQCHeaderExtraV5
    rw [openExtra_any_seal length otherLength]
  reencodes extra envelope decoded := by
    have positive : limit ≠ 0 := ensure_ok_iff.mp (bind_ok decoded).choose_spec.1
    obtain ⟨⟨version, ⟨number, root, state, claim⟩, work, claims, _, _, few, finals, finalOrder, fits⟩,
      mark, length, framed⟩ := (decodeLQCHeaderExtraV5_ok_iff positive).mp decoded
    have form : envelope.content.formV5 = envelope := by
      unfold HeaderContent.formV5 LQCHeaderEnvelopeV5.content
      rw [work.operationOrder, work.ticketOrder, claims.order, finalOrder, ← version]
    obtain ⟨payload, mark, whole, again⟩ := reencodes_of_framed length framed rfl
    refine ⟨_, payload, mark, encodeLQCHeaderExtraV5_ok_iff.mpr ?_, whole, again⟩
    change _ ∧ _ ∧ _ ∧ _ ∧ _ ∧ _ ∧ _ ∧ framedSize envelope.content.formV5 ≤ _ ∧
      _ = appendEmptyProducerSeal (framedPayload envelope.content.formV5)
    rw [form]
    exact ⟨⟨number, root, state, claim, positive⟩, few, work.operationOrder.symm ▸ work.validOperations,
      work.validTickets, claims.groups, claims.capacity, finals, fits, rfl⟩

end Codecs

/-- All four envelope versions are canonical. -/
theorem headerCodecs_canonical (bls : Bls) (maxWorkTickets : Nat) :
    CanonicalCodec HeaderContent.encodeV2 decodeRegistryHeaderExtra HeaderContent.formV2
        RegistryHeaderEnvelope.content (fun _ => True) ∧
      CanonicalCodec (HeaderContent.encodeV3 · maxWorkTickets) (decodeLQCHeaderExtraV3 · maxWorkTickets)
        HeaderContent.formV3 LQCHeaderEnvelopeV3.content (fun _ => True) ∧
      CanonicalCodec (HeaderContent.encodeV4 · maxWorkTickets) (decodeLQCHeaderExtraV4 · maxWorkTickets)
        HeaderContent.formV4 LQCHeaderEnvelopeV4.content (fun _ => True) ∧
      CanonicalCodec (HeaderContent.encodeV5 · maxWorkTickets)
        (decodeLQCHeaderExtraV5 bls · maxWorkTickets) HeaderContent.formV5 LQCHeaderEnvelopeV5.content
        (HeaderContent.OneCertificate bls) :=
  ⟨canonicalCodecV2, canonicalCodecV3 maxWorkTickets, canonicalCodecV4 maxWorkTickets,
    canonicalCodecV5 bls maxWorkTickets⟩

end RabbitLqc
