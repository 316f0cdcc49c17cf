import RabbitLqc.Header.Envelope

/-!
# Envelopes round trip

For each version, which content its encoder takes, and that its decoder accepts exactly the
framed valid envelopes under any seal.
-/

namespace RabbitLqc
open Lib RlpCodec

variable {operations : List RegistryOperation} {u : Unit} {tickets : List SignedRandomXWorkTicketV1}
  {maxWorkTickets : Nat} {blockNumber : UInt64} {registryRoot workStateRoot committeeClaimRoot : Hash} {extra : Bytes}
  {claims : List CommitteeParticipationClaimGroupV1}

/-- The operations and tickets of an envelope, valid and in order. -/
structure ListedWork (maxWorkTickets : Nat) (operations : List RegistryOperation)
    (tickets : List SignedRandomXWorkTicketV1) : Prop where
  validOperations : HeaderOperations operations
  operationOrder : canonicalRegistryOperations operations = operations
  validTickets : TicketList maxWorkTickets tickets
  ticketOrder : sortOn SignedRandomXWorkTicketV1.orderKey tickets = tickets

/-- The claims of an envelope, valid and in order, with room left for the operations. -/
structure ListedClaims (blockNumber : UInt64) (operations : List RegistryOperation)
    (claims : List CommitteeParticipationClaimGroupV1) : Prop where
  groups : ValidClaimGroups blockNumber.toNat claims
  order : canonicalGroups claims = claims
  capacity : claims ≠ [] → operations.length ≤ maxRegistryOperationsWithCommitteeClaimsV1

theorem checkCanonicalOperations_ok_iff :
    checkCanonicalOperations operations = .ok u ↔
      HeaderOperations operations ∧ canonicalRegistryOperations operations = operations := by
  simp only [checkCanonicalOperations, bind_ok_iff, exists_unit, ensure_ok_iff,
    validateRegistryHeaderOperations_ok_iff]
  constructor
  · intro checks
    obtain ⟨valid, same⟩ := checks
    rw [same] at valid
    exact ⟨valid, same⟩
  · intro listed
    obtain ⟨valid, same⟩ := listed
    rw [same]
    exact ⟨valid, rfl⟩

theorem checkCanonicalTickets_ok_iff :
    checkCanonicalTickets tickets maxWorkTickets = .ok u ↔
      maxWorkTickets ≠ 0 ∧ TicketList maxWorkTickets tickets ∧
        sortOn SignedRandomXWorkTicketV1.orderKey tickets = tickets := by
  simp only [checkCanonicalTickets, bind_ok_iff, ensure_ok_iff, canonicalWorkTicketsV3_ok_iff]
  constructor
  · intro checks
    obtain ⟨_, ⟨limit, valid, rfl⟩, same⟩ := checks
    exact ⟨limit, valid, same⟩
  · intro listed
    obtain ⟨limit, valid, same⟩ := listed
    exact ⟨_, ⟨limit, valid, rfl⟩, same⟩

theorem canonicalGroups_eq_nil_iff {groups : List CommitteeParticipationClaimGroupV1} :
    canonicalGroups groups = [] ↔ groups = [] := by
  have size : (canonicalGroups groups).length = groups.length := by
    unfold canonicalGroups
    rw [length_sortOn, List.length_map]
  rw [← List.length_eq_zero_iff, size, List.length_eq_zero_iff]

theorem length_canonicalRegistryOperations (operations : List RegistryOperation) :
    (canonicalRegistryOperations operations).length = operations.length := length_sortOn

/-! ### Version 3 -/

structure LQCHeaderEnvelopeV3.Valid (maxWorkTickets : Nat) (envelope : LQCHeaderEnvelopeV3) : Prop where
  version : envelope.version = 3
  roots : envelope.blockNumber ≠ 0 ∧ envelope.registryRoot ≠ 0 ∧ envelope.workStateRoot ≠ 0
  work : ListedWork maxWorkTickets envelope.registryOperations envelope.workTickets
  fits : framedSize envelope ≤ maxRegistryHeaderExtraSize

theorem encodeLQCHeaderExtraV3_ok_iff :
    encodeLQCHeaderExtraV3 blockNumber registryRoot workStateRoot operations tickets maxWorkTickets =
        .ok extra ↔
      let envelope : LQCHeaderEnvelopeV3 := ⟨3, blockNumber, registryRoot, workStateRoot,
        canonicalRegistryOperations operations, sortOn SignedRandomXWorkTicketV1.orderKey tickets⟩
      (blockNumber ≠ 0 ∧ registryRoot ≠ 0 ∧ workStateRoot ≠ 0) ∧ maxWorkTickets ≠ 0 ∧
        HeaderOperations (canonicalRegistryOperations operations) ∧
        TicketList maxWorkTickets tickets ∧ framedSize envelope ≤ maxRegistryHeaderExtraSize ∧
        extra = appendEmptyProducerSeal (framedPayload envelope) := by
  simp only [encodeLQCHeaderExtraV3, bind_ok_iff, ensure_ok_iff, exists_unit,
    validateRegistryHeaderOperations_ok_iff, canonicalWorkTicketsV3_ok_iff, frameExtra_ok_iff]
  refine and_congr_right fun _ => and_congr_right fun limit => and_congr_right fun _ => ?_
  constructor
  · intro encoded
    obtain ⟨_, ⟨_, valid, rfl⟩, framed⟩ := encoded
    exact ⟨valid, framed⟩
  · intro content
    obtain ⟨valid, framed⟩ := content
    exact ⟨_, ⟨limit, valid, rfl⟩, framed⟩

theorem decodeLQCHeaderExtraV3_ok_iff {envelope : LQCHeaderEnvelopeV3} (limit : maxWorkTickets ≠ 0) :
    decodeLQCHeaderExtraV3 extra maxWorkTickets = .ok envelope ↔
      envelope.Valid maxWorkTickets ∧
        ∃ mark, mark.length = producerSealLength ∧ extra = framedPayload envelope ++ mark := by
  obtain ⟨version, blockNumber, registryRoot, workStateRoot, operations, tickets⟩ := envelope
  simp only [decodeLQCHeaderExtraV3, bind_ok_iff, ensure_ok_iff, exists_unit,
    checkCanonicalOperations_ok_iff, checkCanonicalTickets_ok_iff, encodeLQCHeaderExtraV3_ok_iff]
  constructor
  · intro given
    obtain ⟨_, ⟨payload, envelope⟩, opened, version, roots, ⟨ops, opOrder⟩, ⟨_, tix, ticketOrder⟩, _,
      ⟨_, _, _, _, fits, rfl⟩, same, result⟩ := given
    obtain rfl := Except.ok.inj result
    obtain rfl : _ = (3 : UInt8) := version
    simp only [opOrder, ticketOrder] at fits same
    obtain rfl := sameEnvelope_ok_iff.mp same
    exact ⟨⟨rfl, roots, ⟨ops, opOrder, tix, ticketOrder⟩, fits⟩, openExtra_ok opened⟩
  · intro given
    obtain ⟨valid, mark, length, same⟩ := given
    obtain ⟨rfl, roots, ⟨ops, opOrder, tix, ticketOrder⟩, fits⟩ := valid
    simp only at opOrder ticketOrder
    subst same
    refine ⟨limit, _, openExtra_framed length fits, rfl, roots, ⟨ops, opOrder⟩,
      ⟨limit, tix, ticketOrder⟩, _, ?_, sameEnvelope_ok_iff.mpr rfl, rfl⟩
    simp only [opOrder, ticketOrder]
    exact ⟨roots, limit, ops, tix, fits, trivial⟩

/-! ### Version 4 -/

structure LQCHeaderEnvelopeV4.Valid (maxWorkTickets : Nat) (envelope : LQCHeaderEnvelopeV4) : Prop where
  version : envelope.version = 4
  roots : envelope.blockNumber ≠ 0 ∧ envelope.registryRoot ≠ 0 ∧ envelope.workStateRoot ≠ 0 ∧
    envelope.committeeClaimRoot ≠ 0
  work : ListedWork maxWorkTickets envelope.registryOperations envelope.workTickets
  claims : ListedClaims envelope.blockNumber envelope.registryOperations
    envelope.committeeParticipationClaims
  fits : framedSize envelope ≤ maxRegistryHeaderExtraSize

theorem encodeLQCHeaderExtraV4_ok_iff :
    encodeLQCHeaderExtraV4 blockNumber registryRoot workStateRoot committeeClaimRoot operations
        tickets claims maxWorkTickets = .ok extra ↔
      let envelope : LQCHeaderEnvelopeV4 := ⟨4, blockNumber, registryRoot, workStateRoot,
        committeeClaimRoot, canonicalRegistryOperations operations,
        sortOn SignedRandomXWorkTicketV1.orderKey tickets, canonicalGroups claims⟩
      (blockNumber ≠ 0 ∧ registryRoot ≠ 0 ∧ workStateRoot ≠ 0 ∧ committeeClaimRoot ≠ 0 ∧
          maxWorkTickets ≠ 0) ∧
        HeaderOperations (canonicalRegistryOperations operations) ∧
        TicketList maxWorkTickets tickets ∧ ValidClaimGroups blockNumber.toNat claims ∧
        (claims ≠ [] → operations.length ≤ maxRegistryOperationsWithCommitteeClaimsV1) ∧
        framedSize envelope ≤ maxRegistryHeaderExtraSize ∧
        extra = appendEmptyProducerSeal (framedPayload envelope) := by
  simp only [encodeLQCHeaderExtraV4, bind_ok_iff, ensure_ok_iff, exists_unit,
    validateRegistryHeaderOperations_ok_iff, canonicalWorkTicketsV3_ok_iff, frameExtra_ok_iff,
    canonicalClaimGroups_ok_iff, validateClaimRegistryOperationCapacityV4]
  refine and_congr_right fun roots => and_congr_right fun _ => ?_
  constructor
  · intro given
    obtain ⟨_, ⟨_, tix, rfl⟩, _, ⟨valid, rfl⟩, capacity, framed⟩ := given
    rw [ne_eq, canonicalGroups_eq_nil_iff, length_canonicalRegistryOperations] at capacity
    exact ⟨tix, valid, capacity, framed⟩
  · intro given
    obtain ⟨tix, valid, capacity, framed⟩ := given
    refine ⟨_, ⟨roots.2.2.2.2, tix, rfl⟩, _, ⟨valid, rfl⟩, ?_, framed⟩
    rw [ne_eq, canonicalGroups_eq_nil_iff, length_canonicalRegistryOperations]
    exact capacity

theorem decodeLQCHeaderExtraV4_ok_iff {envelope : LQCHeaderEnvelopeV4} (limit : maxWorkTickets ≠ 0) :
    decodeLQCHeaderExtraV4 extra maxWorkTickets = .ok envelope ↔
      envelope.Valid maxWorkTickets ∧
        ∃ mark, mark.length = producerSealLength ∧ extra = framedPayload envelope ++ mark := by
  obtain ⟨version, blockNumber, registryRoot, workStateRoot, claimRoot, operations, tickets, claims⟩ :=
    envelope
  simp only [decodeLQCHeaderExtraV4, bind_ok_iff, ensure_ok_iff, exists_unit,
    checkCanonicalOperations_ok_iff, checkCanonicalTickets_ok_iff, encodeLQCHeaderExtraV4_ok_iff,
    validateCanonicalClaimGroups_ok_iff, validateClaimRegistryOperationCapacityV4]
  constructor
  · intro given
    obtain ⟨_, ⟨payload, envelope⟩, opened, version, roots, ⟨ops, opOrder⟩, ⟨_, tix, ticketOrder⟩,
      ⟨valid, claimOrder⟩, capacity, _, ⟨_, _, _, _, _, fits, rfl⟩, same, result⟩ := given
    obtain rfl := Except.ok.inj result
    obtain rfl : _ = (4 : UInt8) := version
    simp only [opOrder, ticketOrder, claimOrder] at fits same
    obtain rfl := sameEnvelope_ok_iff.mp same
    exact ⟨⟨rfl, roots, ⟨ops, opOrder, tix, ticketOrder⟩, ⟨valid, claimOrder, capacity⟩, fits⟩,
      openExtra_ok opened⟩
  · intro given
    obtain ⟨valid, mark, length, same⟩ := given
    obtain ⟨rfl, roots, ⟨ops, opOrder, tix, ticketOrder⟩, ⟨groups, claimOrder, capacity⟩, fits⟩ := valid
    simp only at opOrder ticketOrder claimOrder
    subst same
    refine ⟨limit, _, openExtra_framed length fits, rfl, roots, ⟨ops, opOrder⟩,
      ⟨limit, tix, ticketOrder⟩, ⟨groups, claimOrder⟩, capacity, _, ?_, sameEnvelope_ok_iff.mpr rfl, rfl⟩
    simp only [opOrder, ticketOrder, claimOrder]
    exact ⟨⟨roots.1, roots.2.1, roots.2.2.1, roots.2.2.2, limit⟩, ops, tix, groups, capacity, fits,
      trivial⟩

/-! ### Version 5 -/

structure LQCHeaderEnvelopeV5.Valid (bls : Bls) (maxWorkTickets : Nat)
    (envelope : LQCHeaderEnvelopeV5) : Prop where
  version : envelope.version = 5
  roots : envelope.blockNumber ≠ 0 ∧ envelope.registryRoot ≠ 0 ∧ envelope.workStateRoot ≠ 0 ∧
    envelope.committeeClaimRoot ≠ 0
  work : ListedWork maxWorkTickets envelope.registryOperations envelope.workTickets
  claims : ListedClaims envelope.blockNumber envelope.registryOperations
    envelope.committeeParticipationClaims
  certificateCount :
    envelope.rabbitVRFKeysetCertificates.length ≤ maxRabbitVRFKeysetCertificatesPerBlockV1
  certificates : ∀ certificate ∈ envelope.rabbitVRFKeysetCertificates,
    validateRabbitVRFKeysetCertificateShapeV1 bls certificate = .ok ()
  finalizationCount : envelope.rabbitVRFFinalizations.length ≤ maxRabbitVRFFinalizationsPerBlockV1
  finalizations : FinalizationList envelope.rabbitVRFFinalizations
  finalizationOrder :
    RabbitVRFFinalizationV1.sorted envelope.rabbitVRFFinalizations = envelope.rabbitVRFFinalizations
  fits : framedSize envelope ≤ maxRegistryHeaderExtraSize

theorem encodeLQCHeaderExtraV5_ok_iff {certificates : List RabbitVRFKeysetCertificateV1}
    {finalizations : List RabbitVRFFinalizationV1} :
    encodeLQCHeaderExtraV5 blockNumber registryRoot workStateRoot committeeClaimRoot operations
        tickets claims certificates finalizations maxWorkTickets = .ok extra ↔
      let envelope : LQCHeaderEnvelopeV5 := ⟨5, blockNumber, registryRoot, workStateRoot,
        committeeClaimRoot, canonicalRegistryOperations operations,
        sortOn SignedRandomXWorkTicketV1.orderKey tickets, canonicalGroups claims, certificates,
        RabbitVRFFinalizationV1.sorted finalizations⟩
      (blockNumber ≠ 0 ∧ registryRoot ≠ 0 ∧ workStateRoot ≠ 0 ∧ committeeClaimRoot ≠ 0 ∧
          maxWorkTickets ≠ 0) ∧
        finalizations.length ≤ maxRabbitVRFFinalizationsPerBlockV1 ∧
        HeaderOperations (canonicalRegistryOperations operations) ∧
        TicketList maxWorkTickets tickets ∧ ValidClaimGroups blockNumber.toNat claims ∧
        (claims ≠ [] → operations.length ≤ maxRegistryOperationsWithCommitteeClaimsV1) ∧
        FinalizationList finalizations ∧
        framedSize envelope ≤ maxRegistryHeaderExtraSize ∧
        extra = appendEmptyProducerSeal (framedPayload envelope) := by
  simp only [encodeLQCHeaderExtraV5, bind_ok_iff, ensure_ok_iff, exists_unit,
    validateRegistryHeaderOperations_ok_iff, canonicalWorkTicketsV3_ok_iff, frameExtra_ok_iff,
    canonicalClaimGroups_ok_iff, validateClaimRegistryOperationCapacityV4,
    canonicalRabbitVRFFinalizationsV1_ok_iff]
  refine and_congr_right fun roots => and_congr_right fun _ => and_congr_right fun _ => ?_
  constructor
  · intro given
    obtain ⟨_, ⟨_, tix, rfl⟩, _, ⟨valid, rfl⟩, capacity, _, ⟨final, rfl⟩, framed⟩ := given
    rw [ne_eq, canonicalGroups_eq_nil_iff, length_canonicalRegistryOperations] at capacity
    exact ⟨tix, valid, capacity, final, framed⟩
  · intro given
    obtain ⟨tix, valid, capacity, final, framed⟩ := given
    refine ⟨_, ⟨roots.2.2.2.2, tix, rfl⟩, _, ⟨valid, rfl⟩, ?_, _, ⟨final, rfl⟩, framed⟩
    rw [ne_eq, canonicalGroups_eq_nil_iff, length_canonicalRegistryOperations]
    exact capacity

theorem decodeLQCHeaderExtraV5_ok_iff {bls : Bls} {envelope : LQCHeaderEnvelopeV5} (limit : maxWorkTickets ≠ 0) :
    decodeLQCHeaderExtraV5 bls extra maxWorkTickets = .ok envelope ↔
      envelope.Valid bls maxWorkTickets ∧
        ∃ mark, mark.length = producerSealLength ∧ extra = framedPayload envelope ++ mark := by
  obtain ⟨version, blockNumber, registryRoot, workStateRoot, claimRoot, operations, tickets, claims,
    certificates, finalizations⟩ := envelope
  simp only [decodeLQCHeaderExtraV5, bind_ok_iff, ensure_ok_iff, exists_unit, forM_ok_iff,
    checkCanonicalOperations_ok_iff, checkCanonicalTickets_ok_iff, encodeLQCHeaderExtraV5_ok_iff,
    validateCanonicalClaimGroups_ok_iff, validateClaimRegistryOperationCapacityV4,
    validateCanonicalRabbitVRFFinalizationsV1, canonicalRabbitVRFFinalizationsV1_ok_iff]
  constructor
  · intro given
    obtain ⟨_, ⟨payload, envelope⟩, opened, version, roots, ⟨ops, opOrder⟩, ⟨_, tix, ticketOrder⟩,
      ⟨valid, claimOrder⟩, capacity, shapes, ⟨_, ⟨final, rfl⟩, finalOrder⟩, _,
      ⟨_, _, _, _, _, _, _, fits, rfl⟩, same, result⟩ := given
    obtain rfl := Except.ok.inj result
    obtain rfl : _ = (5 : UInt8) := version
    simp only [opOrder, ticketOrder, claimOrder, finalOrder] at fits same
    obtain rfl := sameEnvelope_ok_iff.mp same
    obtain ⟨number, root, work, claim, certificateCount, finalizationCount⟩ := roots
    exact ⟨⟨rfl, ⟨number, root, work, claim⟩, ⟨ops, opOrder, tix, ticketOrder⟩,
      ⟨valid, claimOrder, capacity⟩, certificateCount, shapes, finalizationCount, final, finalOrder,
      fits⟩, openExtra_ok opened⟩
  · intro given
    obtain ⟨valid, mark, length, same⟩ := given
    obtain ⟨rfl, ⟨number, root, work, claim⟩, ⟨ops, opOrder, tix, ticketOrder⟩,
      ⟨groups, claimOrder, capacity⟩, certificateCount, shapes, finalizationCount, final, finalOrder,
      fits⟩ := valid
    simp only at opOrder ticketOrder claimOrder finalOrder
    subst same
    refine ⟨limit, _, openExtra_framed length fits, rfl,
      ⟨number, root, work, claim, certificateCount, finalizationCount⟩, ⟨ops, opOrder⟩,
      ⟨limit, tix, ticketOrder⟩, ⟨groups, claimOrder⟩, capacity, shapes, ⟨_, ⟨final, rfl⟩, finalOrder⟩,
      _, ?_, sameEnvelope_ok_iff.mpr rfl, rfl⟩
    simp only [opOrder, ticketOrder, claimOrder, finalOrder]
    exact ⟨⟨number, root, work, claim, limit⟩, finalizationCount, ops, tix, groups, capacity, final,
      fits, trivial⟩

end RabbitLqc
