import RabbitLqc.Header.RoundTrip

/-!
# Header capacity

How large the lists of an envelope can get, and what the fifth version's trimming loop can do
about it: it only ever drops finalizations.
-/

namespace RabbitLqc
open Lib RlpCodec

variable {blockNumber : UInt64} {registryRoot workStateRoot : Hash} {operations : List RegistryOperation}
  {tickets : List SignedRandomXWorkTicketV1}

/-! ### Claims -/

namespace CommitteeParticipationClaimGroupV1

variable {inclusionBlock : Nat} {group : CommitteeParticipationClaimGroupV1}

theorem Valid.size_le (valid : group.Valid inclusionBlock)
    (few : group.participations.length ≤ maxCommitteeParticipationsV1) :
    Rlp.size (toItem group) ≤ 15 + group.participations.length * 70 := by
  have each : ∀ item ∈ group.participations, Rlp.size (toItem item) ≤ 70 := by
    intro item member
    have position := Rlp.size_uint8_small (valid.position_lt item member)
    have signature := size_signature (valid.signature_length item member)
    refine Rlp.size_list_le 68 1 ?_ (by decide)
    simp only [Rlp.sizeAll]
    omega
  have count : group.participations.length ≤ 128 := few
  have proofs : Rlp.size (toItem group.participations) ≤ 3 + group.participations.length * 70 :=
    Rlp.size_list_le _ 2 (Rlp.sizeAll_map_le each) (by omega)
  have target := Rlp.size_uint64_le group.targetBlock
  have whole : Rlp.size (toItem group) ≤ 3 + (12 + group.participations.length * 70) := by
    refine Rlp.size_list_le _ 2 ?_ (by omega)
    simp only [Rlp.sizeAll]
    omega
  omega

end CommitteeParticipationClaimGroupV1

namespace ValidClaimGroups

variable {inclusionBlock : Nat} {groups : List CommitteeParticipationClaimGroupV1}

theorem length_le (valid : ValidClaimGroups inclusionBlock groups) :
    groups.length ≤ committeeParticipationClaimWindowV1 := by
  have inside : (groups.map (·.target)).toFinset ⊆
      Finset.Ico (inclusionBlock - committeeParticipationClaimWindowV1) inclusionBlock := by
    intro target member
    obtain ⟨group, inGroups, rfl⟩ := List.mem_map.mp (List.mem_toFinset.mp member)
    have window := (valid.each group inGroups).inWindow
    have past := (valid.each group inGroups).past
    exact Finset.mem_Ico.mpr ⟨by omega, past⟩
  have count := Finset.card_le_card inside
  rw [List.toFinset_card_of_nodup valid.targets, List.length_map, Nat.card_Ico] at count
  omega

theorem group_length_le (valid : ValidClaimGroups inclusionBlock groups)
    {group : CommitteeParticipationClaimGroupV1} (member : group ∈ groups) :
    group.participations.length ≤ maxCommitteeParticipationsV1 :=
  (List.single_le_sum (fun _ _ => Nat.zero_le _) _ (List.mem_map_of_mem member)).trans valid.count

theorem size_le (valid : ValidClaimGroups inclusionBlock groups) :
    Rlp.size (toItem groups) ≤ 3 + 9080 := by
  have sum : ∀ rest : List CommitteeParticipationClaimGroupV1, (∀ group ∈ rest, group ∈ groups) →
      Rlp.sizeAll (rest.map toItem) ≤ rest.length * 15 + claimCount rest * 70 := by
    intro rest inside
    induction rest with
    | nil => simp [Rlp.sizeAll, claimCount]
    | cons group others ih =>
      have member := inside group List.mem_cons_self
      have head := (valid.each group member).size_le (valid.group_length_le member)
      have tail := ih fun g inOthers => inside g (List.mem_cons_of_mem _ inOthers)
      simp only [List.map_cons, Rlp.sizeAll, List.length_cons, claimCount, List.sum_cons] at tail ⊢
      omega
  have total := sum groups fun _ member => member
  have few : groups.length ≤ 8 := valid.length_le
  have count : claimCount groups ≤ 128 := valid.count
  exact Rlp.size_list_le 9080 2 (by omega) (by decide)

end ValidClaimGroups

/-! ### Versions 3 and 4 -/

theorem framedSize_V3_le (listed : HeaderOperations operations)
    (ticketList : TicketList maxWorkTicketsPerBlockV1 tickets) :
    framedSize (⟨3, blockNumber, registryRoot, workStateRoot, operations, tickets⟩ : LQCHeaderEnvelopeV3) ≤
      maxRegistryHeaderExtraSize := by
  have count : operations.length ≤ 64 := listed.capacity
  have operationSize := size_operations_le listed.each (count.trans (by decide))
  have ticketSize := ticketList.size_le
  have number := Rlp.size_uint64_le blockNumber
  have version : Rlp.size (toItem (3 : UInt8)) = 1 := Rlp.size_uint8_small (by decide)
  have total : Rlp.size (toItem (⟨3, blockNumber, registryRoot, workStateRoot, operations, tickets⟩
      : LQCHeaderEnvelopeV3)) ≤ 3 + 15790 := by
    refine Rlp.size_list_le 15790 2 ?_ (by decide)
    simp only [Rlp.sizeAll, size_hash]
    omega
  exact Nat.add_le_add_right (Nat.add_le_add_left total 4) 65 |>.trans (by decide)

theorem framedSize_V4_le {claimRoot : Hash} {claims : List CommitteeParticipationClaimGroupV1}
    (each : ∀ operation ∈ operations, HeaderOperation operation)
    (few : operations.length ≤ maxRegistryOperationsWithCommitteeClaimsV1)
    (ticketList : TicketList maxWorkTicketsPerBlockV1 tickets) (groups : ValidClaimGroups blockNumber.toNat claims) :
    framedSize (⟨4, blockNumber, registryRoot, workStateRoot, claimRoot, operations, tickets, claims⟩
      : LQCHeaderEnvelopeV4) ≤ maxRegistryHeaderExtraSize := by
  have count : operations.length ≤ 48 := few
  have operationSize := size_operations_le each (count.trans (by decide))
  have ticketSize := ticketList.size_le
  have claimSize := groups.size_le
  have number := Rlp.size_uint64_le blockNumber
  have version : Rlp.size (toItem (4 : UInt8)) = 1 := Rlp.size_uint8_small (by decide)
  have total : Rlp.size (toItem (⟨4, blockNumber, registryRoot, workStateRoot, claimRoot, operations,
      tickets, claims⟩ : LQCHeaderEnvelopeV4)) ≤ 3 + 15790 := by
    refine Rlp.size_list_le 15790 2 ?_ (by decide)
    simp only [Rlp.sizeAll, size_hash]
    omega
  exact Nat.add_le_add_right (Nat.add_le_add_left total 4) 65 |>.trans (by decide)

/-! ### Version 5 -/

/-- Bytes of the extra data that carries all of a block's content but its finalizations. -/
def headerV5BaseSize (blockNumber : UInt64) (operations : List RegistryOperation)
    (tickets : List SignedRandomXWorkTicketV1) (claims : List CommitteeParticipationClaimGroupV1)
    (certificates : List RabbitVRFKeysetCertificateV1) : Nat :=
  framedSize (⟨5, blockNumber, 0, 0, 0, operations, tickets, claims, certificates, []⟩
    : LQCHeaderEnvelopeV5)

def canonicalV5 (blockNumber : UInt64) (registryRoot workStateRoot claimRoot : Hash)
    (operations : List RegistryOperation) (tickets : List SignedRandomXWorkTicketV1)
    (claims : List CommitteeParticipationClaimGroupV1)
    (certificates : List RabbitVRFKeysetCertificateV1)
    (finalizations : List RabbitVRFFinalizationV1) : LQCHeaderEnvelopeV5 :=
  ⟨5, blockNumber, registryRoot, workStateRoot, claimRoot, canonicalRegistryOperations operations,
    sortOn SignedRandomXWorkTicketV1.orderKey tickets, canonicalGroups claims, certificates,
    finalizations⟩

theorem size_sorted_group (group : CommitteeParticipationClaimGroupV1) :
    Rlp.size (toItem group.sorted) = Rlp.size (toItem group) := by
  have proofs : Rlp.size (toItem group.sorted.participations) = Rlp.size (toItem group.participations) :=
    Rlp.size_list_perm sortOn_perm
  change Rlp.size (.list [toItem group.targetBlock, toItem group.sorted.participations]) =
    Rlp.size (.list [toItem group.targetBlock, toItem group.participations])
  simp only [Rlp.size, Rlp.sizeAll, proofs]

theorem size_canonicalGroups (claims : List CommitteeParticipationClaimGroupV1) :
    Rlp.size (toItem (canonicalGroups claims)) = Rlp.size (toItem claims) := by
  have perm : (canonicalGroups claims).Perm (claims.map (·.sorted)) := sortOn_perm
  have reordered : Rlp.size (toItem (canonicalGroups claims)) = Rlp.size (toItem (claims.map (·.sorted))) :=
    Rlp.size_list_perm perm
  have total : Rlp.sizeAll ((claims.map (·.sorted)).map toItem) = Rlp.sizeAll (claims.map toItem) := by
    rw [Rlp.sizeAll_map, Rlp.sizeAll_map, List.map_map]
    exact congrArg _ (List.map_congr_left fun group _ => size_sorted_group group)
  rw [reordered]
  change Rlp.size (.list _) = Rlp.size (.list _)
  rw [Rlp.size, Rlp.size, total]

section Fitting

variable {blockNumber : UInt64} {registryRoot workStateRoot claimRoot : Hash}
  {operations : List RegistryOperation} {tickets : List SignedRandomXWorkTicketV1}
  {claims : List CommitteeParticipationClaimGroupV1}
  {certificates : List RabbitVRFKeysetCertificateV1}

variable {count : Nat} {extra : Bytes}

theorem framedSize_canonicalV5_nil :
    framedSize (canonicalV5 blockNumber registryRoot workStateRoot claimRoot operations tickets claims
      certificates []) = headerV5BaseSize blockNumber operations tickets claims certificates := by
  have operationSize : Rlp.size (toItem (canonicalRegistryOperations operations)) =
      Rlp.size (toItem operations) := Rlp.size_list_perm sortOn_perm
  have ticketSize : Rlp.size (toItem (sortOn SignedRandomXWorkTicketV1.orderKey tickets)) =
      Rlp.size (toItem tickets) := Rlp.size_list_perm sortOn_perm
  have claimSize := size_canonicalGroups claims
  unfold headerV5BaseSize framedSize canonicalV5
  change 4 + Rlp.size (.list _) + 65 = 4 + Rlp.size (.list _) + 65
  simp only [Rlp.size, Rlp.sizeAll, operationSize, ticketSize, claimSize, size_hash]

theorem framedSize_canonicalV5_take (finalizations : List RabbitVRFFinalizationV1) (count : Nat) :
    framedSize (canonicalV5 blockNumber registryRoot workStateRoot claimRoot operations tickets claims
      certificates (finalizations.take count)) ≤
    framedSize (canonicalV5 blockNumber registryRoot workStateRoot claimRoot operations tickets claims
      certificates finalizations) := by
  have parts : Rlp.sizeAll (finalizations.map toItem) =
      Rlp.sizeAll ((finalizations.take count).map toItem) +
        Rlp.sizeAll ((finalizations.drop count).map toItem) := by
    rw [← Rlp.sizeAll_append, ← List.map_append, List.take_append_drop]
  have list : Rlp.size (toItem (finalizations.take count)) ≤ Rlp.size (toItem finalizations) :=
    Rlp.size_list_mono (by omega)
  unfold framedSize canonicalV5
  refine Nat.add_le_add_right (Nat.add_le_add_left (Rlp.size_list_mono ?_) _) _
  simp only [Rlp.sizeAll]
  omega

/-- Block content whose parts pass the checks of the code, in any order. -/
structure ValidV5Content (blockNumber : UInt64) (operations : List RegistryOperation)
    (tickets : List SignedRandomXWorkTicketV1) (claims : List CommitteeParticipationClaimGroupV1)
    (finalizations : List RabbitVRFFinalizationV1) : Prop where
  validOperations : HeaderOperations (canonicalRegistryOperations operations)
  operationCount : operations.length ≤ maxRegistryOperationsWithCommitteeClaimsV1
  validTickets : TicketList maxWorkTicketsPerBlockV1 tickets
  validClaims : ValidClaimGroups blockNumber.toNat claims
  finalizationCount : finalizations.length ≤ maxRabbitVRFFinalizationsPerBlockV1
  validFinalizations : ∀ value ∈ finalizations, value.validate = .ok ()

variable {finalizations : List RabbitVRFFinalizationV1}

theorem FinalizationList.sorted_take (valid : FinalizationList finalizations) (count : Nat) :
    FinalizationList ((RabbitVRFFinalizationV1.sorted finalizations).take count) where
  each value member := valid.each value (mem_sortOn.mp (List.mem_of_mem_take member))
  requests := by
    have all : ((RabbitVRFFinalizationV1.sorted finalizations).map (·.requestID)).Nodup :=
      (sortOn_perm.map _).nodup_iff.mpr valid.requests
    exact all.sublist ((List.take_sublist _ _).map _)

theorem sorted_take_sorted (count : Nat) :
    RabbitVRFFinalizationV1.sorted ((RabbitVRFFinalizationV1.sorted finalizations).take count) =
      (RabbitVRFFinalizationV1.sorted finalizations).take count :=
  sortOn_of_sorted (sortOn_sorted.sublist (List.take_sublist _ _))

theorem encodeLQCHeaderExtraV5_take_ok_iff
    (roots : blockNumber ≠ 0 ∧ registryRoot ≠ 0 ∧ workStateRoot ≠ 0 ∧ claimRoot ≠ 0)
    (content : ValidV5Content blockNumber operations tickets claims finalizations)
    (requests : (finalizations.map (·.requestID)).Nodup) :
    encodeLQCHeaderExtraV5 blockNumber registryRoot workStateRoot claimRoot operations tickets claims
        certificates ((RabbitVRFFinalizationV1.sorted finalizations).take count)
        maxWorkTicketsPerBlockV1 = .ok extra ↔
      let envelope := canonicalV5 blockNumber registryRoot workStateRoot claimRoot operations tickets
        claims certificates ((RabbitVRFFinalizationV1.sorted finalizations).take count)
      framedSize envelope ≤ maxRegistryHeaderExtraSize ∧
        extra = appendEmptyProducerSeal (framedPayload envelope) := by
  have valid : FinalizationList finalizations := ⟨content.validFinalizations, requests⟩
  have size : ((RabbitVRFFinalizationV1.sorted finalizations).take count).length ≤
      maxRabbitVRFFinalizationsPerBlockV1 := by
    have total : (RabbitVRFFinalizationV1.sorted finalizations).length = finalizations.length :=
      length_sortOn
    rw [List.length_take, total]
    exact (Nat.min_le_right _ _).trans content.finalizationCount
  rw [encodeLQCHeaderExtraV5_ok_iff, sorted_take_sorted]
  constructor
  · intro given
    obtain ⟨_, _, _, _, _, _, _, framed⟩ := given
    exact framed
  · intro framed
    exact ⟨⟨roots.1, roots.2.1, roots.2.2.1, roots.2.2.2, by decide⟩, size, content.validOperations,
      content.validTickets, content.validClaims, fun _ => content.operationCount,
      valid.sorted_take count, framed⟩

theorem encodeFittingFrom_ok {encode : List RabbitVRFFinalizationV1 → Except LqcError Bytes}
    {values : List RabbitVRFFinalizationV1} (fitted : encodeFittingFrom encode values count = .ok extra) :
    ∃ kept ≤ count, encode (values.take kept) = .ok extra ∧
      ∀ more, kept < more → more ≤ count → ¬ ∃ larger, encode (values.take more) = .ok larger := by
  induction count with
  | zero => exact ⟨0, le_rfl, fitted, by omega⟩
  | succ count ih =>
    unfold encodeFittingFrom at fitted
    split at fitted
    · rename_i found whole
      exact ⟨count + 1, le_rfl, whole.trans fitted, by omega⟩
    · rename_i error failed
      obtain ⟨kept, le, result, maximal⟩ := ih fitted
      refine ⟨kept, by omega, result, fun more above within => ?_⟩
      rcases Nat.lt_or_eq_of_le within with below | rfl
      · exact maximal more above (by omega)
      · intro given
        obtain ⟨larger, encoded⟩ := given
        rw [failed] at encoded
        cases encoded

theorem encodeFittingFrom_exists (encode : List RabbitVRFFinalizationV1 → Except LqcError Bytes)
    (base : encode [] = .ok extra) (values : List RabbitVRFFinalizationV1) (count : Nat) :
    ∃ found, encodeFittingFrom encode values count = .ok found := by
  induction count with
  | zero => exact ⟨extra, base⟩
  | succ count ih =>
    unfold encodeFittingFrom
    split
    · exact ⟨_, rfl⟩
    · exact ih

theorem fittingFinalizations_ok_iff
    (roots : blockNumber ≠ 0 ∧ registryRoot ≠ 0 ∧ workStateRoot ≠ 0 ∧ claimRoot ≠ 0)
    (content : ValidV5Content blockNumber operations tickets claims finalizations) :
    (∃ extra, encodeLQCHeaderExtraV5FittingFinalizationsV1 blockNumber registryRoot workStateRoot
        claimRoot operations tickets claims certificates finalizations maxWorkTicketsPerBlockV1 =
          .ok extra) ↔
      (finalizations.map (·.requestID)).Nodup ∧
        headerV5BaseSize blockNumber operations tickets claims certificates ≤
          maxRegistryHeaderExtraSize := by
  simp only [encodeLQCHeaderExtraV5FittingFinalizationsV1, bind_ok_iff, ensure_ok_iff, exists_unit,
    canonicalRabbitVRFFinalizationsV1_ok_iff]
  constructor
  · intro given
    obtain ⟨extra, _, _, ⟨valid, rfl⟩, fitted⟩ := given
    obtain ⟨kept, _, encoded, _⟩ := encodeFittingFrom_ok fitted
    have fits := ((encodeLQCHeaderExtraV5_take_ok_iff roots content valid.requests).mp encoded).1
    have smallest := (framedSize_canonicalV5_take _ 0).trans fits
    rw [List.take_zero, framedSize_canonicalV5_nil] at smallest
    exact ⟨valid.requests, smallest⟩
  · intro given
    obtain ⟨requests, fits⟩ := given
    have empty : framedSize (canonicalV5 blockNumber registryRoot workStateRoot claimRoot operations
        tickets claims certificates ((RabbitVRFFinalizationV1.sorted finalizations).take 0)) ≤
          maxRegistryHeaderExtraSize := by
      rw [List.take_zero, framedSize_canonicalV5_nil]
      exact fits
    have base := (encodeLQCHeaderExtraV5_take_ok_iff roots content requests).mpr ⟨empty, rfl⟩
    obtain ⟨extra, fitted⟩ := encodeFittingFrom_exists
      (fun kept => encodeLQCHeaderExtraV5 blockNumber registryRoot workStateRoot claimRoot
        operations tickets claims certificates kept maxWorkTicketsPerBlockV1) base
      (RabbitVRFFinalizationV1.sorted finalizations)
      (RabbitVRFFinalizationV1.sorted finalizations).length
    exact ⟨extra, content.finalizationCount, _, ⟨⟨content.validFinalizations, requests⟩, rfl⟩, fitted⟩

end Fitting

end RabbitLqc
