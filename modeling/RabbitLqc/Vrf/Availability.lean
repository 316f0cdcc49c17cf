import RabbitLqc.Vrf.Lifecycle

/-!
# Committees of available participants

Members of the second rule's committee own a seat and were available at the reference block. Their numbers are their
places, so the committee can be rebuilt from them, and the check a bridge later passes finds the root it carries.
-/

namespace RabbitLqc
open Lib RlpCodec

/-! ### What a committee root commits to -/

section Root

variable {crypto : Crypto} {chainID sourceEpoch : Nat} {selectionRoot committeeSeed root : Hash}
  {committee : List WorkSeatV1} {members : List RabbitVRFCommitteeMemberV1}

theorem rabbitVRFCommitteeMembersV1_ok (numbered : rabbitVRFCommitteeMembersV1 committee = .ok members) :
    (∀ seat ∈ committee, seat.ticketHash ≠ 0 ∧ seat.participant ≠ 0) ∧ (committee.map (·.participant)).Nodup ∧
      members = committee.mapIdx fun index seat =>
        ⟨UInt64.ofNat (index + 1), seat.ticketHash, seat.participant⟩ := by
  obtain ⟨_, distinct, numbered⟩ := bind_ok numbered
  obtain ⟨nonzero, _, participants⟩ := ensure_ok_iff.mp distinct
  exact ⟨nonzero, participants, (Except.ok.inj numbered).symm⟩

theorem rabbitVRFCommitteeRootV1_ok
    (rooted : rabbitVRFCommitteeRootV1 crypto chainID sourceEpoch selectionRoot committeeSeed committee =
      .ok (root, members)) :
    (chainID ≠ 0 ∧ sourceEpoch ≠ 0 ∧ selectionRoot ≠ 0 ∧ committeeSeed ≠ 0) ∧
      rabbitVRFCommitteeMembersV1 committee = .ok members ∧ members ≠ [] ∧ root ≠ 0 := by
  unfold rabbitVRFCommitteeRootV1 at rooted
  simp only [bind_ok_iff, exists_unit, ensure_ok_iff, Except.ok.injEq, Prod.mk.injEq] at rooted
  obtain ⟨fields, _, numbered, some, nonzero, rfl, rfl⟩ := rooted
  exact ⟨fields, numbered, some, nonzero⟩

theorem committeeOfMembers_eq (numbered : rabbitVRFCommitteeMembersV1 committee = .ok members) :
    committeeOfMembers members = committee := by
  obtain ⟨_, _, rfl⟩ := rabbitVRFCommitteeMembersV1_ok numbered
  refine List.ext_getElem (by simp [committeeOfMembers]) fun index _ inside => ?_
  simp [committeeOfMembers]

theorem membersNumbered_of_members (numbered : rabbitVRFCommitteeMembersV1 committee = .ok members) :
    membersNumbered members = true := by
  obtain ⟨nonzero, _, rfl⟩ := rabbitVRFCommitteeMembersV1_ok numbered
  refine decide_eq_true ⟨?_, ?_⟩
  · refine List.ext_getElem (by simp) fun index _ _ => ?_
    simp
  · intro member listed
    obtain ⟨index, inside, rfl⟩ := List.mem_mapIdx.mp listed
    exact nonzero _ (List.getElem_mem inside)

theorem checkCommitteeRoot_ok {invalid : LqcError} {state : RabbitVRFDKGLifecycleV1}
    (rooted : rabbitVRFCommitteeRootV1 crypto state.session.chainID state.sourceWorkEpoch state.selectionRoot
      state.committeeSeed committee = .ok (state.committeeRoot, members)) :
    checkCommitteeRoot crypto invalid state members = .ok () := by
  obtain ⟨_, numbered, _⟩ := rabbitVRFCommitteeRootV1_ok rooted
  simp only [checkCommitteeRoot, bind_ok_iff, exists_unit, ensure_ok_iff, failAs_ok_iff]
  refine ⟨membersNumbered_of_members numbered, (state.committeeRoot, members), ?_, rfl, rfl⟩
  rw [committeeOfMembers_eq numbered]
  exact rooted

end Root

/-! ### Bridges pass the lifecycle check -/

theorem newRabbitVRFDKGSessionContextV1_ok {chainID targetVRFEpoch committeeSize : Nat} {committeeRoot : Hash}
    {session : RabbitVRFDKGSessionContextV1}
    (made : newRabbitVRFDKGSessionContextV1 chainID targetVRFEpoch committeeRoot committeeSize = .ok session) :
    session.valid = true ∧ session.chainID = chainID ∧ session.targetVRFEpoch = targetVRFEpoch ∧
      session.committeeRoot = committeeRoot ∧ session.committeeSize = committeeSize := by
  unfold newRabbitVRFDKGSessionContextV1 at made
  simp only [bind_ok_iff, exists_unit, ensure_ok_iff, orFail_ok_iff, Except.ok.injEq] at made
  obtain ⟨⟨chain, target, root⟩, policy, known, rfl⟩ := made
  have size : committeeSize ≠ 0 := by
    rintro rfl
    cases known
  exact ⟨decide_eq_true ⟨rfl, chain, target, root, size, known⟩, rfl, rfl, rfl, rfl⟩

theorem rabbitVRFDKGSessionIDV1_ne_zero {crypto : Crypto} {session : RabbitVRFDKGSessionContextV1} {sessionID : Hash}
    (identified : rabbitVRFDKGSessionIDV1 crypto session = some sessionID) : sessionID ≠ 0 := by
  simp only [rabbitVRFDKGSessionIDV1, Option.ite_none_right_eq_some, Option.some.injEq] at identified
  obtain ⟨⟨_, nonzero⟩, rfl⟩ := identified
  exact nonzero

section Bridge

variable {crypto : Crypto} {chainID : Nat} {snapshot : WorkEpochSnapshotV1} {datasetKey entropy : Hash}
  {committee : List WorkSeatV1} {rooted : Hash × Hash × List RabbitVRFCommitteeMemberV1}
  {bridge : RabbitVRFDKGBridgeV1}

theorem bridgeOfCommittee_commits
    (commits : rabbitVRFCommitteeRootV1 crypto chainID snapshot.epoch snapshot.root rooted.2.1 committee =
      .ok (rooted.1, rooted.2.2))
    (made : bridgeOfCommittee crypto chainID snapshot datasetKey entropy rooted = .ok bridge) :
    rabbitVRFCommitteeRootV1 crypto bridge.session.chainID bridge.sourceWorkEpoch bridge.selectionRoot
      bridge.committeeSeed committee = .ok (bridge.committeeRoot, bridge.members) := by
  obtain ⟨preparationEpoch, preparation, made⟩ := bind_ok made
  obtain ⟨targetVRFEpoch, target, made⟩ := bind_ok made
  obtain ⟨session, opened, made⟩ := bind_ok made
  obtain ⟨sessionID, identified, made⟩ := bind_ok made
  obtain rfl := Except.ok.inj made
  obtain ⟨_, rfl, _⟩ := newRabbitVRFDKGSessionContextV1_ok opened
  exact commits

theorem bridgeOfCommittee_validates (key : datasetKey ≠ 0) (beacon : entropy ≠ 0) (few : committee.length < 2 ^ 64)
    (commits : rabbitVRFCommitteeRootV1 crypto chainID snapshot.epoch snapshot.root rooted.2.1 committee =
      .ok (rooted.1, rooted.2.2))
    (made : bridgeOfCommittee crypto chainID snapshot datasetKey entropy rooted = .ok bridge) :
    validateRabbitVRFDKGBridgeLifecycleInputV1 crypto bridge = .ok () := by
  obtain ⟨⟨_, source, selection, seed⟩, numbered, some, nonzero⟩ := rabbitVRFCommitteeRootV1_ok commits
  have carried := bridgeOfCommittee_commits commits made
  obtain ⟨preparationEpoch, preparation, made⟩ := bind_ok made
  obtain ⟨targetVRFEpoch, target, made⟩ := bind_ok made
  obtain ⟨session, opened, made⟩ := bind_ok made
  obtain ⟨sessionID, identified, made⟩ := bind_ok made
  obtain rfl := Except.ok.inj made
  obtain ⟨valid, _, epoch, root, size⟩ := newRabbitVRFDKGSessionContextV1_ok opened
  have identified := orFail_ok_iff.mp identified
  have prepared : preparationEpoch ≠ 0 := by
    obtain ⟨_, _, later⟩ := bind_ok preparation
    have := Except.ok.inj later
    omega
  have targeted : targetVRFEpoch ≠ 0 := by
    obtain ⟨_, _, later⟩ := bind_ok target
    obtain ⟨_, _, later⟩ := bind_ok later
    have := Except.ok.inj later
    omega
  have length : rooted.2.2.length = committee.length := by
    rw [(rabbitVRFCommitteeMembersV1_ok numbered).2.2, List.length_mapIdx]
  simp only [validateRabbitVRFDKGBridgeLifecycleInputV1, validateRabbitVRFDKGLifecycleV1, bind_ok_iff, exists_unit,
    ensure_ok_iff, failAs_ok_iff]
  refine ⟨some, ⟨⟨rfl, rfl, rabbitVRFDKGSessionIDV1_ne_zero identified, source, prepared, targeted, selection, key,
    beacon, seed, nonzero⟩, valid, identified, preparationEpoch, preparation, rfl, targetVRFEpoch, target, rfl, epoch,
    root⟩, ?_, checkCommitteeRoot_ok carried⟩
  rw [size, length, Nat.mod_eq_of_lt few]

end Bridge

/-! ### Available members -/

/-- At the reference block the member owns a seat, and its participant is active, unjailed and was heard from. -/
structure AvailableMember (snapshot : WorkEpochSnapshotV1) (registry : CanonicalRegistry)
    (referenceBlock heartbeatWindow : Nat) (member : RabbitVRFCommitteeMemberV1) : Prop where
  seat : ⟨member.ticketHash, member.participant⟩ ∈ snapshot.seats
  participant : ∃ participant, registry.participant? member.participant = some participant ∧
    participant.active = true ∧ participant.jailedUntil ≤ referenceBlock ∧ participant.lastHeartbeat ≠ 0 ∧
    participant.lastHeartbeat ≤ referenceBlock ∧ referenceBlock - participant.lastHeartbeat ≤ heartbeatWindow

structure AvailableCommittee (snapshot : WorkEpochSnapshotV1) (registry : CanonicalRegistry)
    (referenceBlock heartbeatWindow : Nat) (members : List RabbitVRFCommitteeMemberV1) : Prop where
  nonempty : members ≠ []
  available : ∀ member ∈ members, AvailableMember snapshot registry referenceBlock heartbeatWindow member
  distinct : (members.map (·.participant)).Nodup
  shares : members.map (·.shareID.toNat) = List.range' 1 members.length

section Available

variable {crypto : Crypto} {chainID : Nat} {snapshot : WorkEpochSnapshotV1} {registry : RegistrySnapshot}
  {referenceBlock heartbeatWindow maxSize : Nat} {entropy : Hash}
  {rooted : Hash × Hash × List RabbitVRFCommitteeMemberV1}

theorem availableAt_iff {registry : CanonicalRegistry} {seat : WorkSeatV1} :
    availableAt registry referenceBlock heartbeatWindow seat = true ↔
      ∃ participant, registry.participant? seat.participant = some participant ∧ participant.active = true ∧
        participant.jailedUntil ≤ referenceBlock ∧ participant.lastHeartbeat ≠ 0 ∧
        participant.lastHeartbeat ≤ referenceBlock ∧ referenceBlock - participant.lastHeartbeat ≤ heartbeatWindow := by
  simp only [availableAt, Option.any_eq_true, Bool.and_eq_true, decide_eq_true_eq]

theorem deriveWorkSelectionEntropyV1_datasetKey {sourceEpoch : Nat} {selectionRoot datasetKey : Hash}
    (derived : deriveWorkSelectionEntropyV1 crypto chainID sourceEpoch selectionRoot datasetKey = .ok entropy) :
    datasetKey ≠ 0 := by
  obtain ⟨_, input, _⟩ := bind_ok derived
  obtain ⟨_, fields, _⟩ := bind_ok input
  exact (ensure_ok_iff.mp fields).2.2.2

theorem rabbitVRFCommitteeSizeV1_le {seatCount minSize : Nat} (bounded : maxSize ≠ 0) :
    rabbitVRFCommitteeSizeV1 seatCount minSize maxSize ≤ maxSize := by
  unfold rabbitVRFCommitteeSizeV1 LqcConfig.computeCommitteeSizeWithBounds
  dsimp only
  split_ifs <;> omega

theorem rabbitVRFAvailableCommitteeWithSeedV2_ok
    (chosen : rabbitVRFAvailableCommitteeWithSeedV2 crypto chainID snapshot registry referenceBlock heartbeatWindow
      maxSize entropy = .ok rooted) :
    entropy ≠ 0 ∧ registry.number = referenceBlock ∧ ∃ committee, committee.length ≤ 128 ∧
      (∀ seat ∈ committee, seat ∈ snapshot.seats ∧
        availableAt registry.registry referenceBlock heartbeatWindow seat = true) ∧
      rabbitVRFCommitteeRootV1 crypto chainID snapshot.epoch snapshot.root rooted.2.1 committee =
        .ok (rooted.1, rooted.2.2) := by
  obtain ⟨_, context, chosen⟩ := bind_ok chosen
  obtain ⟨_, _, _, beacon, bounded, capped⟩ := ensure_ok_iff.mp context
  obtain ⟨_, _, chosen⟩ := bind_ok chosen
  obtain ⟨candidates, filtered, chosen⟩ := bind_ok chosen
  obtain ⟨_, _, chosen⟩ := bind_ok chosen
  obtain ⟨committee, selected, chosen⟩ := bind_ok chosen
  obtain ⟨root, commits, chosen⟩ := bind_ok chosen
  obtain rfl := Except.ok.inj chosen
  obtain ⟨_, reference, filtered⟩ := bind_ok filtered
  obtain ⟨_, _, filtered⟩ := bind_ok filtered
  obtain ⟨_, _, filtered⟩ := bind_ok filtered
  obtain rfl := Except.ok.inj filtered
  refine ⟨beacon, (ensure_ok_iff.mp reference).1, committee, ?_, ?_, commits⟩
  · calc committee.length
      _ ≤ rabbitVRFCommitteeSizeV1 _ 32 maxSize := deterministicallySelectWorkSeatsV1_length_le selected
      _ ≤ maxSize := rabbitVRFCommitteeSizeV1_le (by omega)
      _ ≤ 128 := capped
  · intro seat member
    exact List.mem_filter.mp ((deterministicallySelectWorkSeatsV1_subperm selected).subset member)

theorem AvailableCommittee.of_members {committee : List WorkSeatV1} {members : List RabbitVRFCommitteeMemberV1}
    {registry : CanonicalRegistry} (few : committee.length ≤ 128) (some : members ≠ [])
    (available : ∀ seat ∈ committee, seat ∈ snapshot.seats ∧
      availableAt registry referenceBlock heartbeatWindow seat = true)
    (numbered : rabbitVRFCommitteeMembersV1 committee = .ok members) :
    AvailableCommittee snapshot registry referenceBlock heartbeatWindow members := by
  have seats := committeeOfMembers_eq numbered
  obtain ⟨_, distinct, rfl⟩ := rabbitVRFCommitteeMembersV1_ok numbered
  refine ⟨some, ?_, ?_, ?_⟩
  · intro member listed
    obtain ⟨index, inside, rfl⟩ := List.mem_mapIdx.mp listed
    obtain ⟨owned, present⟩ := available _ (List.getElem_mem inside)
    exact ⟨owned, availableAt_iff.mp present⟩
  · rw [← seats, committeeOfMembers, List.map_map] at distinct
    exact distinct
  · refine List.ext_getElem (by simp) fun index inside _ => ?_
    have small : index + 1 < 2 ^ 64 := by
      rw [List.length_map, List.length_mapIdx] at inside
      omega
    simp only [List.getElem_map, List.getElem_mapIdx, List.getElem_range', UInt64.toNat_ofNat', Nat.mod_eq_of_lt small]
    omega

end Available

/-- The committee of available participants is what its name says, and the bridge made from it always passes the
check of lifecycle inputs, which recomputes the root it carries. -/
theorem availableCommittee_sound (crypto : Crypto) (chainID : Nat) (snapshot : WorkEpochSnapshotV1)
    (registry : RegistrySnapshot) :
    (∀ referenceBlock heartbeatWindow maxSize entropy rooted,
      rabbitVRFAvailableCommitteeWithSeedV2 crypto chainID snapshot registry referenceBlock heartbeatWindow maxSize
        entropy = .ok rooted →
      registry.number = referenceBlock ∧
        AvailableCommittee snapshot registry.registry referenceBlock heartbeatWindow rooted.2.2) ∧
    (∀ datasetKey epochLength window bridge,
      rabbitVRFAvailableBridgeV2 crypto chainID snapshot datasetKey registry epochLength window = .ok (some bridge) →
      AvailableCommittee snapshot registry.registry registry.number window bridge.members ∧
        rabbitVRFCommitteeRootV1 crypto bridge.session.chainID bridge.sourceWorkEpoch bridge.selectionRoot
          bridge.committeeSeed (committeeOfMembers bridge.members) = .ok (bridge.committeeRoot, bridge.members) ∧
        validateRabbitVRFDKGBridgeLifecycleInputV1 crypto bridge = .ok ()) := by
  constructor
  · intro referenceBlock heartbeatWindow maxSize entropy rooted chosen
    obtain ⟨_, reference, committee, few, available, commits⟩ := rabbitVRFAvailableCommitteeWithSeedV2_ok chosen
    obtain ⟨_, numbered, some, _⟩ := rabbitVRFCommitteeRootV1_ok commits
    exact ⟨reference, .of_members few some available numbered⟩
  · intro datasetKey epochLength window bridge made
    obtain ⟨_, _, made⟩ := bind_ok made
    obtain ⟨_, _, made⟩ := bind_ok made
    obtain ⟨_, _, made⟩ := bind_ok made
    obtain ⟨_, _, made⟩ := bind_ok made
    obtain ⟨_, _, made⟩ := bind_ok made
    obtain ⟨candidates, _, made⟩ := bind_ok made
    split at made
    · cases made
    · obtain ⟨entropy, derived, made⟩ := bind_ok made
      obtain ⟨rooted, chosen, made⟩ := bind_ok made
      obtain ⟨built, fromCommittee, made⟩ := bind_ok made
      obtain rfl := Option.some.inj (Except.ok.inj made)
      obtain ⟨beacon, _, committee, few, available, commits⟩ := rabbitVRFAvailableCommitteeWithSeedV2_ok chosen
      have carried := bridgeOfCommittee_commits commits fromCommittee
      obtain ⟨_, renumbered, members, _⟩ := rabbitVRFCommitteeRootV1_ok carried
      refine ⟨.of_members few members available renumbered, ?_, ?_⟩
      · rw [committeeOfMembers_eq renumbered]
        exact carried
      · exact bridgeOfCommittee_validates (deriveWorkSelectionEntropyV1_datasetKey derived) beacon (by omega) commits
          fromCommittee

def threeSeats : WorkEpochSnapshotV1 :=
  (newWorkEpochSnapshotV1 plainCrypto 1 1 5 1 [⟨10, 1⟩, ⟨11, 2⟩, ⟨12, 3⟩]).toOption.getD ⟨0, 0, 0, 0, []⟩

/-- The registry just before the preparation, where the second of the three is jailed. -/
def jailedSecond : RegistrySnapshot :=
  ⟨256, 1, ((KeyedList.empty.put { address := 1, registeredAt := 1, lastHeartbeat := 250, active := true }).put
    { address := 2, registeredAt := 1, lastHeartbeat := 250, jailedUntil := 300, active := true }).put
    { address := 3, registeredAt := 1, lastHeartbeat := 200, active := true }⟩

/-- The bridge has the two others. -/
theorem availableCommittee_sound_jailed : ∃ bridge,
    rabbitVRFAvailableBridgeV2 plainCrypto 1 threeSeats 1 jailedSecond 128 100 = .ok (some bridge) ∧
    bridge.members.map (·.participant) = [1, 3] ∧
    AvailableCommittee threeSeats jailedSecond.registry 256 100 bridge.members ∧
    validateRabbitVRFDKGBridgeLifecycleInputV1 plainCrypto bridge = .ok () := by
  obtain ⟨made, run, checks⟩ : ∃ made, rabbitVRFAvailableBridgeV2 plainCrypto 1 threeSeats 1 jailedSecond 128 100 =
      .ok made ∧ made.map (·.members.map (·.participant)) = some [1, 3] :=
    exists_ok_of_any (by decide +kernel)
  obtain ⟨bridge, rfl, members⟩ := Option.map_eq_some_iff.mp checks
  obtain ⟨available, _, validates⟩ :=
    (availableCommittee_sound plainCrypto 1 threeSeats jailedSecond).2 1 128 100 bridge run
  exact ⟨bridge, run, members, available, validates⟩

end RabbitLqc
