import RabbitLqc.Engine.Authors

/-!
# Roles in a queue

Whatever rule a block is under, its producer, its fallbacks and its committee are consecutive parts of one
queue that names nobody twice. The position charged to an author is its place in that queue, so that missed
turns fall on those before it.
-/

namespace RabbitLqc
open Lib

/-! ### Seats in order -/

section Order

variable {crypto : Crypto} {config : LqcConfig} {registry : CanonicalRegistry} {seats ordered : List WorkSeatV1}
  {seed : Hash} {blockNumber roleLimit : Nat}

theorem orderSeatsByLiveness_perm {final : List WorkSeatV1}
    (h : config.workV1EngineLabOrderSeatsByLiveness registry ordered blockNumber = .ok final) :
    final.Perm ordered := by
  unfold LqcConfig.workV1EngineLabOrderSeatsByLiveness at h
  split at h
  · obtain rfl := Except.ok.inj h
    exact List.filter_append_perm _ _
  · split at h
    · obtain rfl := Except.ok.inj h
      exact List.Perm.refl _
    · obtain ⟨_, _, h⟩ := bind_ok h
      obtain rfl := Except.ok.inj h
      exact List.perm_append_comm.trans (List.filter_append_perm _ _)

theorem orderSeatsAt_subperm (h : config.orderSeatsAt registry crypto seats seed blockNumber roleLimit = .ok ordered) :
    ordered.Subperm seats := by
  unfold LqcConfig.orderSeatsAt at h
  split at h
  · obtain ⟨sorted, sort, h⟩ := bind_ok h
    obtain rfl := Except.ok.inj h
    obtain ⟨_, _, rfl⟩ := deterministicallyOrderWorkSeatsV1_ok_iff.mp sort
    unfold LqcConfig.workV1EngineLabOrderSeatsByLivenessV4
    split
    · exact sortOn_perm.subperm
    · exact List.filter_sublist.subperm.trans sortOn_perm.subperm
  · split at h
    · obtain ⟨sorted, sort, h⟩ := bind_ok h
      obtain rfl := Except.ok.inj h
      obtain ⟨_, _, rfl⟩ := deterministicallyOrderWorkSeatsV1_ok_iff.mp sort
      unfold LqcConfig.workV1EngineLabOrderSeatsByLivenessV4Legacy
      split
      · exact sortOn_perm.subperm
      · exact (List.filter_append_perm _ _).subperm.trans (List.filter_sublist.subperm.trans sortOn_perm.subperm)
    · split at h
      · exact deterministicallySelectWorkSeatsV1_subperm h
      · obtain ⟨sorted, sort, h⟩ := bind_ok h
        obtain ⟨_, _, rfl⟩ := deterministicallyOrderWorkSeatsV1_ok_iff.mp sort
        exact ((orderSeatsByLiveness_perm h).trans sortOn_perm).subperm

theorem SeatSet.subperm (set : SeatSet seats) (part : ordered.Subperm seats) : SeatSet ordered := by
  obtain ⟨same, perm, sublist⟩ := part
  refine SeatSet.perm ⟨fun seat member => ?_, ?_, ?_⟩ perm
  · exact set.nonzero seat (sublist.subset member)
  · exact set.hashes.sublist (sublist.map _)
  · exact set.participants.sublist (sublist.map _)

end Order

/-! ### Parts of a queue -/

/-- Nobody stands in the queue twice. The fallbacks follow the producer, a slice follows them, and the committee
is what is left of the slice. -/
structure Roles (selection : HybridSelection) : Prop where
  distinct : selection.ordered.Nodup
  parts : ∃ slice rest, selection.ordered.drop 1 = selection.fallbacks ++ (slice ++ rest) ∧
    selection.committee.Sublist slice

def ChargedInQueue (config : LqcConfig) (blockNumber : Nat) (selection : HybridSelection) : Prop :=
  ∀ author position, config.isAuthorAllowedAt blockNumber selection author = some position →
    selection.ordered[position]? = some author ∧ selection.ordered.idxOf author = position

section Position

variable {config : LqcConfig} {blockNumber position : Nat} {selection : HybridSelection} {author : Address}

theorem getElem?_of_findIdx? {addresses : List Address} (found : addresses.findIdx? (· = author) = some position) :
    addresses[position]? = some author := by
  obtain ⟨inside, same, _⟩ := List.findIdx?_eq_some_iff_getElem.mp found
  rw [List.getElem?_eq_getElem inside, of_decide_eq_true same]

theorem Roles.getElem?_of_bounded (roles : Roles selection)
    (allowed : selection.isAuthorAllowedBounded author = some position) :
    selection.ordered[position]? = some author := by
  unfold HybridSelection.isAuthorAllowedBounded at allowed
  split at allowed
  · next first =>
    obtain rfl := Option.some.inj allowed
    rw [← List.head?_eq_getElem?]
    exact first
  · obtain ⟨index, found, rfl⟩ := Option.map_eq_some_iff.mp allowed
    obtain ⟨slice, rest, parts, _⟩ := roles.parts
    have here := getElem?_of_findIdx? found
    have inside := (List.getElem?_eq_some_iff.mp here).1
    calc selection.ordered[index + 1]? = (selection.ordered.drop 1)[index]? := by rw [List.getElem?_drop, Nat.add_comm]
      _ = selection.fallbacks[index]? := by rw [parts, List.getElem?_append_left inside]
      _ = some author := here

theorem Roles.charged (roles : Roles selection) : ChargedInQueue config blockNumber selection := by
  intro author position allowed
  have here : selection.ordered[position]? = some author := by
    unfold LqcConfig.isAuthorAllowedAt at allowed
    split at allowed
    · exact roles.getElem?_of_bounded allowed
    · split at allowed
      · exact getElem?_of_findIdx? allowed
      · split at allowed
        · exact roles.getElem?_of_bounded allowed
        · exact getElem?_of_findIdx? allowed
  obtain ⟨inside, same⟩ := List.getElem?_eq_some_iff.mp here
  refine ⟨here, ?_⟩
  rw [← same]
  exact roles.distinct.idxOf_getElem position inside

end Position

/-! ### Cuts -/

section Cut

variable {config : LqcConfig} {registry : CanonicalRegistry} {blockNumber : Nat}

variable {ordered : List Address}

theorem buildWorkSelection_cons (head : WorkSeatV1) (rest : List WorkSeatV1) (fallbackCount committeeSize : Nat) :
    buildWorkSelectionFromOrderedSeatsV1 (head :: rest) fallbackCount committeeSize =
      ⟨head :: rest, rest.take fallbackCount, (rest.drop fallbackCount).take committeeSize⟩ := by
  unfold buildWorkSelectionFromOrderedSeatsV1
  rw [List.length_cons, Nat.add_sub_cancel]
  by_cases short : fallbackCount < rest.length
  · simp only [if_pos short, Nat.add_comm 1, List.take_succ_cons, List.drop_succ_cons, List.drop_zero]
  · have all := Nat.le_of_not_lt short
    simp only [if_neg short, List.take_succ_cons, List.drop_succ_cons, List.drop_zero, List.take_length,
      List.drop_length, List.take_of_length_le all, List.drop_of_length_le all]

theorem canonicalRoles_cons (head : Address) (rest : List Address) :
    config.canonicalRoles (head :: rest) = ⟨head :: rest, rest.take config.hybridFallbackCount,
      (rest.drop config.hybridFallbackCount).take (config.committeeSizeFor (rest.length + 1))⟩ := by
  generalize size : config.committeeSizeFor (rest.length + 1) = committeeSize
  have fallbackEnd : min (1 + config.hybridFallbackCount) (rest.length + 1) =
      min config.hybridFallbackCount rest.length + 1 := by omega
  have committeeEnd : min (min config.hybridFallbackCount rest.length + 1 + committeeSize) (rest.length + 1) =
      min (min config.hybridFallbackCount rest.length + committeeSize) rest.length + 1 := by omega
  unfold LqcConfig.canonicalRoles
  simp only [List.length_cons, size, fallbackEnd, committeeEnd, List.take_succ_cons, List.drop_succ_cons,
    List.drop_zero, List.drop_take]
  congr 1
  · rw [List.take_eq_take_iff]
    omega
  · rcases Nat.le_total config.hybridFallbackCount rest.length with inside | outside
    · rw [Nat.min_eq_left inside, List.take_eq_take_iff, List.length_drop]
      omega
    · rw [Nat.min_eq_right outside, List.drop_length, List.drop_of_length_le outside]
      simp

structure Cut (ordered : List WorkSeatV1) (fallbackCount committeeSize : Nat) (cut : WorkSelectionV1) : Prop where
  whole : cut.ordered = ordered
  parts : ∃ rest, ordered = ordered.take 1 ++ (cut.fallbacks ++ (cut.committee ++ rest))
  fallbacks : cut.fallbacks.length ≤ fallbackCount
  committee : cut.committee.length ≤ committeeSize

theorem buildWorkSelection_cut (ordered : List WorkSeatV1) (fallbackCount committeeSize : Nat) :
    Cut ordered fallbackCount committeeSize
      (buildWorkSelectionFromOrderedSeatsV1 ordered fallbackCount committeeSize) := by
  cases ordered with
  | nil => exact ⟨rfl, ⟨[], by simp [buildWorkSelectionFromOrderedSeatsV1]⟩,
      by simp [buildWorkSelectionFromOrderedSeatsV1], by simp [buildWorkSelectionFromOrderedSeatsV1]⟩
  | cons head rest =>
    rw [buildWorkSelection_cons]
    refine ⟨rfl, ⟨(rest.drop fallbackCount).drop committeeSize, ?_⟩, List.length_take_le _ _, List.length_take_le _ _⟩
    simp only [List.take_append_drop, List.take_succ_cons, List.take_zero, List.singleton_append]

theorem filterCommitteeAt_sublist (selection : WorkSelectionV1) :
    (config.filterCommitteeAt registry blockNumber selection).committee.Sublist selection.committee := by
  unfold LqcConfig.filterCommitteeAt
  split
  · exact List.filter_sublist
  · split
    · exact List.filter_sublist
    · split
      · exact List.filter_sublist
      · exact List.Sublist.refl _

theorem Cut.roles {ordered : List WorkSeatV1} {fallbackCount committeeSize : Nat} {cut : WorkSelectionV1}
    (parts : Cut ordered fallbackCount committeeSize cut) (distinct : (ordered.map (·.participant)).Nodup) :
    Roles (workV1EngineLabHybridSelection (config.filterCommitteeAt registry blockNumber cut)) := by
  obtain ⟨rest, whole⟩ := parts.parts
  refine ⟨?_, cut.committee.map (·.participant), rest.map (·.participant), ?_, ?_⟩
  · simp only [workV1EngineLabHybridSelection, filterCommitteeAt_ordered, parts.whole]
    exact distinct
  · simp only [workV1EngineLabHybridSelection, filterCommitteeAt_ordered, filterCommitteeAt_fallbacks, parts.whole]
    rw [← List.map_drop, ← List.map_append, ← List.map_append]
    congr 1
    cases ordered with
    | nil => simpa using whole
    | cons head tail => exact List.tail_eq_of_cons_eq whole
  · exact (filterCommitteeAt_sublist cut).map _

theorem Roles.canonical (distinct : ordered.Nodup) : Roles (config.canonicalRoles ordered) := by
  cases ordered with
  | nil => exact ⟨List.nodup_nil, [], [], by simp [LqcConfig.canonicalRoles], by simp [LqcConfig.canonicalRoles]⟩
  | cons head rest =>
    rw [canonicalRoles_cons]
    refine ⟨distinct, _, (rest.drop config.hybridFallbackCount).drop (config.committeeSizeFor (rest.length + 1)), ?_,
      List.Sublist.refl _⟩
    simp only [List.take_append_drop, List.drop_succ_cons, List.drop_zero]

theorem Roles.of_fallbacks (distinct : ordered.Nodup) : Roles { ordered := ordered, fallbacks := ordered.drop 1 } :=
  ⟨distinct, [], [], by simp, List.Sublist.refl _⟩

end Cut

/-! ### Every selection of a header -/

section Header

variable {crypto : Crypto} {config : LqcConfig} {chainID : Nat} {anchor : Nat → Option Hash}
  {parent : CanonicalWorkRuntimeStateV1} {parentRegistry : RegistrySnapshot} {header : Header}
  {registry : CanonicalRegistry} {source : WorkEpochSnapshotV1}

variable {selected : HybridSelection × Bool} {seats : List WorkSeatV1} {lease : HybridSelection}

theorem orderedIdentities_nodup : (orderedIdentities crypto registry header).Nodup :=
  sortOn_perm.nodup_iff.mpr (registry.addresses_nodup.sublist (List.filter_sublist.map _))

theorem inactiveFallback_roles (opened : parentRegistry.open crypto = .ok registry)
    (h : inactiveFallback crypto config parentRegistry header = .ok selected) : Roles selected.1 := by
  have each (count : Nat) {selection : HybridSelection}
      (h : workV1EngineLabActivationSelection crypto parentRegistry header count = .ok selection) :
        Roles selection := by
    rw [activationSelection_eq opened] at h
    obtain rfl := Except.ok.inj h
    exact .of_fallbacks (orderedIdentities_nodup.sublist (List.take_sublist _ _))
  unfold inactiveFallback workV1EngineLabActivationFallbackAt workV1EngineLabActivationFallback at h
  obtain ⟨selection, fallback, h⟩ := bind_ok h
  obtain rfl := Except.ok.inj h
  split at fallback
  · exact each _ fallback
  · exact each _ fallback

theorem Roles.leased (holder : Address) : Roles { ordered := [holder] } :=
  .of_fallbacks (List.nodup_singleton holder)

theorem boundActivationLeaseFallbacks_roles {holder : Address} {work : HybridSelection} (roles : Roles work) :
    Roles (workV2EngineLabBoundActivationLeaseFallbacks { ordered := [holder] } work) := by
  unfold workV2EngineLabBoundActivationLeaseFallbacks
  dsimp only [HybridSelection.producer?, List.head?_cons]
  split
  · exact .leased holder
  · refine .of_fallbacks (List.nodup_cons.mpr ⟨fun again => ?_, ?_⟩)
    · have kept := List.of_mem_filter (List.mem_of_mem_take again)
      simp at kept
    · exact roles.distinct.sublist ((List.take_sublist _ _).trans List.filter_sublist)

theorem buildSeatSelection_roles {sourceEpoch blockNumber : Nat} {selectionRoot datasetKey : Hash}
    (set : SeatSet seats)
    (h : workV1EngineLabBuildSeatSelection crypto config chainID sourceEpoch selectionRoot seats datasetKey blockNumber
        registry = .ok selected) : Roles selected.1 := by
  have nobody : Roles {} := .of_fallbacks List.nodup_nil
  unfold workV1EngineLabBuildSeatSelection at h
  obtain ⟨_, _, h⟩ := bind_ok h
  split at h
  · obtain rfl := Except.ok.inj h
    exact nobody
  · obtain ⟨_, _, h⟩ := bind_ok h
    obtain ⟨seed, _, h⟩ := bind_ok h
    obtain ⟨ordered, order, h⟩ := bind_ok h
    split at h
    · obtain rfl := Except.ok.inj h
      exact nobody
    · obtain rfl := Except.ok.inj h
      exact (buildWorkSelection_cut _ _ _).roles (set.subperm (orderSeatsAt_subperm order)).participants

theorem seatSelectionForHeader_roles (set : SeatSet source.seats)
    (h : seatSelectionForHeader crypto config chainID anchor parent parentRegistry header source = .ok selected) :
    (∃ registry, parentRegistry.open crypto = .ok registry) ∧ Roles selected.1 := by
  unfold seatSelectionForHeader at h
  obtain ⟨datasetNumber, _, h⟩ := bind_ok h
  cases found : anchor datasetNumber with
  | none =>
    rw [found] at h
    cases h
  | some datasetHash =>
    rw [found] at h
    obtain ⟨datasetKey, _, h⟩ := bind_ok h
    obtain ⟨registry, opened, h⟩ := bind_ok h
    exact ⟨⟨registry, opened⟩, buildSeatSelection_roles set h⟩

theorem activationSelection_opened {count : Nat} {selection : HybridSelection}
    (h : workV1EngineLabActivationSelection crypto parentRegistry header count = .ok selection) :
    ∃ registry, parentRegistry.open crypto = .ok registry := by
  obtain ⟨registry, opened, _⟩ := bind_ok h
  exact ⟨registry, opened⟩

theorem inactiveFallback_opened (h : inactiveFallback crypto config parentRegistry header = .ok selected) :
    ∃ registry, parentRegistry.open crypto = .ok registry := by
  unfold inactiveFallback workV1EngineLabActivationFallbackAt at h
  obtain ⟨selection, fallback, _⟩ := bind_ok h
  split at fallback
  · exact activationSelection_opened fallback
  · exact activationSelection_opened fallback

theorem activationLease_holder (h : workV2EngineLabActivationLease crypto parentRegistry header seats = .ok lease) :
    ∃ holder : Option Address, lease = { ordered := holder.toList } := by
  have fallback := h
  unfold workV2EngineLabActivationLease at fallback
  obtain ⟨selection, fallback, _⟩ := bind_ok fallback
  obtain ⟨registry, opened⟩ := activationSelection_opened fallback
  rw [activationLease_eq opened] at h
  exact ⟨_, (Except.ok.inj h).symm⟩

theorem earlyLease_holder (h : earlyLease crypto config parentRegistry header source = .ok lease) :
    ∃ holder : Option Address, lease = { ordered := holder.toList } := by
  unfold earlyLease at h
  split at h
  · exact activationLease_holder h
  · exact ⟨none, (Except.ok.inj h).symm⟩

theorem Roles.held (holder : Option Address) : Roles { ordered := holder.toList } := by
  cases holder with
  | none => exact .of_fallbacks List.nodup_nil
  | some address => exact .leased address

theorem leasedSelection_roles {holder : Option Address} {seats : HybridSelection × Bool}
    (some : ({ ordered := holder.toList } : HybridSelection).producer?.isSome = true)
    (opened : parentRegistry.open crypto = .ok registry) (roles : Roles seats.1)
    (h : leasedSelection crypto config parentRegistry header { ordered := holder.toList } seats = .ok selected) :
    Roles selected.1 := by
  unfold leasedSelection at h
  split at h
  · obtain rfl := Except.ok.inj h
    cases holder with
    | none => cases some
    | some address => exact boundActivationLeaseFallbacks_roles roles
  · exact inactiveFallback_roles opened h

theorem unleasedSelection_roles {seats : HybridSelection × Bool} (opened : parentRegistry.open crypto = .ok registry)
    (roles : Roles seats.1) (h : unleasedSelection crypto config parentRegistry header source seats = .ok selected) :
    Roles selected.1 := by
  unfold unleasedSelection at h
  split at h
  · obtain rfl := Except.ok.inj h
    exact roles
  · split at h
    · obtain ⟨lease, late, h⟩ := bind_ok h
      split at h
      · obtain rfl := Except.ok.inj h
        obtain ⟨holder, rfl⟩ := activationLease_holder late
        exact .held holder
      · exact inactiveFallback_roles opened h
    · exact inactiveFallback_roles opened h

theorem selectionForHeader_roles (set : SeatSet parent.work.selectionSeats)
    (h : workV1EngineLabSelectionForHeader crypto config chainID anchor parent parentRegistry header = .ok selected) :
    Roles selected.1 := by
  unfold workV1EngineLabSelectionForHeader at h
  obtain ⟨_, _, h⟩ := bind_ok h
  obtain ⟨epoch, _, h⟩ := bind_ok h
  cases epoch with
  | none =>
    obtain ⟨registry, opened⟩ := inactiveFallback_opened h
    exact inactiveFallback_roles opened h
  | some sourceEpoch =>
    unfold WorkChainSnapshotV1.selectionSeats at set
    cases found : parent.work.selection with
    | none =>
      rw [found] at h
      cases h
    | some source =>
      rw [found] at h set
      obtain ⟨_, _, h⟩ := bind_ok h
      obtain ⟨lease, early, h⟩ := bind_ok h
      obtain ⟨holder, rfl⟩ := earlyLease_holder early
      split at h
      · obtain rfl := Except.ok.inj h
        exact .held holder
      · obtain ⟨seats, seated, h⟩ := bind_ok h
        obtain ⟨⟨registry, opened⟩, roles⟩ := seatSelectionForHeader_roles set seated
        split at h
        · next some => exact leasedSelection_roles some opened roles h
        · exact unleasedSelection_roles opened roles h

end Header

/-! ### Reachable parents -/

theorem Accepted.parentSeats {lqc : LQC} {branch : Branch} {runtime : CanonicalWorkRuntimeStateV1}
    (accepted : Accepted lqc branch) (runs : LQC.parentRuntime branch = .ok runtime) :
    SeatSet runtime.work.selectionSeats := by
  cases branch with
  | nil => exact absurd rfl accepted.ne_nil
  | cons entry rest => exact (accepted.runtimes runs).1.valid.work.selectionSeats

/-! ### Counts -/

theorem roleCounts_le {seatCount : Nat} (some : seatCount ≠ 0) (fallbackCount committeeSize : Nat) (reserve : Bool) :
    1 + (workV1EngineLabRoleCounts seatCount fallbackCount committeeSize reserve).1 +
      (workV1EngineLabRoleCounts seatCount fallbackCount committeeSize reserve).2 ≤ seatCount := by
  unfold workV1EngineLabRoleCounts
  rw [if_neg some]
  dsimp only
  split
  · omega
  · omega

/-- The roles of every selection, by seats in each regime, behind or without a lease, and from the registry. -/
theorem role_partition (crypto : Crypto) (config : LqcConfig) :
    (∀ seats, SeatSet seats → seats ≠ [] → ∀ registry seed blockNumber fallbackCount committeeSize reserve,
      let counts := workV1EngineLabRoleCounts seats.length fallbackCount committeeSize reserve
      1 + counts.1 + counts.2 ≤ seats.length ∧
      ∀ ordered, config.orderSeatsAt registry crypto seats seed blockNumber (1 + counts.1 + counts.2) = .ok ordered →
        let cut := buildWorkSelectionFromOrderedSeatsV1 ordered counts.1 counts.2
        let selection := workV1EngineLabHybridSelection (config.filterCommitteeAt registry blockNumber cut)
        Cut ordered counts.1 counts.2 cut ∧ ordered.Nodup ∧ ordered ⊆ seats ∧ Roles selection ∧
          ChargedInQueue config blockNumber selection) ∧
    (∀ chainID anchor (parent : CanonicalWorkRuntimeStateV1) parentRegistry header selected,
      SeatSet parent.work.selectionSeats →
      workV1EngineLabSelectionForHeader crypto config chainID anchor parent parentRegistry header = .ok selected →
        Roles selected.1 ∧ ChargedInQueue config header.number selected.1) ∧
    (∀ (registry : CanonicalRegistry) parentHash blockNumber activationDelay,
      let selection := config.canonicalRoles
        (registry.orderedParticipantsForBlock crypto parentHash blockNumber activationDelay)
      Roles selection ∧ ChargedInQueue config blockNumber selection) := by
  refine ⟨?_, ?_, ?_⟩
  · intro seats set some registry seed blockNumber fallbackCount committeeSize reserve counts
    have length : seats.length ≠ 0 := fun none => some (List.length_eq_zero_iff.mp none)
    refine ⟨roleCounts_le length fallbackCount committeeSize reserve, fun ordered order => ?_⟩
    have part := orderSeatsAt_subperm order
    have distinct := (set.subperm part).participants
    have cut := buildWorkSelection_cut ordered counts.1 counts.2
    exact ⟨cut, distinct.of_map _, part.subset, cut.roles distinct, (cut.roles distinct).charged⟩
  · intro chainID anchor parent parentRegistry header selected set selects
    have roles := selectionForHeader_roles set selects
    exact ⟨roles, roles.charged⟩
  · intro registry parentHash blockNumber activationDelay selection
    have roles : Roles selection := .canonical registry.orderedParticipantsForBlock_nodup
    exact ⟨roles, roles.charged⟩

/-- Three seats of unregistered participants before any fork. -/
theorem role_partition_three : ∃ ordered,
    ({} : LqcConfig).orderSeatsAt KeyedList.empty plainCrypto [⟨1, 1⟩, ⟨2, 2⟩, ⟨3, 3⟩] 1 9 3 = .ok ordered ∧
      Roles (workV1EngineLabHybridSelection (({} : LqcConfig).filterCommitteeAt KeyedList.empty 9
        (buildWorkSelectionFromOrderedSeatsV1 ordered 1 1))) :=
  ⟨sortOn (WorkSeatV1.scoreKey plainCrypto 1) [⟨1, 1⟩, ⟨2, 2⟩, ⟨3, 3⟩], rfl,
    ((role_partition plainCrypto {}).1 [⟨1, 1⟩, ⟨2, 2⟩, ⟨3, 3⟩] ⟨by decide, by decide, by decide⟩ (by decide)
      KeyedList.empty 1 9 1 1 false).2 _ rfl |>.2.2.2.1⟩

/-! ### Committee duty -/

def LqcConfig.committeeSlice (config : LqcConfig) (seatCount blockNumber : Nat) (ordered : List Address) :
    List Address :=
  let counts := workV1EngineLabRoleCounts seatCount config.hybridFallbackCount
    (config.workV1EngineLabCommitteeSize seatCount) (config.vrfForkLivenessActive blockNumber)
  (ordered.drop (1 + counts.1)).take counts.2

section Committee

variable {crypto : Crypto} {config : LqcConfig} {registry : CanonicalRegistry} {blockNumber : Nat}

theorem buildWorkSelection_committee (ordered : List WorkSeatV1) (fallbackCount committeeSize : Nat) :
    (buildWorkSelectionFromOrderedSeatsV1 ordered fallbackCount committeeSize).committee =
      (ordered.drop (1 + fallbackCount)).take committeeSize := by
  cases ordered with
  | nil => simp [buildWorkSelectionFromOrderedSeatsV1]
  | cons head rest => rw [buildWorkSelection_cons, Nat.add_comm, List.drop_succ_cons]

theorem buildSeatSelection_committee {chainID sourceEpoch : Nat} {selectionRoot datasetKey : Hash}
    {seats : List WorkSeatV1} {selection : HybridSelection}
    (fifth : config.consensusLivenessV5Active blockNumber = true)
    (h : workV1EngineLabBuildSeatSelection crypto config chainID sourceEpoch selectionRoot seats datasetKey blockNumber
      registry = .ok (selection, true)) :
    selection.committee = (config.committeeSlice seats.length blockNumber selection.ordered).filter fun address =>
      (registry.participant? address).any (·.jailedUntil ≤ blockNumber) := by
  unfold workV1EngineLabBuildSeatSelection at h
  obtain ⟨_, _, h⟩ := bind_ok h
  split at h
  · cases h
  · obtain ⟨_, _, h⟩ := bind_ok h
    obtain ⟨seed, _, h⟩ := bind_ok h
    obtain ⟨ordered, _, h⟩ := bind_ok h
    split at h
    · cases h
    · obtain rfl := (Prod.mk.inj (Except.ok.inj h)).1
      unfold LqcConfig.filterCommitteeAt workV1EngineLabFilterCommitteeByLiveness LqcConfig.committeeSlice
      simp only [if_pos fifth, workV1EngineLabHybridSelection, buildWorkSelection_committee]
      rw [← List.map_drop, ← List.map_take, List.filter_map]
      rfl

end Committee

/-- From the fifth liveness fork on, the committee of an active selection is its slice of the queue less the seats
that are jailed or that the registry does not know. A heartbeat plays no part in it. -/
theorem committee_duty {crypto : Crypto} {config : LqcConfig} {registry : CanonicalRegistry}
    {chainID sourceEpoch blockNumber : Nat} {selectionRoot datasetKey : Hash} {seats : List WorkSeatV1}
    {selection : HybridSelection} (fifth : config.consensusLivenessV5Active blockNumber = true)
    (selects : workV1EngineLabBuildSeatSelection crypto config chainID sourceEpoch selectionRoot seats datasetKey
      blockNumber registry = .ok (selection, true)) :
    let slice := config.committeeSlice seats.length blockNumber selection.ordered
    selection.committee = slice.filter (fun address =>
        (registry.participant? address).isSome && !registry.jailedPast blockNumber address) ∧
      ∀ address ∈ slice, ∀ participant, registry.participant? address = some participant →
        participant.jailedUntil ≤ blockNumber → address ∈ selection.committee := by
  intro slice
  have cut := buildSeatSelection_committee fifth selects
  constructor
  · rw [cut]
    refine List.filter_congr fun address _ => ?_
    unfold CanonicalRegistry.jailedPast
    cases registry.participant? address with
    | none => rfl
    | some participant => simp only [Option.any_some, Option.isSome_some, Bool.true_and, ← decide_not, gt_iff_lt,
        Nat.not_lt]
  · intro address member participant registered free
    rw [cut, List.mem_filter, registered]
    exact ⟨member, decide_eq_true free⟩

/-- The fifth liveness rule, then the second admission rule; a producer, a fallback and a committee of one. -/
def dutyConfig : LqcConfig where
  proofDifficulty := 1
  registryProtocolBlock := 1
  fallbackCount := 1
  committeeSize := 1
  consensusLivenessV3Block := 257
  consensusLivenessV4Block := 257
  consensusLivenessV5Block := 257
  workSeatAdmissionV2Block := 260

def dutySeats : List WorkSeatV1 := [⟨1, 1⟩, ⟨2, 2⟩, ⟨3, 3⟩]

def dutySelection (registry : CanonicalRegistry) : Except LqcError (HybridSelection × Bool) :=
  workV1EngineLabBuildSeatSelection plainCrypto dutyConfig 1 1 1 dutySeats 1 261 registry

def dutyRegistry : CanonicalRegistry := KeyedList.empty.put { address := 3, registeredAt := 2, active := true }

theorem dutySelection_registered :
    dutySelection dutyRegistry = .ok ({ ordered := [1, 2, 3], fallbacks := [2], committee := [3] }, true) := by
  decide +kernel

theorem dutySelection_unregistered :
    dutySelection KeyedList.empty = .ok ({ ordered := [1, 2, 3], fallbacks := [2], committee := [] }, true) := by
  decide +kernel

theorem dutySlice : dutyConfig.committeeSlice dutySeats.length 261 [1, 2, 3] = [3] := by decide

/-- A registered seat keeps its position without any heartbeat. -/
theorem committee_duty_registered : ∃ selection participant,
    dutySelection dutyRegistry = .ok (selection, true) ∧ dutyRegistry.participant? 3 = some participant ∧
      participant.lastHeartbeat = 0 ∧ 3 ∈ selection.committee := by
  have fifth : dutyConfig.consensusLivenessV5Active 261 = true := by decide
  have known : dutyRegistry.participant? 3 = some { address := 3, registeredAt := 2, active := true } := by decide
  refine ⟨_, _, dutySelection_registered, known, rfl, ?_⟩
  refine (committee_duty fifth dutySelection_registered).2 3 ?_ _ known (Nat.zero_le _)
  rw [dutySlice]
  exact List.mem_singleton_self 3

/-- A seat admitted without a registry entry loses its committee position, although nobody is in jail. -/
theorem committee_duty_unregistered :
    dutyConfig.checkConfigForkOrder = true ∧ dutyConfig.consensusLivenessV5Active 261 = true ∧
    ∃ selection, dutySelection KeyedList.empty = .ok (selection, true) ∧
      selection.committee ≠ (dutyConfig.committeeSlice dutySeats.length 261 selection.ordered).filter
        (!CanonicalRegistry.jailedPast KeyedList.empty 261 ·) :=
  ⟨by decide, by decide, _, dutySelection_unregistered, by decide⟩

end RabbitLqc
