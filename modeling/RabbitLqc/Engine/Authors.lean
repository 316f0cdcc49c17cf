import RabbitLqc.Engine.Growth

/-!
# Who authors a block

The author of a header with a work envelope is in the selection its parent gives whenever that
selection calls anybody up. When it calls nobody, the registry queue of the time before work
decides instead, and any registered participant may be in it.
-/

namespace RabbitLqc
open Lib

variable {config : LqcConfig} {blockNumber : Nat} {selection : HybridSelection} {author : Address}

/-! ### Seats in the queue -/

namespace LqcConfig

def seatCallable (config : LqcConfig) (registry : CanonicalRegistry) (blockNumber : Nat)
    (seat : WorkSeatV1) : Bool :=
  if config.consensusLivenessV5Active blockNumber then
    forkBlock config.consensusLivenessV4Block blockNumber ||
      forkBlock config.consensusLivenessV5Block blockNumber ||
      config.seatKeptV5 registry blockNumber seat
  else if config.consensusLivenessV4Active blockNumber then
    forkBlock config.consensusLivenessV4Block blockNumber || seatKeptV4 registry blockNumber seat
  else true

variable {config : LqcConfig} {registry : CanonicalRegistry} {crypto : Crypto}
  {seats ordered : List WorkSeatV1} {seed : Hash} {blockNumber roleLimit : Nat} {seat : WorkSeatV1}

theorem mem_orderSeatsByLivenessV4 (active : config.consensusLivenessV5Active blockNumber = true) :
    seat ∈ config.workV1EngineLabOrderSeatsByLivenessV4 registry ordered blockNumber ↔
      seat ∈ ordered ∧ config.seatCallable registry blockNumber seat = true := by
  unfold workV1EngineLabOrderSeatsByLivenessV4 seatCallable
  rw [if_pos active]
  split
  · rename_i fork
    simp [fork]
  · rename_i fork
    rw [List.mem_filter]
    simp only [Bool.eq_false_iff.mpr fork, Bool.false_or]

theorem mem_orderSeatsByLivenessV4Legacy (before : config.consensusLivenessV5Active blockNumber = false)
    (active : config.consensusLivenessV4Active blockNumber = true) :
    seat ∈ config.workV1EngineLabOrderSeatsByLivenessV4Legacy registry ordered blockNumber ↔
      seat ∈ ordered ∧ config.seatCallable registry blockNumber seat = true := by
  unfold workV1EngineLabOrderSeatsByLivenessV4Legacy seatCallable
  rw [before, if_neg Bool.false_ne_true, if_pos active]
  split
  · rename_i fork
    simp [fork]
  · rename_i fork
    rw [mem_filter_append_filter_not, List.mem_filter]
    simp only [Bool.eq_false_iff.mpr fork, Bool.false_or]

theorem mem_orderSeatsByLiveness {final : List WorkSeatV1}
    (h : config.workV1EngineLabOrderSeatsByLiveness registry ordered blockNumber = .ok final) :
    seat ∈ final ↔ seat ∈ ordered := by
  unfold workV1EngineLabOrderSeatsByLiveness at h
  split at h
  · obtain rfl := Except.ok.inj h
    exact mem_filter_append_filter_not
  · split at h
    · obtain rfl := Except.ok.inj h
      exact Iff.rfl
    · obtain ⟨_, _, h⟩ := bind_ok h
      obtain rfl := Except.ok.inj h
      rw [List.mem_append, or_comm, ← List.mem_append]
      exact mem_filter_append_filter_not

theorem orderSeatsAt_subset
    (h : config.orderSeatsAt registry crypto seats seed blockNumber roleLimit = .ok ordered)
    (member : seat ∈ ordered) :
    seat ∈ seats ∧ config.seatCallable registry blockNumber seat = true := by
  unfold orderSeatsAt at h
  split at h
  · rename_i fifth
    obtain ⟨sorted, sort, h⟩ := bind_ok h
    obtain rfl := Except.ok.inj h
    obtain ⟨_, _, rfl⟩ := deterministicallyOrderWorkSeatsV1_ok_iff.mp sort
    obtain ⟨inSeats, callable⟩ := (mem_orderSeatsByLivenessV4 fifth).mp member
    exact ⟨mem_sortOn.mp inSeats, callable⟩
  · rename_i fifth
    split at h
    · rename_i fourth
      obtain ⟨sorted, sort, h⟩ := bind_ok h
      obtain rfl := Except.ok.inj h
      obtain ⟨_, _, rfl⟩ := deterministicallyOrderWorkSeatsV1_ok_iff.mp sort
      obtain ⟨inSeats, callable⟩ :=
        (mem_orderSeatsByLivenessV4Legacy (Bool.eq_false_iff.mpr fifth) fourth).mp member
      exact ⟨mem_sortOn.mp inSeats, callable⟩
    · rename_i fourth
      have callable : config.seatCallable registry blockNumber seat = true := by
        unfold seatCallable
        rw [if_neg fifth, if_neg fourth]
      split at h
      · exact ⟨(deterministicallySelectWorkSeatsV1_subperm h).subset member, callable⟩
      · obtain ⟨sorted, sort, h⟩ := bind_ok h
        obtain ⟨_, _, rfl⟩ := deterministicallyOrderWorkSeatsV1_ok_iff.mp sort
        exact ⟨mem_sortOn.mp ((mem_orderSeatsByLiveness h).mp member), callable⟩

theorem orderSeatsAt_ne_nil (room : roleLimit ≠ 0)
    (h : config.orderSeatsAt registry crypto seats seed blockNumber roleLimit = .ok ordered)
    (member : seat ∈ seats) (callable : config.seatCallable registry blockNumber seat = true) :
    ordered ≠ [] := by
  unfold orderSeatsAt at h
  split at h
  · rename_i fifth
    obtain ⟨sorted, sort, h⟩ := bind_ok h
    obtain rfl := Except.ok.inj h
    obtain ⟨_, _, rfl⟩ := deterministicallyOrderWorkSeatsV1_ok_iff.mp sort
    exact List.ne_nil_of_mem
      ((mem_orderSeatsByLivenessV4 fifth).mpr ⟨mem_sortOn.mpr member, callable⟩)
  · rename_i fifth
    split at h
    · rename_i fourth
      obtain ⟨sorted, sort, h⟩ := bind_ok h
      obtain rfl := Except.ok.inj h
      obtain ⟨_, _, rfl⟩ := deterministicallyOrderWorkSeatsV1_ok_iff.mp sort
      exact List.ne_nil_of_mem ((mem_orderSeatsByLivenessV4Legacy (Bool.eq_false_iff.mpr fifth)
        fourth).mpr ⟨mem_sortOn.mpr member, callable⟩)
    · split at h
      · intro empty
        have none := (deterministicallySelectWorkSeatsV1_eq_nil_iff room h).mp empty
        rw [none] at member
        cases member
      · obtain ⟨sorted, sort, h⟩ := bind_ok h
        obtain ⟨_, _, rfl⟩ := deterministicallyOrderWorkSeatsV1_ok_iff.mp sort
        exact List.ne_nil_of_mem ((mem_orderSeatsByLiveness h).mpr (mem_sortOn.mpr member))

end LqcConfig

/-! ### Queues of a selection -/

theorem isAuthorAllowedAt_mem (queued : selection.fallbacks ⊆ selection.ordered)
    (allowed : config.isAuthorAllowedAt blockNumber selection author ≠ none) : author ∈ selection.ordered := by
  have found {addresses : List Address} (some : addresses.findIdx? (· = author) ≠ none) :
      author ∈ addresses := by
    by_contra absent
    refine some (List.findIdx?_eq_none_iff.mpr fun address member => ?_)
    exact decide_eq_false fun same => absent (same ▸ member)
  have whole (some : selection.isAuthorAllowed author ≠ none) : author ∈ selection.ordered := found some
  have bounded (some : selection.isAuthorAllowedBounded author ≠ none) : author ∈ selection.ordered := by
    unfold HybridSelection.isAuthorAllowedBounded at some
    split at some
    · rename_i producer
      exact List.mem_of_mem_head? producer
    · exact queued (found fun none => some (by rw [none]; rfl))
  unfold LqcConfig.isAuthorAllowedAt at allowed
  split at allowed
  · exact bounded allowed
  · split at allowed
    · exact whole allowed
    · split at allowed
      · exact bounded allowed
      · exact whole allowed

structure SeatQueue (config : LqcConfig) (registry : CanonicalRegistry) (seats : List WorkSeatV1)
    (blockNumber : Nat) (selection : HybridSelection) (active : Bool) : Prop where
  owners : ∀ address ∈ selection.ordered, ∃ seat ∈ seats, seat.participant = address ∧
    config.seatCallable registry blockNumber seat = true
  fallbacks : selection.fallbacks ⊆ selection.ordered
  committee : selection.committee ⊆ selection.ordered
  nonempty : selection.ordered ≠ [] ↔ ∃ seat ∈ seats, config.seatCallable registry blockNumber seat = true
  active_iff : active = true ↔ seats ≠ [] ∧
    ((∃ seat ∈ seats, config.seatCallable registry blockNumber seat = true) ∨
      config.admissionV2Active blockNumber = false)

section SeatQueue

variable {config : LqcConfig} {registry : CanonicalRegistry} {crypto : Crypto}
  {seats : List WorkSeatV1} {blockNumber : Nat}

theorem filterCommitteeAt_ordered (selection : WorkSelectionV1) :
    (config.filterCommitteeAt registry blockNumber selection).ordered = selection.ordered := by
  unfold LqcConfig.filterCommitteeAt
  repeat' split
  all_goals rfl

theorem filterCommitteeAt_fallbacks (selection : WorkSelectionV1) :
    (config.filterCommitteeAt registry blockNumber selection).fallbacks = selection.fallbacks := by
  unfold LqcConfig.filterCommitteeAt
  repeat' split
  all_goals rfl

theorem filterCommitteeAt_committee (selection : WorkSelectionV1) :
    (config.filterCommitteeAt registry blockNumber selection).committee ⊆ selection.committee := by
  unfold LqcConfig.filterCommitteeAt
  split
  · exact List.filter_subset_self _
  · split
    · exact List.filter_subset_self _
    · split
      · exact List.filter_subset_self _
      · exact List.Subset.refl _

theorem SeatQueue.empty (none : ∀ seat ∈ seats, config.seatCallable registry blockNumber seat = false)
    (idle : seats = [] ∨ config.admissionV2Active blockNumber = true) :
    SeatQueue config registry seats blockNumber {} false where
  owners address member := by cases member
  fallbacks := List.nil_subset _
  committee := List.nil_subset _
  nonempty := by
    refine ⟨fun some => absurd rfl some, fun called => ?_⟩
    obtain ⟨seat, member, callable⟩ := called
    rw [none seat member] at callable
    cases callable
  active_iff := by
    refine ⟨fun active => absurd active Bool.false_ne_true, fun running => ?_⟩
    obtain ⟨some, ⟨seat, member, callable⟩ | before⟩ := running
    · rw [none seat member] at callable
      cases callable
    · rw [idle.resolve_left some] at before
      cases before

theorem SeatQueue.of_ordered {ordered : List WorkSeatV1} {seed : Hash} {roleLimit fallbackCount
    committeeSize : Nat} (room : roleLimit ≠ 0) (some : seats ≠ [])
    (h : config.orderSeatsAt registry crypto seats seed blockNumber roleLimit = .ok ordered)
    (running : ordered = [] → config.admissionV2Active blockNumber = false) :
    SeatQueue config registry seats blockNumber (workV1EngineLabHybridSelection
      (config.filterCommitteeAt registry blockNumber
        (buildWorkSelectionFromOrderedSeatsV1 ordered fallbackCount committeeSize))) true where
  owners address member := by
    simp only [workV1EngineLabHybridSelection, filterCommitteeAt_ordered] at member
    obtain ⟨seat, inOrder, same⟩ := List.mem_map.mp member
    obtain ⟨inSeats, callable⟩ := LqcConfig.orderSeatsAt_subset h inOrder
    exact ⟨seat, inSeats, same, callable⟩
  fallbacks := by
    simp only [workV1EngineLabHybridSelection, filterCommitteeAt_ordered, filterCommitteeAt_fallbacks]
    exact List.map_subset _ (buildWorkSelection_fallbacks_sublist _ _ _).subset
  committee := by
    simp only [workV1EngineLabHybridSelection, filterCommitteeAt_ordered]
    exact List.map_subset _ (List.Subset.trans (filterCommitteeAt_committee _)
      (buildWorkSelection_committee_sublist _ _ _).subset)
  nonempty := by
    simp only [workV1EngineLabHybridSelection, filterCommitteeAt_ordered, ne_eq, List.map_eq_nil_iff]
    constructor
    · intro nonempty
      obtain ⟨seat, inOrder⟩ := List.exists_mem_of_ne_nil _ nonempty
      obtain ⟨inSeats, callable⟩ := LqcConfig.orderSeatsAt_subset h inOrder
      exact ⟨seat, inSeats, callable⟩
    · intro called
      obtain ⟨seat, member, callable⟩ := called
      exact LqcConfig.orderSeatsAt_ne_nil room h member callable
  active_iff := by
    refine ⟨fun _ => ⟨some, ?_⟩, fun _ => rfl⟩
    by_cases empty : ordered = []
    · exact .inr (running empty)
    · obtain ⟨seat, inOrder⟩ := List.exists_mem_of_ne_nil _ empty
      obtain ⟨inSeats, callable⟩ := LqcConfig.orderSeatsAt_subset h inOrder
      exact .inl ⟨seat, inSeats, callable⟩

theorem buildSeatSelection_queue {chainID sourceEpoch : Nat} {selectionRoot datasetKey : Hash}
    {selected : HybridSelection × Bool}
    (h : workV1EngineLabBuildSeatSelection crypto config chainID sourceEpoch selectionRoot seats
      datasetKey blockNumber registry = .ok selected) :
    SeatQueue config registry seats blockNumber selected.1 selected.2 := by
  unfold workV1EngineLabBuildSeatSelection at h
  obtain ⟨_, _, h⟩ := bind_ok h
  split at h
  · rename_i none
    obtain rfl := Except.ok.inj h
    exact SeatQueue.empty (by rw [none]; simp) (.inl none)
  · rename_i some
    obtain ⟨_, _, h⟩ := bind_ok h
    obtain ⟨seed, _, h⟩ := bind_ok h
    obtain ⟨ordered, order, h⟩ := bind_ok h
    have room {fallbacks committee : Nat} : 1 + fallbacks + committee ≠ 0 := by omega
    split at h
    · rename_i idle
      obtain rfl := Except.ok.inj h
      refine SeatQueue.empty (fun seat member => ?_) (.inr idle.2)
      refine Bool.eq_false_iff.mpr fun callable => ?_
      exact LqcConfig.orderSeatsAt_ne_nil room order member callable idle.1
    · rename_i running
      obtain rfl := Except.ok.inj h
      refine SeatQueue.of_ordered room some order fun empty => Bool.eq_false_iff.mpr fun admission => ?_
      exact running ⟨empty, admission⟩

end SeatQueue

/-! ### Activation identities -/

def orderedIdentities (crypto : Crypto) (registry : CanonicalRegistry) (header : Header) : List Address :=
  deterministicallyOrderParticipants crypto header.parentHash header.number
    ((registry.participants.filter CanonicalParticipant.isActivationIdentity).map (·.address))

def CanonicalRegistry.Activated (registry : CanonicalRegistry) (address : Address) : Prop :=
  ∃ participant ∈ registry.participants, participant.isActivationIdentity = true ∧
    participant.address = address

instance (registry : CanonicalRegistry) (address : Address) : Decidable (registry.Activated address) :=
  inferInstanceAs (Decidable (∃ participant ∈ registry.participants, _ ∧ _))

def leaseHolder? (crypto : Crypto) (registry : CanonicalRegistry) (header : Header)
    (seats : List WorkSeatV1) : Option Address :=
  (orderedIdentities crypto registry header).head?.filter fun first =>
    !seats.any (·.participant = first)

section Activation

variable {crypto : Crypto} {registry : CanonicalRegistry} {parent : RegistrySnapshot} {header : Header}

theorem mem_orderedIdentities {address : Address} :
    address ∈ orderedIdentities crypto registry header ↔ registry.Activated address := by
  unfold orderedIdentities deterministicallyOrderParticipants CanonicalRegistry.Activated
  simp only [mem_sortOn, List.mem_map, List.mem_filter, and_assoc]

theorem activationSelection_eq (opened : parent.open crypto = .ok registry) (count : Nat) :
    workV1EngineLabActivationSelection crypto parent header count =
      .ok { ordered := (orderedIdentities crypto registry header).take (1 + count)
            fallbacks := ((orderedIdentities crypto registry header).take (1 + count)).drop 1 } := by
  unfold workV1EngineLabActivationSelection
  rw [opened]
  rfl

/-- A queue of activation identities: as long as there are any, it has one. -/
structure IdentityQueue (registry : CanonicalRegistry) (selection : HybridSelection) : Prop where
  identities : ∀ address ∈ selection.ordered, registry.Activated address
  fallbacks : selection.fallbacks ⊆ selection.ordered
  committee : selection.committee = []
  nonempty : selection.ordered ≠ [] ↔ ∃ address, registry.Activated address

theorem activationSelection_queue {count : Nat} {selection : HybridSelection}
    (opened : parent.open crypto = .ok registry)
    (h : workV1EngineLabActivationSelection crypto parent header count = .ok selection) :
    IdentityQueue registry selection := by
  rw [activationSelection_eq opened] at h
  obtain rfl := Except.ok.inj h
  refine ⟨fun address member => mem_orderedIdentities.mp (List.mem_of_mem_take member),
    List.drop_subset _ _, rfl, ?_⟩
  simp only [ne_eq, List.take_eq_nil_iff, not_or]
  constructor
  · intro nonempty
    obtain ⟨address, member⟩ := List.exists_mem_of_ne_nil _ nonempty.2
    exact ⟨address, mem_orderedIdentities.mp member⟩
  · intro found
    obtain ⟨address, activated⟩ := found
    exact ⟨by omega, List.ne_nil_of_mem (mem_orderedIdentities.mpr activated)⟩

theorem inactiveFallback_queue {config : LqcConfig} {selected : HybridSelection × Bool}
    (opened : parent.open crypto = .ok registry)
    (h : inactiveFallback crypto config parent header = .ok selected) :
    IdentityQueue registry selected.1 ∧ selected.2 = false := by
  unfold inactiveFallback workV1EngineLabActivationFallbackAt workV1EngineLabActivationFallback at h
  obtain ⟨selection, fallback, h⟩ := bind_ok h
  obtain rfl := Except.ok.inj h
  split at fallback
  · exact ⟨activationSelection_queue opened fallback, rfl⟩
  · exact ⟨activationSelection_queue opened fallback, rfl⟩

theorem activationLease_eq (opened : parent.open crypto = .ok registry) (seats : List WorkSeatV1) :
    workV2EngineLabActivationLease crypto parent header seats =
      .ok { ordered := (leaseHolder? crypto registry header seats).toList } := by
  unfold workV2EngineLabActivationLease workV1EngineLabActivationFallback leaseHolder?
  rw [activationSelection_eq opened]
  cases identities : orderedIdentities crypto registry header with
  | nil => rfl
  | cons first rest =>
    by_cases seated : seats.any (·.participant = first) = true
    · simp [bind, Except.bind, HybridSelection.producer?, seated, Option.filter]
    · simp [bind, Except.bind, HybridSelection.producer?, seated, Option.filter]

theorem leaseHolder?_activated {seats : List WorkSeatV1} {holder : Address}
    (leased : leaseHolder? crypto registry header seats = some holder) : registry.Activated holder := by
  unfold leaseHolder? at leased
  obtain ⟨first, _⟩ := Option.filter_eq_some_iff.mp leased
  exact mem_orderedIdentities.mp (List.mem_of_mem_head? first)

end Activation

/-! ### The selection of a header -/

/-- The closed epoch that elects the producer of a block, when there is one. -/
def WorkChainSnapshotV1.electing (work : WorkChainSnapshotV1) (blockNumber : Nat) :
    Option WorkEpochSnapshotV1 :=
  if (blockNumber - 1) / work.epochLength < 2 then none else work.selection

/-- The states of the parent leave somebody to call up: an activation identity before the first
election; after it a seat the liveness rule keeps, an activation identity where seats are not in
charge, or the holder of a lease where leases go first. -/
def CallsSomebody (crypto : Crypto) (config : LqcConfig) (work : WorkChainSnapshotV1)
    (registry : CanonicalRegistry) (header : Header) : Prop :=
  match work.electing header.number with
  | none => ∃ address, registry.Activated address
  | some source =>
    (∃ seat ∈ source.seats, config.seatCallable registry header.number seat = true) ∨
    ((∃ address, registry.Activated address) ∧
      (source.seats = [] ∨ config.admissionV2Active header.number = true)) ∨
    ((config.vrfForkLivenessActive header.number = true ∨
        config.consensusLivenessV6Active header.number = false) ∧
      leaseHolder? crypto registry header source.seats ≠ none)

structure WorkQueue (crypto : Crypto) (config : LqcConfig) (work : WorkChainSnapshotV1)
    (registry : CanonicalRegistry) (header : Header) (selection : HybridSelection) (active : Bool) :
    Prop where
  members : ∀ address ∈ selection.ordered,
    (∃ seat ∈ work.selectionSeats, seat.participant = address) ∨ registry.Activated address
  fallbacks : selection.fallbacks ⊆ selection.ordered
  nonempty : selection.ordered ≠ [] ↔ CallsSomebody crypto config work registry header
  seats : active = true →
    SeatQueue config registry work.selectionSeats header.number selection active
  idle : active = false → selection.committee = []

section WorkQueue

variable {crypto : Crypto} {config : LqcConfig} {chainID : Nat} {anchor : Nat → Option Hash}
  {parent : CanonicalWorkRuntimeStateV1} {parentRegistry : RegistrySnapshot} {header : Header}
  {registry : CanonicalRegistry} {source : WorkEpochSnapshotV1} {selected : HybridSelection × Bool}

variable {holder : Address} {seats : HybridSelection × Bool}

theorem workSelectionSourceEpochV1_ok {blockNumber epochLength : Nat} {epoch : Option Nat}
    (h : workSelectionSourceEpochV1 blockNumber epochLength = .ok epoch) :
    (epoch = none ↔ (blockNumber - 1) / epochLength < 2) := by
  unfold workSelectionSourceEpochV1 earlierWorkEpoch workEpochForBlockV1 at h
  obtain ⟨current, run, h⟩ := bind_ok h
  obtain ⟨_, _, run⟩ := bind_ok run
  obtain rfl := Except.ok.inj run
  obtain rfl := Except.ok.inj h
  split
  · exact ⟨fun _ => by omega, fun _ => rfl⟩
  · refine ⟨(nomatch ·), fun _ => ?_⟩
    omega

theorem callsSomebody_some (elects : parent.work.electing header.number = some source) :
    CallsSomebody crypto config parent.work registry header ↔
      (∃ seat ∈ source.seats, config.seatCallable registry header.number seat = true) ∨
      ((∃ address, registry.Activated address) ∧
        (source.seats = [] ∨ config.admissionV2Active header.number = true)) ∨
      ((config.vrfForkLivenessActive header.number = true ∨
          config.consensusLivenessV6Active header.number = false) ∧
        leaseHolder? crypto registry header source.seats ≠ none) := by
  unfold CallsSomebody
  rw [elects]

theorem electing_seats (elects : parent.work.electing header.number = some source) :
    parent.work.selectionSeats = source.seats := by
  unfold WorkChainSnapshotV1.electing at elects
  split at elects
  · cases elects
  · unfold WorkChainSnapshotV1.selectionSeats
    rw [elects]
    rfl

theorem IdentityQueue.workQueue (queue : IdentityQueue registry selection)
    (calls : CallsSomebody crypto config parent.work registry header ↔
        ∃ address, registry.Activated address) :
    WorkQueue crypto config parent.work registry header selection false where
  members address member := .inr (queue.identities address member)
  fallbacks := queue.fallbacks
  nonempty := queue.nonempty.trans calls.symm
  seats active := by cases active
  idle _ := queue.committee

theorem leased_workQueue {behind : List Address} (elects : parent.work.electing header.number = some source)
    (first : config.vrfForkLivenessActive header.number = true ∨
        config.consensusLivenessV6Active header.number = false)
    (leased : leaseHolder? crypto registry header source.seats = some holder)
    (owned : ∀ address ∈ behind, ∃ seat ∈ source.seats, seat.participant = address) :
    WorkQueue crypto config parent.work registry header
      { ordered := holder :: behind, fallbacks := behind } false where
  members address member := by
    rw [electing_seats elects]
    rcases List.mem_cons.mp member with rfl | later
    · exact .inr (leaseHolder?_activated leased)
    · exact .inl (owned address later)
  fallbacks := List.subset_cons_self _ _
  nonempty := by
    rw [callsSomebody_some elects]
    refine ⟨fun _ => .inr (.inr ⟨first, ?_⟩), fun _ => List.cons_ne_nil _ _⟩
    rw [leased]
    exact Option.some_ne_none holder
  seats active := by cases active
  idle _ := rfl

theorem seatSelectionForHeader_queue (opened : parentRegistry.open crypto = .ok registry)
    (h : seatSelectionForHeader crypto config chainID anchor parent parentRegistry header source =
        .ok seats) : SeatQueue config registry source.seats header.number seats.1 seats.2 := by
  unfold seatSelectionForHeader at h
  obtain ⟨_, _, h⟩ := bind_ok h
  split at h
  · cases h
  · obtain ⟨_, _, h⟩ := bind_ok h
    obtain ⟨same, run, h⟩ := bind_ok h
    obtain rfl := Except.ok.inj (opened.symm.trans run)
    exact buildSeatSelection_queue h

theorem SeatQueue.workQueue (elects : parent.work.electing header.number = some source)
    (queue : SeatQueue config registry source.seats header.number selection true)
    (unleased : ¬ ((config.vrfForkLivenessActive header.number = true ∨
        config.consensusLivenessV6Active header.number = false) ∧
        leaseHolder? crypto registry header source.seats ≠ none)) :
    WorkQueue crypto config parent.work registry header selection true where
  members address member := by
    obtain ⟨seat, inSeats, same, _⟩ := queue.owners address member
    rw [electing_seats elects]
    exact .inl ⟨seat, inSeats, same⟩
  fallbacks := queue.fallbacks
  nonempty := by
    rw [queue.nonempty, callsSomebody_some elects]
    refine ⟨.inl, fun calls => ?_⟩
    rcases calls with called | ⟨_, idle⟩ | leased
    · exact called
    · obtain ⟨some, called | before⟩ := queue.active_iff.mp rfl
      · exact called
      · rw [idle.resolve_left some] at before
        cases before
    · exact absurd leased unleased
  seats _ := by
    rw [electing_seats elects]
    exact queue
  idle active := by cases active

theorem SeatQueue.callsSomebody_iff (elects : parent.work.electing header.number = some source)
    (queue : SeatQueue config registry source.seats header.number selection false) :
    CallsSomebody crypto config parent.work registry header ↔ ∃ address, registry.Activated address := by
  have resting : ¬ (source.seats ≠ [] ∧
      ((∃ seat ∈ source.seats, config.seatCallable registry header.number seat = true) ∨
        config.admissionV2Active header.number = false)) := fun running =>
    Bool.false_ne_true (queue.active_iff.mpr running)
  rw [callsSomebody_some elects]
  constructor
  · intro calls
    rcases calls with ⟨seat, member, callable⟩ | ⟨found, _⟩ | ⟨_, leased⟩
    · exact absurd ⟨List.ne_nil_of_mem member, .inl ⟨seat, member, callable⟩⟩ resting
    · exact found
    · obtain ⟨holder, leased⟩ := Option.ne_none_iff_exists'.mp leased
      exact ⟨holder, leaseHolder?_activated leased⟩
  · intro found
    refine .inr (.inl ⟨found, ?_⟩)
    by_cases none : source.seats = []
    · exact .inl none
    · refine .inr ?_
      by_contra before
      exact resting ⟨none, .inr (Bool.eq_false_iff.mpr before)⟩

theorem earlyLease_eq (opened : parentRegistry.open crypto = .ok registry) :
    earlyLease crypto config parentRegistry header source =
      .ok { ordered := (if config.vrfForkLivenessActive header.number = true ∨
          config.consensusLivenessV6Active header.number = false then
        leaseHolder? crypto registry header source.seats else none).toList } := by
  unfold earlyLease
  rw [activationLease_eq opened]
  cases config.vrfForkLivenessActive header.number <;>
    cases config.consensusLivenessV6Active header.number <;> rfl

theorem boundActivationLeaseFallbacks_eq (holder : Address) (work : HybridSelection) :
    ∃ behind, behind ⊆ work.ordered ∧
      workV2EngineLabBoundActivationLeaseFallbacks { ordered := [holder] } work =
        { ordered := holder :: behind, fallbacks := behind } := by
  unfold workV2EngineLabBoundActivationLeaseFallbacks
  by_cases empty : work.fallbacks = []
  · exact ⟨[], List.nil_subset _, by simp [HybridSelection.producer?, empty]⟩
  · refine ⟨(work.ordered.filter fun address => address ≠ 0 && address ≠ holder).take
      (max 1 (work.fallbacks.length - 0)), ?_, by simp [HybridSelection.producer?, empty]⟩
    exact List.Subset.trans (List.take_subset _ _) (List.filter_subset_self _)

theorem leasedSelection_queue (opened : parentRegistry.open crypto = .ok registry)
    (elects : parent.work.electing header.number = some source)
    (randomness : config.vrfForkLivenessActive header.number = true)
    (leased : leaseHolder? crypto registry header source.seats = some holder)
    (queue : SeatQueue config registry source.seats header.number seats.1 seats.2)
    (h : leasedSelection crypto config parentRegistry header { ordered := [holder] } seats =
        .ok selected) : WorkQueue crypto config parent.work registry header selected.1 selected.2 := by
  unfold leasedSelection at h
  split at h
  · obtain rfl := Except.ok.inj h
    obtain ⟨behind, within, same⟩ := boundActivationLeaseFallbacks_eq holder seats.1
    rw [same]
    refine leased_workQueue elects (.inl randomness) leased fun address member => ?_
    obtain ⟨seat, inSeats, owner, _⟩ := queue.owners address (within member)
    exact ⟨seat, inSeats, owner⟩
  · rename_i resting
    obtain ⟨identities, inactive⟩ := inactiveFallback_queue opened h
    rw [Bool.eq_false_iff.mpr resting] at queue
    rw [inactive]
    exact identities.workQueue (queue.callsSomebody_iff elects)

theorem unleasedSelection_queue (opened : parentRegistry.open crypto = .ok registry)
    (elects : parent.work.electing header.number = some source)
    (unleased : ¬ ((config.vrfForkLivenessActive header.number = true ∨
        config.consensusLivenessV6Active header.number = false) ∧
        leaseHolder? crypto registry header source.seats ≠ none))
    (queue : SeatQueue config registry source.seats header.number seats.1 seats.2)
    (h : unleasedSelection crypto config parentRegistry header source seats = .ok selected) :
    WorkQueue crypto config parent.work registry header selected.1 selected.2 := by
  unfold unleasedSelection at h
  split at h
  · rename_i running
    obtain rfl := Except.ok.inj h
    rw [running] at queue
    exact queue.workQueue elects unleased
  · rename_i resting
    rw [Bool.eq_false_iff.mpr resting] at queue
    have calls : CallsSomebody crypto config parent.work registry header ↔
        ∃ address, registry.Activated address := queue.callsSomebody_iff elects
    have fallback (h : inactiveFallback crypto config parentRegistry header = .ok selected) :
        WorkQueue crypto config parent.work registry header selected.1 selected.2 := by
      obtain ⟨identities, inactive⟩ := inactiveFallback_queue opened h
      rw [inactive]
      exact identities.workQueue calls
    split at h
    · rw [activationLease_eq opened] at h
      cases leased : leaseHolder? crypto registry header source.seats with
      | none => exact fallback (by rw [leased] at h; exact h)
      | some holder =>
        rw [leased] at h
        obtain rfl := Except.ok.inj h
        have activated := leaseHolder?_activated leased
        refine IdentityQueue.workQueue ⟨fun address member => ?_, List.nil_subset _, rfl,
          fun _ => ⟨holder, activated⟩, fun _ => List.cons_ne_nil _ _⟩ calls
        rw [List.mem_singleton.mp member]
        exact activated
    · exact fallback h

theorem selectionForHeader_queue (opened : parentRegistry.open crypto = .ok registry)
    (h : workV1EngineLabSelectionForHeader crypto config chainID anchor parent parentRegistry header =
      .ok selected) : WorkQueue crypto config parent.work registry header selected.1 selected.2 := by
  unfold workV1EngineLabSelectionForHeader at h
  obtain ⟨_, _, h⟩ := bind_ok h
  obtain ⟨epoch, sourced, h⟩ := bind_ok h
  have early := workSelectionSourceEpochV1_ok sourced
  cases epoch with
  | none =>
    have nobody : parent.work.electing header.number = none := by
      unfold WorkChainSnapshotV1.electing
      rw [if_pos (early.mp rfl)]
    obtain ⟨identities, inactive⟩ := inactiveFallback_queue opened h
    rw [inactive]
    refine identities.workQueue ?_
    unfold CallsSomebody
    rw [nobody]
  | some sourceEpoch =>
    have late : ¬ (header.number - 1) / parent.work.epochLength < 2 := fun before =>
      nomatch early.mpr before
    cases sourceFound : parent.work.selection with
    | none =>
      rw [sourceFound] at h
      cases h
    | some source =>
      have elects : parent.work.electing header.number = some source := by
        unfold WorkChainSnapshotV1.electing
        rw [if_neg late, sourceFound]
      rw [sourceFound] at h
      obtain ⟨_, _, h⟩ := bind_ok h
      rw [earlyLease_eq opened] at h
      obtain ⟨lease, same, h⟩ := bind_ok h
      obtain rfl := Except.ok.inj same
      by_cases leased : (config.vrfForkLivenessActive header.number = true ∨
        config.consensusLivenessV6Active header.number = false) ∧
          leaseHolder? crypto registry header source.seats ≠ none
      · obtain ⟨first, some⟩ := leased
        obtain ⟨holder, leased⟩ := Option.ne_none_iff_exists'.mp some
        rw [if_pos first, leased] at h
        split at h
        · obtain rfl := Except.ok.inj h
          exact leased_workQueue elects first leased fun address member => nomatch member
        · rename_i behind
          have randomness : config.vrfForkLivenessActive header.number = true := by
            simpa [HybridSelection.producer?] using behind
          obtain ⟨seats, found, h⟩ := bind_ok h
          exact leasedSelection_queue opened elects randomness leased
            (seatSelectionForHeader_queue opened found) h
      · have noLease : (if config.vrfForkLivenessActive header.number = true ∨
            config.consensusLivenessV6Active header.number = false then
          leaseHolder? crypto registry header source.seats else none) = none := by
          split
          · rename_i first
            by_contra some
            exact leased ⟨first, some⟩
          · rfl
        rw [noLease] at h
        split at h
        · rename_i impossible
          simp [HybridSelection.producer?] at impossible
        · obtain ⟨seats, found, h⟩ := bind_ok h
          exact unleasedSelection_queue opened elects leased
            (seatSelectionForHeader_queue opened found) h

end WorkQueue

/-! ### Authors -/

theorem isAuthorAllowedAt_nil (empty : selection.ordered = []) (queued : selection.fallbacks ⊆ selection.ordered) :
    config.isAuthorAllowedAt blockNumber selection author = none := by
  by_contra allowed
  have member := isAuthorAllowedAt_mem queued allowed
  rw [empty] at member
  cases member

/-- The author of a work header that is no open activation is allowed by the selection of its
parent, and owns a seat or is an activation identity, exactly when the parent leaves somebody to
call up. -/
theorem author_allowed_iff {lqc : LQC} {branch : Branch} {header : Header} {unixNow : Nat}
    {entry : Entry} {envelope : WorkEnvelope}
    (verified : lqc.verifyHeaderAt branch header unixNow = .ok entry)
    (decoded : lqc.decodeWorkEnvelope header = .ok (some envelope))
    (closed : lqc.openActivationForHeader branch header = false) :
    ∃ runtime parent registry selected, LQC.parentRuntime branch = .ok runtime ∧
      lqc.registryParentSnapshot branch header = .ok parent ∧
      parent.open lqc.crypto = .ok registry ∧
      lqc.workSelectionForHeader branch header runtime parent = .ok selected ∧
      ((lqc.config.isAuthorAllowedAt header.number selected.1 header.coinbase ≠ none ∧
          ((∃ seat ∈ runtime.work.selectionSeats, seat.participant = header.coinbase) ∨
            registry.Activated header.coinbase)) ↔
        CallsSomebody lqc.crypto lqc.config runtime.work registry header) := by
  cases branch with
  | nil => cases verified
  | cons parent rest =>
    obtain ⟨_, _, step, _, _⟩ := (LQC.verifyHeaderAt_work_iff decoded).mp verified
    obtain ⟨registry, moved, next, moves, _⟩ := LQC.verifyRegistryOf_ok step.parent_eq step.registry_eq
    obtain ⟨selected, selects, calls⟩ := moves.turn.selects closed
    have queue := selectionForHeader_queue moves.opened selects
    refine ⟨step.runtime, step.parent, registry, selected, step.runtime_eq, step.parent_eq,
      moves.opened, selects, ?_⟩
    rw [← queue.nonempty]
    constructor
    · intro held empty
      exact held.1 (isAuthorAllowedAt_nil empty queue.fallbacks)
    · intro some
      exact ⟨calls some, queue.members _ (isAuthorAllowedAt_mem queue.fallbacks (calls some))⟩

/-! ### An empty selection -/

def swaps : List RegistryOperation := [plainOperation 3 1 1 2, plainOperation 1 2 1 2]

def swappedRegistry : CanonicalRegistry :=
  (KeyedList.empty.put { address := 1, registeredAt := 1, lastHeartbeat := 1, sequence := 1 }).put
    { address := 2, registeredAt := 2, lastHeartbeat := 2, sequence := 1, active := true }

/-- The first identity leaves in the block that a second participant registers in, and the second one goes on. -/
def swappedBlocks : List SampleBlock :=
  [{ signer := 2, registry := swappedRegistry.put
      { address := 2, registeredAt := 2, lastHeartbeat := 3, sequence := 1, active := true } },
    { signer := 1, registry := swappedRegistry, operations := swaps },
    { signer := 1, registry := openedRegistry 1 }]

/-- The third block is authored by a participant of the registry queue, which the empty selection of
its parent does not allow. -/
theorem author_outside_selection :
    openConfig.checkConfigForkOrder = true ∧
      ∃ branch header unixNow entry envelope runtime parent registry selected,
        Accepted (plainLqc openConfig) branch ∧
        (plainLqc openConfig).verifyHeaderAt branch header unixNow = .ok entry ∧
        (plainLqc openConfig).decodeWorkEnvelope header = .ok (some envelope) ∧ 1 < header.number ∧
        (plainLqc openConfig).openActivationForHeader branch header = false ∧
        LQC.parentRuntime branch = .ok runtime ∧
        (plainLqc openConfig).registryParentSnapshot branch header = .ok parent ∧
        parent.open nonceCrypto = .ok registry ∧
        (plainLqc openConfig).workSelectionForHeader branch header runtime parent = .ok selected ∧
        openConfig.isAuthorAllowedAt header.number selected.1 header.coinbase = none ∧
        (∀ seat ∈ runtime.work.selectionSeats, seat.participant ≠ header.coinbase) ∧
        ¬ registry.Activated header.coinbase := by
  obtain ⟨branch, entry, examined, made, verified, run, checks⟩ := (plainLqc openConfig).exists_sample swappedBlocks
    (fun branch entry examined => decide (1 < entry.header.number ∧
      (plainLqc openConfig).openActivationForHeader branch entry.header = false ∧
      openConfig.isAuthorAllowedAt entry.header.number examined.selected.1 entry.header.coinbase = none ∧
      (∀ seat ∈ examined.runtime.work.selectionSeats, seat.participant ≠ entry.header.coinbase) ∧
      ¬ examined.registry.Activated entry.header.coinbase)) (by decide +kernel)
  obtain ⟨decoded, had, snapshot, opened, selects⟩ := examine_ok run
  obtain ⟨above, closed, refused, seatless, idle⟩ := of_decide_eq_true checks
  exact ⟨by decide, branch, entry.header, _, entry, _, _, _, _, _, made, verified, decoded, above, closed, had,
    snapshot, opened, selects, refused, seatless, idle⟩

/-- The second block is authored by the identity that opened the registry. -/
theorem author_allowed_iff_second :
    ∃ branch header unixNow entry envelope,
      (plainLqc openConfig).verifyHeaderAt branch header unixNow = .ok entry ∧
      (plainLqc openConfig).decodeWorkEnvelope header = .ok (some envelope) ∧ 1 < header.number ∧
      (plainLqc openConfig).openActivationForHeader branch header = false ∧
      ∃ runtime parent registry selected, LQC.parentRuntime branch = .ok runtime ∧
        (plainLqc openConfig).registryParentSnapshot branch header = .ok parent ∧
        parent.open nonceCrypto = .ok registry ∧
        (plainLqc openConfig).workSelectionForHeader branch header runtime parent = .ok selected ∧
        openConfig.isAuthorAllowedAt header.number selected.1 header.coinbase ≠ none ∧
        registry.Activated 1 := by
  obtain ⟨branch, entry, examined, _, verified, run, checks⟩ := (plainLqc openConfig).exists_sample
    (swappedBlocks.drop 1) (fun branch entry examined => decide (1 < entry.header.number ∧
      (plainLqc openConfig).openActivationForHeader branch entry.header = false ∧
      (entry.header.number - 1) / examined.runtime.work.epochLength < 2 ∧ examined.registry.Activated 1))
        (by decide +kernel)
  obtain ⟨decoded, had, snapshot, opened, selects⟩ := examine_ok run
  obtain ⟨above, closed, early, activated⟩ := of_decide_eq_true checks
  obtain ⟨runtime, parent, registry, selected, runtime_eq, parent_eq, opens, selected_eq, allowed⟩ :=
    author_allowed_iff verified decoded closed
  obtain rfl := Except.ok.inj (had.symm.trans runtime_eq)
  obtain rfl := Except.ok.inj (snapshot.symm.trans parent_eq)
  obtain rfl := Except.ok.inj (opened.symm.trans opens)
  have calls : CallsSomebody nonceCrypto openConfig examined.runtime.work examined.registry entry.header := by
    unfold CallsSomebody WorkChainSnapshotV1.electing
    rw [if_pos early]
    exact ⟨1, activated⟩
  exact ⟨branch, entry.header, _, entry, _, verified, decoded, above, closed, _, _, _, selected, had, snapshot, opened,
    selected_eq, (allowed.mpr calls).1, activated⟩

end RabbitLqc
