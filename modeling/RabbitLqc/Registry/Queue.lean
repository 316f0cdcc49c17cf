import RabbitLqc.Registry.State

/-!
# Production queues

Who may author a block and in which order, as derived from the registry alone. A queue is a list
of addresses; its head is the scheduled producer.
-/

namespace RabbitLqc
open Lib

/-! ### Rules -/

/-- The liveness parameters of the configuration with their defaults. -/
structure RegistrySnapshotRules where
  proofDifficulty : Nat
  activationDelay : Nat
  heartbeatWindow : Nat
  heartbeatGrace : Nat
  jailBlocks : Nat
  maxMissedTurns : Nat

def orDefault (value default : Nat) : Nat := if value = 0 then default else value

namespace LqcConfig

variable (config : LqcConfig)

def registryRules : RegistrySnapshotRules where
  proofDifficulty := config.proofDifficulty
  activationDelay := config.activationDelay
  heartbeatWindow := orDefault config.heartbeatWindow 64
  heartbeatGrace := orDefault config.heartbeatGrace 16
  jailBlocks := orDefault config.jailBlocks 256
  maxMissedTurns := orDefault config.maxMissedTurns 3

/-- `hybridCfg().FallbackCount`. -/
def hybridFallbackCount : Nat :=
  orDefault (orDefault config.fallbackCount config.fallbackSlots) 2

/-- A tenth of the candidates, rounded up, within the bounds that are set. -/
def computeCommitteeSizeWithBounds (active minSize maxSize : Nat) : Nat :=
  let size := (active + 9) / 10
  let size := if minSize > 0 ∧ size < minSize then minSize else size
  if maxSize > 0 ∧ size > maxSize then maxSize else size

/-- The committee seats asked for with `active` candidates. -/
def committeeSizeFor (active : Nat) : Nat :=
  if config.committeeSize > 0 then config.committeeSize
  else computeCommitteeSizeWithBounds active (orDefault config.committeeMin 32)
    (orDefault config.committeeMax 128)

end LqcConfig

/-! ### Selections -/

structure HybridSelection where
  ordered : List Address := []
  fallbacks : List Address := []
  committee : List Address := []
  deriving DecidableEq, Repr

namespace HybridSelection

def producer? (selection : HybridSelection) : Option Address := selection.ordered.head?

def isAuthorAllowed (selection : HybridSelection) (author : Address) : Option Nat :=
  selection.ordered.findIdx? (· = author)

/-- The position of an author among the producer and the named fallbacks. -/
def isAuthorAllowedBounded (selection : HybridSelection) (author : Address) : Option Nat :=
  if selection.producer? = some author then some 0
  else (selection.fallbacks.findIdx? (· = author)).map (· + 1)

end HybridSelection

/-- The queue rule changed with the liveness forks: the third and the fifth bound it to the
producer and its fallbacks, the fourth opened it to the whole queue again. -/
def LqcConfig.isAuthorAllowedAt (config : LqcConfig) (block : Nat) (selection : HybridSelection)
    (author : Address) : Option Nat :=
  if config.consensusLivenessV5Active block then selection.isAuthorAllowedBounded author
  else if config.consensusLivenessV4Active block then selection.isAuthorAllowed author
  else if config.consensusLivenessV3Active block then selection.isAuthorAllowedBounded author
  else selection.isAuthorAllowed author

/-! ### Order -/

def buildSelectionSeed (crypto : Crypto) (parentHash : Hash) (block : Nat) : Hash :=
  crypto.keccak256 (fixedBytes 32 parentHash.toNat ++ fixedBytes 8 block)

def orderKey (crypto : Crypto) (seed : Hash) (address : Address) : Nat :=
  (crypto.keccak256 (fixedBytes 32 seed.toNat ++ fixedBytes 20 address.toNat)).toNat * 2 ^ 160 +
    address.toNat

def deterministicallyOrderParticipants (crypto : Crypto) (parentHash : Hash) (block : Nat)
    (addresses : List Address) : List Address :=
  sortOn (orderKey crypto (buildSelectionSeed crypto parentHash block)) addresses

namespace CanonicalRegistry

variable (registry : CanonicalRegistry)

variable {crypto : Crypto} {parentHash : Hash} {blockNumber activationDelay : Nat}

/-- Active participants past their activation delay; sequence zero is exempt from it. -/
def eligibleParticipants (blockNumber activationDelay : Nat) : List CanonicalParticipant :=
  registry.participants.filter fun participant =>
    participant.active && (participant.sequence = 0 ||
      (checkedRegistryBlockAdd [participant.registeredAt, 1, activationDelay]).any (· ≤ blockNumber))

def orderedParticipantsForBlock (crypto : Crypto) (parentHash : Hash)
    (blockNumber activationDelay : Nat) : List Address :=
  let eligible := registry.eligibleParticipants blockNumber activationDelay
  let (penalized, ready) := eligible.partition (·.jailedUntil > blockNumber)
  deterministicallyOrderParticipants crypto parentHash blockNumber (ready.map (·.address)) ++
    deterministicallyOrderParticipants crypto parentHash blockNumber (penalized.map (·.address))

def jailedPast (blockNumber : Nat) (address : Address) : Bool :=
  (registry.participant? address).any (·.jailedUntil > blockNumber)

theorem mem_orderedParticipantsForBlock {registry : CanonicalRegistry} {address : Address} :
    address ∈ registry.orderedParticipantsForBlock crypto parentHash blockNumber activationDelay ↔
      ∃ participant ∈ registry.eligibleParticipants blockNumber activationDelay,
        participant.address = address := by
  unfold orderedParticipantsForBlock deterministicallyOrderParticipants
  simp only [List.partition_eq_filter_filter, List.mem_append, mem_sortOn, List.mem_map,
    List.mem_filter]
  constructor
  · rintro (⟨participant, ⟨member, _⟩, same⟩ | ⟨participant, ⟨member, _⟩, same⟩)
    · exact ⟨participant, member, same⟩
    · exact ⟨participant, member, same⟩
  · rintro ⟨participant, member, same⟩
    by_cases jailed : participant.jailedUntil > blockNumber
    · exact .inr ⟨participant, ⟨member, by simpa using jailed⟩, same⟩
    · exact .inl ⟨participant, ⟨member, by simpa using jailed⟩, same⟩

theorem addresses_nodup : (registry.participants.map (·.address)).Nodup := by
  refine List.pairwise_map.mpr (registry.sorted.imp fun less same => ?_)
  exact less.ne (congrArg BitVec.toNat same)

theorem orderedParticipantsForBlock_perm :
    (registry.orderedParticipantsForBlock crypto parentHash blockNumber activationDelay).Perm
      ((registry.eligibleParticipants blockNumber activationDelay).map (·.address)) := by
  unfold orderedParticipantsForBlock deterministicallyOrderParticipants
  simp only [List.partition_eq_filter_filter]
  refine (sortOn_perm.append sortOn_perm).trans ?_
  rw [← List.map_append]
  exact (List.perm_append_comm.trans (List.filter_append_perm _ _)).map _

theorem orderedParticipantsForBlock_nodup :
    (registry.orderedParticipantsForBlock crypto parentHash blockNumber activationDelay).Nodup :=
  (orderedParticipantsForBlock_perm registry).nodup_iff.mpr
    ((addresses_nodup registry).sublist (List.filter_sublist.map _))

theorem jailedPast_of_mem {participant : CanonicalParticipant} (member : participant ∈ registry.participants)
    (blockNumber : Nat) :
    registry.jailedPast blockNumber participant.address = decide (participant.jailedUntil > blockNumber) := by
  unfold jailedPast
  rw [participant?_eq_some.mpr ⟨member, rfl⟩]
  rfl

theorem orderedParticipantsForBlock_jailed_last :
    (registry.orderedParticipantsForBlock crypto parentHash blockNumber activationDelay).Pairwise fun first second =>
      registry.jailedPast blockNumber first = true → registry.jailedPast blockNumber second = true := by
  unfold orderedParticipantsForBlock deterministicallyOrderParticipants
  simp only [List.partition_eq_filter_filter]
  have listed {participant : CanonicalParticipant}
      (member : participant ∈ registry.eligibleParticipants blockNumber activationDelay) :
      participant ∈ registry.participants := List.mem_of_mem_filter member
  have ready {address : Address} (member : address ∈ sortOn
      (orderKey crypto (buildSelectionSeed crypto parentHash blockNumber))
      (((registry.eligibleParticipants blockNumber activationDelay).filter
        (not ∘ fun participant => decide (participant.jailedUntil > blockNumber))).map (·.address))) :
      registry.jailedPast blockNumber address = false := by
    obtain ⟨participant, kept, rfl⟩ := List.mem_map.mp (mem_sortOn.mp member)
    obtain ⟨eligible, free⟩ := List.mem_filter.mp kept
    rw [jailedPast_of_mem registry (listed eligible)]
    simpa using free
  have penalized {address : Address}
      (member : address ∈ sortOn (orderKey crypto (buildSelectionSeed crypto parentHash blockNumber))
      (((registry.eligibleParticipants blockNumber activationDelay).filter
        (fun participant => decide (participant.jailedUntil > blockNumber))).map (·.address))) :
      registry.jailedPast blockNumber address = true := by
    obtain ⟨participant, kept, rfl⟩ := List.mem_map.mp (mem_sortOn.mp member)
    obtain ⟨eligible, jailed⟩ := List.mem_filter.mp kept
    rw [jailedPast_of_mem registry (listed eligible)]
    exact jailed
  refine List.pairwise_append.mpr ⟨?_, ?_, fun _ _ _ last _ => penalized last⟩
  · refine List.pairwise_of_forall_mem_list fun first member _ _ jailed => ?_
    rw [ready member] at jailed
    cases jailed
  · exact List.pairwise_of_forall_mem_list fun _ _ _ last _ => penalized last

end CanonicalRegistry

/-- The roles taken from a registry queue: a producer, the fallbacks, then the committee. -/
def LqcConfig.canonicalRoles (config : LqcConfig) (ordered : List Address) : HybridSelection :=
  let fallbackEnd := min (1 + config.hybridFallbackCount) ordered.length
  let committeeEnd := min (fallbackEnd + config.committeeSizeFor ordered.length) ordered.length
  { ordered
    fallbacks := (ordered.take fallbackEnd).drop 1
    committee := (ordered.take committeeEnd).drop fallbackEnd }

end RabbitLqc
