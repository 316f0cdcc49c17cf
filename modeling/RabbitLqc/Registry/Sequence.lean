import RabbitLqc.Engine.Liveness

/-!
# Sequence numbers of the registry

Every transition of the registry other than a reset writes records with the sequence number they
had, and a signed operation carries the next one. So entries stay, sequence numbers do not fall, and
an operation that was applied is below every later one of its address.
-/

namespace RabbitLqc
open Lib

namespace CanonicalRegistry

variable {registry next middle : CanonicalRegistry} {blockNumber : Nat} {address : Address}

variable {participant : CanonicalParticipant} {maxMissedTurns jailBlocks : Nat} {coinbase : Address}

/-- Every entry is still there, and its sequence number has not fallen. -/
def Extends (registry next : CanonicalRegistry) : Prop :=
  ∀ address participant, registry.participant? address = some participant →
    ∃ later, next.participant? address = some later ∧ participant.sequence ≤ later.sequence

theorem Extends.refl (registry : CanonicalRegistry) : registry.Extends registry :=
  fun _ participant found => ⟨participant, found, le_rfl⟩

theorem Extends.trans (first : registry.Extends middle) (second : middle.Extends next) :
    registry.Extends next := by
  intro address participant found
  obtain ⟨later, kept, bound⟩ := first address participant found
  obtain ⟨last, still, further⟩ := second address later kept
  exact ⟨last, still, bound.trans further⟩

theorem Extends.put (kept : ∀ old, registry.participant? participant.address = some old →
        old.sequence ≤ participant.sequence) : registry.Extends (registry.put participant) := by
  intro address old found
  rw [participant?_put]
  split
  · rename_i same
    exact ⟨participant, rfl, kept old (same ▸ found)⟩
  · exact ⟨old, found, le_rfl⟩

theorem Extends.rewrite {old : CanonicalParticipant} (found : registry.participant? address = some old)
    (same : participant.address = old.address) (sequence : old.sequence ≤ participant.sequence) :
    registry.Extends (registry.put participant) := by
  apply Extends.put
  intro other again
  rw [same, (participant?_eq_some.mp found).2, found, Option.some.injEq] at again
  exact again ▸ sequence

theorem Extends.create (missing : registry.participant? participant.address = none) :
    registry.Extends (registry.put participant) := by
  apply Extends.put
  intro old found
  rw [missing] at found
  cases found

theorem missTurn_address (participant : CanonicalParticipant) (maxMissedTurns jailBlocks : Nat) :
    (participant.missTurn blockNumber maxMissedTurns jailBlocks).address = participant.address := by
  unfold CanonicalParticipant.missTurn
  dsimp only
  split_ifs <;> rfl

theorem missTurn_sequence (participant : CanonicalParticipant) (maxMissedTurns jailBlocks : Nat) :
    (participant.missTurn blockNumber maxMissedTurns jailBlocks).sequence = participant.sequence := by
  unfold CanonicalParticipant.missTurn
  dsimp only
  split_ifs <;> rfl

/-! ### Turns -/

theorem applyWorkSeatMissedTurn_extends
    (h : registry.applyWorkSeatMissedTurn address blockNumber maxMissedTurns jailBlocks = .ok next) :
    registry.Extends next := by
  unfold applyWorkSeatMissedTurn at h
  cases found : registry.participant? address with
  | none =>
    rw [found] at h
    cases h
  | some participant =>
    rw [found] at h
    obtain rfl := Except.ok.inj h
    exact .rewrite found (missTurn_address ..) (missTurn_sequence ..).ge

theorem applyMissedTurn_extends
    (h : registry.applyMissedTurn address blockNumber maxMissedTurns jailBlocks = .ok next) :
    registry.Extends next := by
  unfold applyMissedTurn at h
  cases found : registry.participant? address with
  | none =>
    rw [found] at h
    cases h
  | some participant =>
    simp only [found] at h
    split at h
    · obtain rfl := Except.ok.inj h
      exact .rewrite found (missTurn_address ..) (missTurn_sequence ..).ge
    · cases h

theorem markProducerHeartbeat_extends
    (h : registry.markProducerHeartbeat address blockNumber = .ok next) : registry.Extends next := by
  unfold markProducerHeartbeat at h
  cases found : registry.participant? address with
  | none =>
    rw [found] at h
    cases h
  | some participant =>
    simp only [found] at h
    split at h
    · obtain rfl := Except.ok.inj h
      exact .rewrite found rfl le_rfl
    · cases h

theorem Extends.upsert (fresh : CanonicalParticipant) (own : fresh.address = address)
    (same : participant.address = ((registry.participant? address).getD fresh).address)
    (sequence : ((registry.participant? address).getD fresh).sequence ≤ participant.sequence) :
    registry.Extends (registry.put participant) := by
  cases found : registry.participant? address with
  | none =>
    rw [found] at same
    refine .create ?_
    rw [same]
    exact own ▸ found
  | some old =>
    rw [found] at same sequence
    exact .rewrite found same sequence

theorem markWorkSeatProducerHeartbeat_extends
    (h : registry.markWorkSeatProducerHeartbeat address blockNumber = .ok next) : registry.Extends next := by
  obtain ⟨_, _, h⟩ := bind_ok h
  obtain rfl := Except.ok.inj h
  exact .upsert { address, registeredAt := blockNumber } rfl rfl le_rfl

theorem clearAll_extends (fresh : Address → CanonicalParticipant) (own : ∀ address, (fresh address).address = address)
    (addresses : List Address) : registry.Extends (registry.clearAll fresh addresses) := by
  induction addresses generalizing registry with
  | nil => exact .refl registry
  | cons address rest ih =>
    have first : registry.Extends
        (registry.put ((registry.participant? address).getD (fresh address)).cleared) :=
      .upsert (fresh address) (own address) rfl le_rfl
    exact first.trans ih

theorem restoreWith_extends {fresh : Address → CanonicalParticipant} {addresses : List Address}
    (own : ∀ address, (fresh address).address = address)
    (h : registry.restoreWith fresh addresses = .ok next) : registry.Extends next := by
  obtain ⟨_, _, h⟩ := bind_ok h
  obtain rfl := Except.ok.inj h
  exact clearAll_extends fresh own addresses

theorem queueTurns_extends {crypto : Crypto} {rules : RegistrySnapshotRules} {parentHash : Hash}
    (h : registry.queueTurns crypto rules parentHash coinbase blockNumber = .ok next) : registry.Extends next := by
  unfold queueTurns at h
  dsimp only at h
  split at h
  · cases h
  · obtain ⟨_, _, h⟩ := bind_ok h
    obtain ⟨moved, missed, h⟩ := bind_ok h
    exact (foldlM_ok_rel Extends .refl .trans applyMissedTurn_extends missed).trans (markProducerHeartbeat_extends h)

theorem recoverPermissionlessProducer_extends
    (h : registry.recoverPermissionlessProducer address blockNumber = .ok next) : registry.Extends next := by
  obtain ⟨_, _, h⟩ := bind_ok h
  cases found : registry.participant? address with
  | none =>
    simp only [found] at h
    obtain ⟨_, _, h⟩ := bind_ok h
    obtain rfl := Except.ok.inj h
    exact .create found
  | some participant =>
    simp only [found] at h
    obtain rfl := Except.ok.inj h
    exact .rewrite found rfl le_rfl

theorem openActivation_extends (h : registry.openActivation true coinbase blockNumber = .ok next) :
    registry.Extends next := by
  obtain ⟨_, _, h⟩ := bind_ok h
  exact recoverPermissionlessProducer_extends h

end CanonicalRegistry

namespace LqcConfig

variable {config : LqcConfig} {registry next : CanonicalRegistry} {blockNumber : Nat}

theorem workSeatMissedTurn_extends {address : Address} {maxMissedTurns jailBlocks : Nat}
    (h : config.workSeatMissedTurnWithLivenessV2 registry address blockNumber maxMissedTurns jailBlocks =
      .ok next) : registry.Extends next := by
  unfold workSeatMissedTurnWithLivenessV2 at h
  split at h
  · obtain ⟨_, _, h⟩ := bind_ok h
    refine CanonicalRegistry.Extends.trans ?_ (CanonicalRegistry.applyWorkSeatMissedTurn_extends h)
    split
    · exact .refl registry
    · rename_i missing
      exact .create missing
  · exact CanonicalRegistry.applyWorkSeatMissedTurn_extends h

theorem seatTurns_extends {ordered : List Address} {queuePos : Nat}
    (h : config.seatTurns registry blockNumber ordered queuePos = .ok next) : registry.Extends next := by
  unfold seatTurns at h
  dsimp only at h
  split at h
  · split at h
    · exact CanonicalRegistry.restoreWith_extends (fun _ => rfl) h
    · exact CanonicalRegistry.restoreWith_extends (fun _ => rfl) h
  · split at h
    · exact foldlM_ok_rel CanonicalRegistry.Extends .refl .trans workSeatMissedTurn_extends h
    · exact Except.ok.inj h ▸ .refl registry

theorem applySeatLiveness_extends {selection : HybridSelection} {producer : Address}
    (h : config.workV1EngineLabApplySeatLiveness registry blockNumber selection producer = .ok next) :
    registry.Extends next := by
  unfold workV1EngineLabApplySeatLiveness at h
  split at h
  · exact Except.ok.inj h ▸ .refl registry
  · split at h
    · cases h
    · obtain ⟨moved, turns, h⟩ := bind_ok h
      exact (seatTurns_extends turns).trans (CanonicalRegistry.markWorkSeatProducerHeartbeat_extends h)

end LqcConfig

/-! ### Signed operations -/

namespace CanonicalRegistry

variable {registry next : CanonicalRegistry} {crypto : Crypto} {chainID blockNumber proofDifficulty : Nat}

variable {operation : RegistryOperation}

/-- The sequence number of the last operation of an address; zero without one. -/
def lastSequence (registry : CanonicalRegistry) (address : Address) : Nat :=
  ((registry.participant? address).map (·.sequence)).getD 0

theorem Extends.lastSequence_le (extends_ : registry.Extends next) (address : Address) :
    registry.lastSequence address ≤ next.lastSequence address := by
  unfold lastSequence
  cases found : registry.participant? address with
  | none => exact Nat.zero_le _
  | some participant =>
    obtain ⟨later, kept, bound⟩ := extends_ address participant found
    rw [kept]
    exact bound

theorem wantSequence_eq (address : Address) :
    wantSequence (registry.participant? address) = registry.lastSequence address + 1 := by
  unfold lastSequence
  cases registry.participant? address <;> rfl

theorem operationResult_ok {found : Option CanonicalParticipant} {participant : CanonicalParticipant}
    (own : ∀ old, found = some old → old.address = operation.address)
    (h : operationResult blockNumber operation found = .ok participant) :
    participant.address = operation.address ∧ participant.sequence = operation.sequence.toNat := by
  unfold operationResult at h
  split at h
  · dsimp only at h
    split at h
    · cases h
    · obtain rfl := Except.ok.inj h
      exact ⟨rfl, rfl⟩
  · cases found with
    | none => cases h
    | some old =>
      obtain rfl := Except.ok.inj h
      exact ⟨own old rfl, rfl⟩
  · cases found with
    | none => cases h
    | some old =>
      dsimp only at h
      split at h
      · obtain rfl := Except.ok.inj h
        exact ⟨own old rfl, rfl⟩
      · cases h
  · cases h

/-- An operation is above the last sequence number of its address and leaves its own as the last one. -/
theorem applyOperation_sequence
    (h : registry.applyOperation crypto chainID blockNumber proofDifficulty operation = .ok next) :
    registry.Extends next ∧ registry.lastSequence operation.address < operation.sequence.toNat ∧
      next.lastSequence operation.address = operation.sequence.toNat := by
  obtain ⟨_, _, h⟩ := bind_ok h
  obtain ⟨_, _, h⟩ := bind_ok h
  obtain ⟨_, sequence, h⟩ := bind_ok h
  obtain ⟨participant, result, h⟩ := bind_ok h
  obtain rfl := Except.ok.inj h
  have follows := ensure_ok_iff.mp sequence
  rw [wantSequence_eq] at follows
  obtain ⟨own, number⟩ := operationResult_ok (fun _ found => (participant?_eq_some.mp found).2) result
  refine ⟨.put fun old found => ?_, by omega, ?_⟩
  · have last : registry.lastSequence operation.address = old.sequence := by
      unfold lastSequence
      rw [← own, found]
      rfl
    omega
  · unfold lastSequence
    rw [participant?_put, if_pos own.symm]
    exact number

theorem applyOperations_sequence {operations : List RegistryOperation}
    (h : applyOperations crypto chainID blockNumber proofDifficulty registry operations = .ok next) :
    registry.Extends next ∧
      (∀ operation ∈ operations, registry.lastSequence operation.address < operation.sequence.toNat ∧
        operation.sequence.toNat ≤ next.lastSequence operation.address) ∧
      operations.Pairwise fun first second => first.address = second.address →
        first.sequence ≠ second.sequence := by
  unfold applyOperations at h
  induction operations generalizing registry with
  | nil =>
    rw [List.foldlM_nil, pure_ok_iff] at h
    subst h
    exact ⟨.refl registry, by simp, List.Pairwise.nil⟩
  | cons operation rest ih =>
    rw [List.foldlM_cons] at h
    obtain ⟨middle, first, h⟩ := bind_ok h
    obtain ⟨extends_, fresh, became⟩ := applyOperation_sequence first
    obtain ⟨more, within, apart⟩ := ih h
    refine ⟨extends_.trans more, ?_, List.pairwise_cons.mpr ⟨fun later member same equal => ?_, apart⟩⟩
    · intro item member
      rcases List.mem_cons.mp member with rfl | later
      · exact ⟨fresh, became ▸ more.lastSequence_le _⟩
      · obtain ⟨above, below⟩ := within item later
        exact ⟨(extends_.lastSequence_le _).trans_lt above, below⟩
    · have above := (within later member).1
      rw [← same, became, equal] at above
      exact absurd above (lt_irrefl _)

end CanonicalRegistry

end RabbitLqc
