import RabbitLqc.Engine.Growth
import RabbitLqc.Registry.Sequence

/-!
# Registry operations along a branch

After the stabilization block every kind of header carries the registry of its parent on: a recovery
no longer starts a new one. A signed operation takes the next sequence number of its address, so it
is applied once.
-/

namespace RabbitLqc
open Lib

variable {moved : CanonicalRegistry} {snapshot before after : RegistrySnapshot} {selection : HybridSelection}
  {later tail : Branch} {base : Entry}

def LQC.appliedOperations (lqc : LQC) (header : Header) : List RegistryOperation :=
  if lqc.config.registryProtocolEnabled header.number then
    match lqc.decodeWorkEnvelope header with
    | .ok (some envelope) => canonicalRegistryOperations envelope.base.registryOperations
    | .ok none => match decodeRegistryHeaderExtra header.extra with
      | .ok content => content.operations
      | .error _ => []
    | .error _ => []
  else []

variable {lqc : LQC} {branch rest : Branch} {header : Header} {entry parent : Entry}

/-- What a header does to the registry and to the sequence numbers of its operations. -/
structure CarriesOn (lqc : LQC) (header : Header) (before after : CanonicalRegistry) : Prop where
  registry : before.Extends after
  fresh : ∀ operation ∈ lqc.appliedOperations header,
    before.lastSequence operation.address < operation.sequence.toNat ∧
      operation.sequence.toNat ≤ after.lastSequence operation.address
  distinct : (lqc.appliedOperations header).Pairwise fun first second =>
    first.address = second.address → first.sequence ≠ second.sequence

theorem CarriesOn.of_moved {before after : CanonicalRegistry} {operations : List RegistryOperation}
    {blockNumber proofDifficulty chainID : Nat} {crypto : Crypto} (moves : before.Extends moved)
    (applied : CanonicalRegistry.applyOperations crypto chainID blockNumber proofDifficulty moved operations =
        .ok after) (same : lqc.appliedOperations header = operations) : CarriesOn lqc header before after := by
  obtain ⟨more, fresh, distinct⟩ := CanonicalRegistry.applyOperations_sequence applied
  refine ⟨moves.trans more, fun operation member => ?_, same ▸ distinct⟩
  obtain ⟨above, below⟩ := fresh operation (same ▸ member)
  exact ⟨(moves.lastSequence_le _).trans_lt above, below⟩

theorem RegistryTurn.extends_ {runtime : CanonicalWorkRuntimeStateV1} {registry : CanonicalRegistry}
    (preserves : lqc.config.consensusCommitteeLivenessActive header.number = true)
    (turn : RegistryTurn lqc branch header runtime snapshot registry selection moved) : registry.Extends moved := by
  cases turn with
  | seats _ _ _ _ live => exact LqcConfig.applySeatLiveness_extends live
  | queue _ _ _ _ turns => exact CanonicalRegistry.queueTurns_extends turns
  | activation _ _ activates =>
    rw [preserves] at activates
    exact CanonicalRegistry.openActivation_extends activates

theorem WorkStep.carriesOn {envelope : WorkEnvelope} (step : WorkStep lqc branch header envelope)
    (preserves : lqc.config.consensusCommitteeLivenessActive header.number = true)
    (decoded : lqc.decodeWorkEnvelope header = .ok (some envelope))
    (enabled : lqc.config.registryProtocolEnabled header.number = true) :
    CarriesOn lqc header step.parent.registry step.snapshot.registry := by
  obtain ⟨registry, moved, next, moves, made⟩ := LQC.verifyRegistryOf_ok step.parent_eq step.registry_eq
  obtain ⟨_, _, rfl⟩ := RegistrySnapshot.open_ok_iff.mp moves.opened
  rw [made]
  refine .of_moved (moves.turn.extends_ preserves) moves.applied ?_
  unfold LQC.appliedOperations
  rw [if_pos enabled, decoded]

theorem verifyCanonicalRegistryHeader_carriesOn
    (preserves : lqc.config.consensusCommitteeLivenessActive header.number = true)
    (decoded : lqc.decodeWorkEnvelope header = .ok none)
    (enabled : lqc.config.registryProtocolEnabled header.number = true)
    (parent_eq : lqc.registryParentSnapshot branch header = .ok before)
    (verified : lqc.verifyCanonicalRegistryHeader branch header = .ok (selection, snapshot)) :
    CarriesOn lqc header before.registry snapshot.registry := by
  unfold LQC.verifyCanonicalRegistryHeader at verified
  obtain ⟨found, same, verified⟩ := bind_ok verified
  obtain rfl := Except.ok.inj (parent_eq.symm.trans same)
  obtain ⟨_, _, verified⟩ := bind_ok verified
  obtain ⟨child, apply, verified⟩ := bind_ok verified
  obtain ⟨_, rfl⟩ := Prod.mk.inj (Except.ok.inj verified)
  unfold LQC.applyRegistryHeaderWithOpenActivation RegistrySnapshot.applyHeaderWithOpenActivation at apply
  obtain ⟨registry, opened, apply⟩ := bind_ok apply
  obtain ⟨_, _, apply⟩ := bind_ok apply
  obtain ⟨_, _, apply⟩ := bind_ok apply
  obtain ⟨content, read, apply⟩ := bind_ok apply
  obtain ⟨moved, move, apply⟩ := bind_ok apply
  obtain ⟨next, applied, apply⟩ := bind_ok apply
  obtain ⟨_, _, apply⟩ := bind_ok apply
  obtain rfl := Except.ok.inj apply
  obtain ⟨_, _, rfl⟩ := RegistrySnapshot.open_ok_iff.mp opened
  have moves : before.registry.Extends moved := by
    rw [preserves] at move
    unfold CanonicalRegistry.headerTurn at move
    split at move
    · exact CanonicalRegistry.openActivation_extends move
    · exact CanonicalRegistry.queueTurns_extends move
  refine .of_moved moves applied ?_
  unfold validateRegistryHeaderExtra at read
  obtain ⟨decodedContent, decodes, read⟩ := bind_ok read
  obtain ⟨_, _, read⟩ := bind_ok read
  obtain ⟨_, _, read⟩ := bind_ok read
  obtain rfl := Except.ok.inj read
  unfold LQC.appliedOperations
  rw [if_pos enabled, decoded]
  simp only [decodes]

theorem AcceptedAs.carriesOn (accepted : AcceptedAs lqc (parent :: rest) header entry)
    (preserves : lqc.config.consensusCommitteeLivenessActive header.number = true)
    (enabled : lqc.config.registryProtocolEnabled header.number = true) :
    ∃ before after, parent.registry = .ok before ∧ entry.registry = .ok after ∧
      CarriesOn lqc header before.registry after.registry := by
  have parent_eq : lqc.registryParentSnapshot (parent :: rest) header = parent.registry := by
    unfold LQC.registryParentSnapshot
    rw [enabled]
    rfl
  cases accepted with
  | work decoded _ step =>
    exact ⟨step.parent, step.snapshot, parent_eq.symm.trans step.parent_eq, rfl,
      step.carriesOn preserves decoded enabled⟩
  | plain decoded _ verified =>
    obtain ⟨before, found, _⟩ := bind_ok (show (lqc.registryParentSnapshot (parent :: rest) header >>= _) = _
      from verified)
    exact ⟨before, _, parent_eq.symm.trans found, rfl,
      verifyCanonicalRegistryHeader_carriesOn preserves decoded enabled found verified⟩
  | legacy early _ =>
    rw [enabled] at early
    cases early

theorem registryBelowActivation_ok (h : lqc.registryBelowActivation header = .ok snapshot) :
    lqc.config.registryProtocolBlock ≠ 0 ∧ lqc.config.registryProtocolBlock ≤ header.number + 1 := by
  unfold LQC.registryBelowActivation at h
  split at h
  · cases h
  · rename_i configured
    split at h
    · rename_i below
      exact ⟨configured, below.ge⟩
    · cases h

theorem Accepted.registry_ready (accepted : Accepted lqc (entry :: rest)) (ready : entry.registry = .ok snapshot) :
    lqc.config.registryProtocolBlock ≠ 0 ∧ lqc.config.registryProtocolBlock ≤ entry.header.number + 1 := by
  have enabled_ready {number : Nat} (enabled : lqc.config.registryProtocolEnabled number = true) :
      lqc.config.registryProtocolBlock ≠ 0 ∧ lqc.config.registryProtocolBlock ≤ number + 1 := by
    obtain ⟨configured, active⟩ := of_decide_eq_true enabled
    exact ⟨configured, active.trans (Nat.le_succ _)⟩
  cases rest with
  | nil =>
    cases accepted with
    | genesis header _ => exact registryBelowActivation_ok ready
    | extend below _ => exact absurd rfl below.ne_nil
  | cons parent rest =>
    obtain ⟨_, _, as⟩ := accepted.extended
    generalize entry.header = header at as ⊢
    cases as with
    | work _ enabled _ => exact enabled_ready enabled
    | plain _ enabled _ => exact enabled_ready enabled
    | legacy _ _ => exact registryBelowActivation_ok ready

/-- Once an entry has a registry, a newer one has a registry that extends it. -/
def RegistryExtends (newer older : Entry) : Prop :=
  ∀ before, older.registry = .ok before →
    ∃ after, newer.registry = .ok after ∧ before.registry.Extends after.registry

def LQC.operationKeys (lqc : LQC) (entries : Branch) : List (Address × UInt64) :=
  entries.flatMap fun entry => (lqc.appliedOperations entry.header).map fun operation =>
    (operation.address, operation.sequence)

/-- Nothing is lost between the entries, and what they applied is below their sequence numbers. -/
structure CarriedOn (lqc : LQC) (later : Branch) (base : Entry) : Prop where
  registry : (later ++ [base]).Pairwise RegistryExtends
  applied : ∀ entry ∈ later, ∀ operation ∈ lqc.appliedOperations entry.header,
    ∃ after, entry.registry = .ok after ∧
      operation.sequence.toNat ≤ after.registry.lastSequence operation.address
  once : (lqc.operationKeys later).Nodup

theorem RegistryExtends.trans_carriesOn {older : Entry} (carries : older = parent ∨ RegistryExtends parent older)
    (found : parent.registry = .ok before) (made : entry.registry = .ok after)
    (moves : before.registry.Extends after.registry) : RegistryExtends entry older := by
  intro first ready
  refine ⟨after, made, ?_⟩
  rcases carries with rfl | carries
  · obtain rfl := Except.ok.inj (found.symm.trans ready)
    exact moves
  · obtain ⟨middle, same, extends_⟩ := carries first ready
    obtain rfl := Except.ok.inj (found.symm.trans same)
    exact extends_.trans moves

theorem CarriedOn.to_parent (carried : CarriedOn lqc later base) (below : later ++ base :: rest = parent :: tail) :
    ∀ older ∈ later ++ [base], older = parent ∨ RegistryExtends parent older := by
  intro older member
  have pairs := carried.registry
  cases later with
  | nil =>
    obtain ⟨rfl, _⟩ := List.cons.inj below
    exact .inl (List.mem_singleton.mp member)
  | cons first others =>
    obtain ⟨rfl, _⟩ := List.cons.inj below
    rcases List.mem_cons.mp member with same | further
    · exact .inl same
    · exact .inr ((List.pairwise_cons.mp pairs).1 older further)

theorem CarriedOn.extend (carried : CarriedOn lqc later base) (below : later ++ base :: rest = parent :: tail)
    (found : parent.registry = .ok before) (made : entry.registry = .ok after)
    (moves : CarriesOn lqc entry.header before.registry after.registry) : CarriedOn lqc (entry :: later) base := by
  have toParent := carried.to_parent below
  refine ⟨List.pairwise_cons.mpr ⟨fun older member => ?_, carried.registry⟩, ?_, ?_⟩
  · exact .trans_carriesOn (toParent older member) found made moves.registry
  · intro item member operation listed
    rcases List.mem_cons.mp member with rfl | further
    · exact ⟨after, made, (moves.fresh operation listed).2⟩
    · exact carried.applied item further operation listed
  · refine List.nodup_append.mpr ⟨?_, carried.once, ?_⟩
    · refine List.pairwise_map.mpr (moves.distinct.imp fun apart same => ?_)
      exact apart (Prod.mk.inj same).1 (Prod.mk.inj same).2
    · intro key new _ old rfl
      obtain ⟨operation, listed, rfl⟩ := List.mem_map.mp new
      obtain ⟨older, member, again⟩ := List.mem_flatMap.mp old
      obtain ⟨earlier, applied, same⟩ := List.mem_map.mp again
      obtain ⟨address, sequence⟩ := Prod.mk.inj same
      -- the earlier application left its number with the address, up to the parent of the new one
      obtain ⟨reached, ready, bound⟩ := carried.applied older member earlier applied
      have kept : reached.registry.Extends before.registry := by
        rcases toParent older (List.mem_append_left _ member) with rfl | carries
        · obtain rfl := Except.ok.inj (found.symm.trans ready)
          exact .refl _
        · obtain ⟨middle, same, extends_⟩ := carries reached ready
          obtain rfl := Except.ok.inj (found.symm.trans same)
          exact extends_
      have above := (moves.fresh operation listed).1
      have monotone := kept.lastSequence_le operation.address
      rw [address, sequence] at bound
      omega

theorem CarriedOn.extend_legacy (carried : CarriedOn lqc later base)
    (accepted : Accepted lqc (entry :: later ++ base :: rest))
    (early : lqc.config.registryProtocolEnabled entry.header.number = false) : CarriedOn lqc (entry :: later) base := by
  have none : lqc.appliedOperations entry.header = [] := by
    unfold LQC.appliedOperations
    rw [early]
    rfl
  refine ⟨List.pairwise_cons.mpr ⟨fun older member => ?_, carried.registry⟩, ?_, ?_⟩
  · intro before ready
    have present : older ∈ later ++ base :: rest := by
      rcases List.mem_append.mp member with inside | last
      · exact List.mem_append_left _ inside
      · exact List.mem_append_right _ (List.mem_singleton.mp last ▸ List.mem_cons_self)
    have less := (List.pairwise_cons.mp accepted.numbers).1 older present
    obtain ⟨newer, tail, split⟩ := List.append_of_mem present
    rw [List.cons_append, split] at accepted
    have olderAccepted : Accepted lqc (older :: tail) :=
      Accepted.suffix (show Accepted lqc ((entry :: newer) ++ older :: tail) from accepted)
        (List.cons_ne_nil _ _)
    obtain ⟨configured, bound⟩ := olderAccepted.registry_ready ready
    have enabled : lqc.config.registryProtocolEnabled entry.header.number = true :=
      decide_eq_true ⟨configured, bound.trans less⟩
    rw [enabled] at early
    cases early
  · intro item member operation listed
    rcases List.mem_cons.mp member with rfl | further
    · rw [none] at listed
      cases listed
    · exact carried.applied item further operation listed
  · unfold LQC.operationKeys
    rw [List.flatMap_cons, none]
    exact carried.once

/-- Along every branch above the stabilization block, no registry entry disappears, no sequence number
falls, and no signed operation is applied twice. -/
theorem registry_operations_once {later : Branch} {base : Entry}
    (configured : lqc.config.consensusStabilizationBlock ≠ 0)
    (accepted : Accepted lqc (later ++ base :: rest))
    (above : ∀ entry ∈ later, lqc.config.consensusStabilizationBlock < entry.header.number) :
    (later ++ [base]).Pairwise (fun newer older => ∀ before, older.registry = .ok before →
        ∃ after, newer.registry = .ok after ∧
          ∀ address participant, before.registry.participant? address = some participant →
            ∃ later, after.registry.participant? address = some later ∧
              participant.sequence ≤ later.sequence) ∧
      (later.flatMap fun entry => (lqc.appliedOperations entry.header).map fun operation =>
        (operation.address, operation.sequence)).Nodup := by
  suffices carried : CarriedOn lqc later base from ⟨carried.registry, carried.once⟩
  induction later with
  | nil => exact ⟨List.pairwise_singleton _ _, by simp, List.nodup_nil⟩
  | cons entry later ih =>
    have preserves : lqc.config.consensusCommitteeLivenessActive entry.header.number = true :=
      decide_eq_true ⟨configured, above entry List.mem_cons_self⟩
    cases below : later ++ base :: rest with
    | nil => simp at below
    | cons parent tail =>
      have extended := accepted
      rw [List.cons_append, below] at extended
      obtain ⟨older, _, as⟩ := extended.extended
      have carried := ih (below ▸ older) fun item member => above item (List.mem_cons_of_mem _ member)
      cases enabled : lqc.config.registryProtocolEnabled entry.header.number with
      | true =>
        obtain ⟨before, after, found, made, moves⟩ := as.carriesOn preserves enabled
        exact carried.extend below found made moves
      | false => exact carried.extend_legacy accepted enabled

/-! ### A registration after the stabilization -/

def stabilizedConfig : LqcConfig where
  proofDifficulty := 1
  registryProtocolBlock := 1
  consensusStabilizationBlock := 1
  bootstrapParticipants := [1]

def bootstrapRegistry : CanonicalRegistry := KeyedList.empty.put { address := 1, active := true }

/-- The second participant registers and sends its first heartbeat. -/
def secondOperations : List RegistryOperation := [plainOperation 1 2 1 2, plainOperation 2 2 2 2]

def registeredRegistry : CanonicalRegistry :=
  bootstrapRegistry.put { address := 2, sequence := 2, registeredAt := 2, lastHeartbeat := 2, active := true }

theorem registry_operations_once_registers :
    ∃ entry base rest before, Accepted (plainLqc stabilizedConfig) ([entry] ++ base :: rest) ∧
      (plainLqc stabilizedConfig).appliedOperations entry.header = secondOperations ∧
      base.registry = .ok before ∧
      (∃ after, entry.registry = .ok after ∧ after.registry = registeredRegistry ∧
        ∀ address participant, before.registry.participant? address = some participant →
          ∃ later, after.registry.participant? address = some later ∧ participant.sequence ≤ later.sequence) ∧
      ([entry].flatMap fun entry => ((plainLqc stabilizedConfig).appliedOperations entry.header).map
        fun operation => (operation.address, operation.sequence)).Nodup := by
  obtain ⟨branch, entry, examined, made, verified, run, checks⟩ := (plainLqc stabilizedConfig).exists_sample
    [{ signer := 1, registry := registeredRegistry, operations := secondOperations },
      { signer := 1, registry := bootstrapRegistry }]
    (fun _ entry _ => decide (1 < entry.header.number ∧
      (plainLqc stabilizedConfig).appliedOperations entry.header = secondOperations ∧
      entry.registry.toOption.map (·.registry) = some registeredRegistry)) (by decide +kernel)
  obtain ⟨above, carries, reaches⟩ := of_decide_eq_true checks
  cases branch with
  | nil => exact absurd rfl made.ne_nil
  | cons base rest =>
    obtain ⟨_, _, snapshot, _⟩ := examine_ok run
    have found : base.registry = .ok examined.parent := by
      unfold LQC.registryParentSnapshot at snapshot
      split at snapshot
      · cases snapshot
      · exact snapshot
    have accepted := Accepted.extend made verified
    have once := @registry_operations_once (plainLqc stabilizedConfig) _ [entry] base Nat.one_ne_zero accepted
      fun other member => List.mem_singleton.mp member ▸ above
    obtain ⟨after, reached, kept⟩ := (List.pairwise_pair.mp once.1) _ found
    rw [reached] at reaches
    exact ⟨entry, base, rest, _, accepted, carries, found, ⟨after, reached, Option.some.inj reaches, kept⟩, once.2⟩

end RabbitLqc
