import RabbitLqc.Registry.Sequence
import RabbitLqc.Registry.Stored

/-!
# Runs of registry headers

What holds of every registry that registry headers lead to from a bootstrap snapshot, whatever mix of turns, open
activations and signed operations they carry.
-/

namespace RabbitLqc
open Lib

/-- Snapshots reached from a bootstrap snapshot by accepted registry headers. -/
inductive RegistryRun (crypto : Crypto) (chainID : Nat) (rules : RegistrySnapshotRules) : RegistrySnapshot → Prop
  | bootstrap {number : Nat} {hash : Hash} {participants : List Address} {snapshot : RegistrySnapshot}
      (boots : newBootstrapRegistrySnapshot number hash participants = .ok snapshot) :
      RegistryRun crypto chainID rules snapshot
  | header {snapshot next : RegistrySnapshot} {header : Header} {openActivation preserveRegistry : Bool}
      (before : RegistryRun crypto chainID rules snapshot)
      (applied : snapshot.applyHeaderWithOpenActivation crypto chainID rules header openActivation preserveRegistry =
        .ok next) : RegistryRun crypto chainID rules next

namespace CanonicalRegistry

/-! ### Records -/

def Sound (maxMissedTurns : Nat) (registry : CanonicalRegistry) : Prop :=
  ∀ participant ∈ registry.participants,
    participant.address ≠ 0 ∧ participant.missedTurns < orDefault maxMissedTurns 3

theorem orDefault_pos (value : Nat) : 0 < orDefault value 3 := by
  unfold orDefault
  split
  · decide
  · omega

section Sound

variable {registry next : CanonicalRegistry} {maxMissedTurns blockNumber : Nat} {address : Address}

variable {participant : CanonicalParticipant} {operation : RegistryOperation} {crypto : Crypto}
  {chainID proofDifficulty : Nat}

theorem Sound.empty : Sound maxMissedTurns KeyedList.empty := fun _ member => absurd member List.not_mem_nil

theorem Sound.put (sound : registry.Sound maxMissedTurns) (named : participant.address ≠ 0)
    (few : participant.missedTurns < orDefault maxMissedTurns 3) : Sound maxMissedTurns (registry.put participant) := by
  intro found member
  rcases KeyedList.mem_put.mp member with rfl | old
  · exact ⟨named, few⟩
  · exact sound found old.1

theorem Sound.found (sound : registry.Sound maxMissedTurns) (found : registry.participant? address = some participant) :
    participant.address ≠ 0 ∧ participant.missedTurns < orDefault maxMissedTurns 3 :=
  sound participant (participant?_eq_some.mp found).1

theorem missTurn_missedTurns (jailBlocks : Nat) (few : participant.missedTurns < orDefault maxMissedTurns 3) :
    (participant.missTurn blockNumber maxMissedTurns jailBlocks).missedTurns < orDefault maxMissedTurns 3 := by
  have positive := orDefault_pos maxMissedTurns
  unfold CanonicalParticipant.missTurn
  split
  · exact few
  · dsimp only
    generalize (if participant.missedTurns = maxUint64 then maxUint64 else participant.missedTurns + 1) = missed
    change (ite (missed ≥ orDefault maxMissedTurns 3) _ _ : CanonicalParticipant).missedTurns < _
    split
    · exact positive
    · next below => exact Nat.lt_of_not_le below

theorem Sound.applyMissedTurn (sound : registry.Sound maxMissedTurns) {jailBlocks : Nat}
    (h : registry.applyMissedTurn address blockNumber maxMissedTurns jailBlocks = .ok next) :
    next.Sound maxMissedTurns := by
  unfold CanonicalRegistry.applyMissedTurn at h
  split at h
  · cases h
  · next participant found =>
    obtain ⟨named, few⟩ := sound.found found
    split at h
    · obtain rfl := Except.ok.inj h
      refine sound.put ?_ (missTurn_missedTurns jailBlocks few)
      rw [missTurn_address]
      exact named
    · cases h

theorem Sound.markProducerHeartbeat (sound : registry.Sound maxMissedTurns)
    (h : registry.markProducerHeartbeat address blockNumber = .ok next) : next.Sound maxMissedTurns := by
  unfold CanonicalRegistry.markProducerHeartbeat at h
  split at h
  · cases h
  · next participant found =>
    split at h
    · obtain rfl := Except.ok.inj h
      exact sound.put (sound.found found).1 (orDefault_pos _)
    · cases h

theorem Sound.activatePermissionlessProducer (sound : registry.Sound maxMissedTurns)
    (h : registry.activatePermissionlessProducer address blockNumber = .ok next) : next.Sound maxMissedTurns := by
  obtain ⟨_, named, h⟩ := bind_ok h
  obtain rfl := Except.ok.inj h
  exact sound.put (ensure_ok_iff.mp named) (orDefault_pos _)

theorem Sound.openActivation (sound : registry.Sound maxMissedTurns) {preserveRegistry : Bool}
    (h : registry.openActivation preserveRegistry address blockNumber = .ok next) : next.Sound maxMissedTurns := by
  obtain ⟨_, _, h⟩ := bind_ok h
  split at h
  · obtain ⟨_, _, h⟩ := bind_ok h
    split at h
    · exact sound.activatePermissionlessProducer h
    · next participant found =>
      obtain rfl := Except.ok.inj h
      exact sound.put (sound.found found).1 (orDefault_pos _)
  · exact Sound.empty.activatePermissionlessProducer h

theorem Sound.queueTurns (crypto : Crypto) {rules : RegistrySnapshotRules} {parentHash : Hash}
    (sound : registry.Sound rules.maxMissedTurns)
    (h : registry.queueTurns crypto rules parentHash address blockNumber = .ok next) :
    next.Sound rules.maxMissedTurns := by
  unfold CanonicalRegistry.queueTurns at h
  dsimp only at h
  split at h
  · cases h
  · obtain ⟨_, _, h⟩ := bind_ok h
    obtain ⟨moved, turns, h⟩ := bind_ok h
    have kept : registry.Sound rules.maxMissedTurns → moved.Sound rules.maxMissedTurns :=
      foldlM_ok_rel (fun before after : CanonicalRegistry => before.Sound rules.maxMissedTurns →
        after.Sound rules.maxMissedTurns) (fun _ sound => sound) (fun first second sound => second (first sound))
        (fun turn sound => sound.applyMissedTurn turn) turns
    exact (kept sound).markProducerHeartbeat h

theorem operationResult_missedTurns {found : Option CanonicalParticipant}
    (h : operationResult blockNumber operation found = .ok participant) :
    participant.missedTurns = 0 ∨ ∃ old, found = some old ∧ participant.missedTurns = old.missedTurns := by
  unfold operationResult at h
  split at h
  · dsimp only at h
    split at h
    · cases h
    · obtain rfl := Except.ok.inj h
      exact .inl rfl
  · cases found with
    | none => cases h
    | some old =>
      obtain rfl := Except.ok.inj h
      exact .inr ⟨old, rfl, rfl⟩
  · cases found with
    | none => cases h
    | some old =>
      dsimp only at h
      split at h
      · obtain rfl := Except.ok.inj h
        exact .inr ⟨old, rfl, rfl⟩
      · cases h
  · cases h

theorem Sound.applyOperation (sound : registry.Sound maxMissedTurns)
    (h : registry.applyOperation crypto chainID blockNumber proofDifficulty operation = .ok next) :
    next.Sound maxMissedTurns := by
  obtain ⟨_, valid, h⟩ := bind_ok h
  obtain ⟨_, _, h⟩ := bind_ok h
  obtain ⟨_, _, h⟩ := bind_ok h
  obtain ⟨participant, result, h⟩ := bind_ok h
  obtain rfl := Except.ok.inj h
  simp only [validateRegistryOperation, ensure_bind_ok_iff] at valid
  obtain ⟨own, _⟩ := operationResult_ok (fun _ found => (participant?_eq_some.mp found).2) result
  refine sound.put (own ▸ valid.2.2.1) ?_
  rcases operationResult_missedTurns result with none | ⟨old, found, same⟩
  · rw [none]
    exact orDefault_pos _
  · rw [same]
    exact (sound.found found).2

theorem Sound.applyOperations (sound : registry.Sound maxMissedTurns) {operations : List RegistryOperation}
    (h : applyOperations crypto chainID blockNumber proofDifficulty registry operations = .ok next) :
    next.Sound maxMissedTurns :=
  foldlM_ok_rel (fun before after : CanonicalRegistry => before.Sound maxMissedTurns → after.Sound maxMissedTurns)
    (fun _ sound => sound) (fun first second sound => second (first sound))
    (fun step sound => sound.applyOperation step)
    h sound

end Sound

/-! ### Turns that cannot fail -/

def Active (registry : CanonicalRegistry) (address : Address) : Prop :=
  ∃ participant, registry.participant? address = some participant ∧ participant.active = true

section Active

variable {registry : CanonicalRegistry} {address : Address} {blockNumber maxMissedTurns jailBlocks : Nat}

variable {crypto : Crypto} {parentHash : Hash}

theorem Active.put {participant : CanonicalParticipant} (active : participant.active = true)
    (held : registry.Active address) : Active (registry.put participant) address := by
  unfold Active
  rw [participant?_put]
  split
  · exact ⟨participant, rfl, active⟩
  · exact held

theorem missTurn_active (participant : CanonicalParticipant) :
    (participant.missTurn blockNumber maxMissedTurns jailBlocks).active = participant.active := by
  unfold CanonicalParticipant.missTurn
  dsimp only
  split_ifs <;> rfl

theorem applyMissedTurn_ok (active : registry.Active address) :
    ∃ next, registry.applyMissedTurn address blockNumber maxMissedTurns jailBlocks = .ok next ∧
      ∀ other, registry.Active other → next.Active other := by
  obtain ⟨participant, found, runs⟩ := active
  unfold applyMissedTurn
  rw [found]
  dsimp only
  rw [if_pos runs]
  exact ⟨_, rfl, fun other held => held.put ((missTurn_active participant).trans runs)⟩

theorem missedTurns_ok {addresses : List Address} (active : ∀ address ∈ addresses, registry.Active address) :
    ∃ next, addresses.foldlM (fun (registry : CanonicalRegistry) address =>
        registry.applyMissedTurn address blockNumber maxMissedTurns jailBlocks) registry = .ok next ∧
      ∀ other, registry.Active other → next.Active other := by
  induction addresses generalizing registry with
  | nil => exact ⟨registry, rfl, fun _ held => held⟩
  | cons first rest ih =>
    obtain ⟨here, later⟩ := List.forall_mem_cons.mp active
    obtain ⟨middle, turn, kept⟩ := applyMissedTurn_ok here
    obtain ⟨next, turns, held⟩ := ih fun address member => kept address (later address member)
    refine ⟨next, ?_, fun other active => held other (kept other active)⟩
    rw [List.foldlM_cons, turn]
    exact turns

theorem markProducerHeartbeat_ok (active : registry.Active address) :
    ∃ next, registry.markProducerHeartbeat address blockNumber = .ok next := by
  obtain ⟨participant, found, runs⟩ := active
  unfold markProducerHeartbeat
  rw [found]
  dsimp only
  rw [if_pos runs]
  exact ⟨_, rfl⟩

theorem active_of_mem_queue {activationDelay : Nat}
    (member : address ∈ registry.orderedParticipantsForBlock crypto parentHash blockNumber activationDelay) :
    registry.Active address := by
  obtain ⟨participant, eligible, rfl⟩ := mem_orderedParticipantsForBlock.mp member
  obtain ⟨listed, runs⟩ := List.mem_filter.mp eligible
  exact ⟨participant, participant?_eq_some.mpr ⟨listed, rfl⟩, (Bool.and_eq_true_iff.mp runs).1⟩

theorem queueTurns_ok {rules : RegistrySnapshotRules} (named : address ≠ 0)
    (member : address ∈ registry.orderedParticipantsForBlock crypto parentHash blockNumber rules.activationDelay) :
    ∃ next, registry.queueTurns crypto rules parentHash address blockNumber = .ok next := by
  unfold queueTurns
  dsimp only
  split
  · next none =>
    have absent := List.findIdx?_eq_none_iff.mp none address member
    exact absurd absent (by simp)
  · obtain ⟨moved, turns, kept⟩ := @missedTurns_ok registry blockNumber rules.maxMissedTurns rules.jailBlocks _
      fun earlier listed => active_of_mem_queue (List.mem_of_mem_take listed)
    obtain ⟨next, beats⟩ := @markProducerHeartbeat_ok moved address blockNumber
      (kept address (active_of_mem_queue member))
    exact ⟨next, ensure_bind_ok_iff.mpr ⟨named, bind_ok_iff.mpr ⟨moved, turns, beats⟩⟩⟩

end Active

end CanonicalRegistry

/-! ### Snapshots -/

section Snapshots

variable {crypto : Crypto} {chainID : Nat} {rules : RegistrySnapshotRules} {snapshot next : RegistrySnapshot}

variable {maxMissedTurns : Nat}

theorem newBootstrapRegistrySnapshot_sound {number : Nat} {hash : Hash} {participants : List Address}
    (boots : newBootstrapRegistrySnapshot number hash participants = .ok snapshot) :
    snapshot.hash ≠ 0 ∧ snapshot.registry.Sound maxMissedTurns := by
  obtain ⟨_, named, boots⟩ := bind_ok boots
  obtain ⟨registry, entered, boots⟩ := bind_ok boots
  obtain rfl := Except.ok.inj boots
  have kept : CanonicalRegistry.Sound maxMissedTurns KeyedList.empty → registry.Sound maxMissedTurns :=
    foldlM_ok_rel (fun before after : CanonicalRegistry => before.Sound maxMissedTurns → after.Sound maxMissedTurns)
      (fun _ sound => sound) (fun first second sound => second (first sound)) (fun step sound => by
        obtain ⟨_, address, step⟩ := bind_ok step
        obtain ⟨_, _, step⟩ := bind_ok step
        obtain rfl := Except.ok.inj step
        exact sound.put (ensure_ok_iff.mp address) (CanonicalRegistry.orDefault_pos _)) entered
  exact ⟨ensure_ok_iff.mp named, kept .empty⟩

theorem applyHeaderWithOpenActivation_sound {header : Header} {openActivation preserveRegistry : Bool}
    (nonzero : ∀ bytes, crypto.keccak256 bytes ≠ 0) (sound : snapshot.registry.Sound rules.maxMissedTurns)
    (applied : snapshot.applyHeaderWithOpenActivation crypto chainID rules header openActivation preserveRegistry =
      .ok next) : next.hash ≠ 0 ∧ next.registry.Sound rules.maxMissedTurns := by
  unfold RegistrySnapshot.applyHeaderWithOpenActivation at applied
  obtain ⟨registry, opened, applied⟩ := bind_ok applied
  obtain ⟨_, _, rfl⟩ := RegistrySnapshot.open_ok_iff.mp opened
  obtain ⟨_, _, applied⟩ := bind_ok applied
  obtain ⟨_, _, applied⟩ := bind_ok applied
  obtain ⟨_, _, applied⟩ := bind_ok applied
  obtain ⟨moved, turn, applied⟩ := bind_ok applied
  obtain ⟨result, operations, applied⟩ := bind_ok applied
  obtain ⟨_, _, applied⟩ := bind_ok applied
  obtain rfl := Except.ok.inj applied
  have kept : moved.Sound rules.maxMissedTurns := by
    unfold CanonicalRegistry.headerTurn at turn
    split at turn
    · exact sound.openActivation turn
    · exact sound.queueTurns crypto turn
  exact ⟨nonzero _, kept.applyOperations operations⟩

theorem RegistryRun.sound (nonzero : ∀ bytes, crypto.keccak256 bytes ≠ 0)
    (run : RegistryRun crypto chainID rules snapshot) :
    snapshot.hash ≠ 0 ∧ snapshot.registry.Sound rules.maxMissedTurns := by
  induction run with
  | bootstrap boots => exact newBootstrapRegistrySnapshot_sound boots
  | header _ applied ih => exact applyHeaderWithOpenActivation_sound nonzero ih.2 applied

theorem stored_registry (nonzero : ∀ bytes, crypto.keccak256 bytes ≠ 0) (named : snapshot.hash ≠ 0)
    (sound : snapshot.registry.Sound maxMissedTurns) :
    (snapshot.stored crypto).registry crypto = .ok snapshot.registry := by
  refine ensure_bind_ok_iff.mpr ⟨⟨named, nonzero _⟩, bind_ok_iff.mpr ⟨snapshot.registry, ?_, ?_⟩⟩
  · exact @foldlM_put_participants _ KeyedList.empty snapshot.registry.sorted fun participant member =>
      (sound participant member).1
  · exact ensure_bind_ok_iff.mpr ⟨rfl, ensure_bind_ok_iff.mpr ⟨rfl, rfl⟩⟩

end Snapshots

/-- Over every run of registry headers from a bootstrap snapshot: the record of a snapshot reads back as the registry
it was written from, the queue of any block is the eligible participants with those in jail last, nobody has as many
missed turns as lead to a jail, and the turns of an author in the queue do not fail. -/
theorem registry_run (crypto : Crypto) (nonzero : ∀ bytes, crypto.keccak256 bytes ≠ 0) (chainID : Nat)
    (rules : RegistrySnapshotRules) (snapshot : RegistrySnapshot) (run : RegistryRun crypto chainID rules snapshot) :
    (∃ registry, (snapshot.stored crypto).registry crypto = .ok registry ∧
      RegistrySnapshot.stored crypto ⟨snapshot.number, snapshot.hash, registry⟩ = snapshot.stored crypto) ∧
    (∀ parentHash blockNumber,
      let ordered := snapshot.registry.orderedParticipantsForBlock crypto parentHash blockNumber rules.activationDelay
      ordered.Perm ((snapshot.registry.eligibleParticipants blockNumber rules.activationDelay).map (·.address)) ∧
      ordered.Pairwise (fun first second => snapshot.registry.jailedPast blockNumber first = true →
        snapshot.registry.jailedPast blockNumber second = true) ∧
      ∀ author ∈ ordered, ∃ moved,
        snapshot.registry.queueTurns crypto rules parentHash author blockNumber = .ok moved) ∧
    ∀ participant ∈ snapshot.registry.participants, participant.missedTurns < orDefault rules.maxMissedTurns 3 := by
  obtain ⟨named, sound⟩ := run.sound nonzero
  refine ⟨⟨snapshot.registry, stored_registry nonzero named sound, rfl⟩, fun parentHash blockNumber => ⟨?_, ?_, ?_⟩,
    fun participant member => (sound participant member).2⟩
  · exact snapshot.registry.orderedParticipantsForBlock_perm
  · exact snapshot.registry.orderedParticipantsForBlock_jailed_last
  · intro author member
    obtain ⟨participant, found, _⟩ := CanonicalRegistry.active_of_mem_queue member
    have own := (CanonicalRegistry.participant?_eq_some.mp found).2
    exact CanonicalRegistry.queueTurns_ok (own ▸ (sound.found found).1) member

def firstRules : RegistrySnapshotRules := LqcConfig.registryRules { proofDifficulty := 1 }

def fallbackRegistry : CanonicalRegistry :=
  ((KeyedList.empty.put { address := 1, missedTurns := 1, active := true }).put
    { address := 2, lastHeartbeat := 1, active := true }).put
    { address := 3, registeredAt := 1, lastHeartbeat := 1, sequence := 1, active := true }

/-- Block 1 on two bootstrap participants. Its author is the second in the queue, and it registers a third one. -/
def fallbackHeader : Header where
  parentHash := 1
  coinbase := 2
  number := 1
  time := 15
  extra := (encodeRegistryHeaderExtra 1 (fallbackRegistry.root plainCrypto) [plainOperation 1 3 1 1]).toOption.getD []

def CanonicalRegistry.turns (registry : CanonicalRegistry) : List (Address × Nat × Nat) :=
  registry.participants.map fun participant => (participant.address, participant.missedTurns, participant.sequence)

theorem fallbackHeader_applies : (do
      let snapshot ← newBootstrapRegistrySnapshot 0 1 [1, 2]
      let next ← snapshot.applyHeaderWithOpenActivation plainCrypto 1 firstRules fallbackHeader false false
      .ok next.registry.turns) = (.ok [(1, 1, 0), (2, 0, 0), (3, 0, 1)] : Except LqcError _) := by
  decide +kernel

/-- A header that charges a missed turn and registers a participant. -/
theorem registry_run_fallback : ∃ snapshot next,
    newBootstrapRegistrySnapshot 0 1 [1, 2] = .ok snapshot ∧
    snapshot.applyHeaderWithOpenActivation plainCrypto 1 firstRules fallbackHeader false false = .ok next ∧
    next.registry.turns = [(1, 1, 0), (2, 0, 0), (3, 0, 1)] ∧
    (∃ registry, (next.stored plainCrypto).registry plainCrypto = .ok registry ∧
      RegistrySnapshot.stored plainCrypto ⟨next.number, next.hash, registry⟩ = next.stored plainCrypto) ∧
    ∀ participant ∈ next.registry.participants, participant.missedTurns < 3 := by
  obtain ⟨snapshot, boots, applies⟩ := bind_ok fallbackHeader_applies
  obtain ⟨next, applied, result⟩ := bind_ok applies
  obtain ⟨stored, _, few⟩ := registry_run plainCrypto plainCrypto_keccak256_ne_zero 1 firstRules next
    (.header (.bootstrap boots) applied)
  exact ⟨snapshot, next, boots, applied, Except.ok.inj result, stored, few⟩

end RabbitLqc
