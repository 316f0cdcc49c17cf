import RabbitLqc.Engine.Roles
import RabbitLqc.Engine.Seated
import RabbitLqc.Registry.Sequence

/-!
# Turns of the seats

What the seat liveness step does to the registry of a reachable parent. Charging a missed turn needs a record
to count it in: the second seat rule makes one, before it the step fails on a queued seat that has none.
-/

namespace RabbitLqc
open Lib

/-! ### One turn -/

namespace CanonicalRegistry

def seatRecord (registry : CanonicalRegistry) (blockNumber : Nat) (address : Address) : CanonicalParticipant :=
  (registry.participant? address).getD { address, registeredAt := blockNumber }

theorem seatRecord_address (registry : CanonicalRegistry) (blockNumber : Nat) (address : Address) :
    (registry.seatRecord blockNumber address).address = address := by
  unfold seatRecord
  cases found : registry.participant? address with
  | none => rfl
  | some participant => exact (participant?_eq_some.mp found).2

theorem seatRecord_congr {registry next : CanonicalRegistry} {blockNumber : Nat} {address : Address}
    (same : next.participant? address = registry.participant? address) :
    next.seatRecord blockNumber address = registry.seatRecord blockNumber address := by
  unfold seatRecord
  rw [same]

end CanonicalRegistry

namespace LqcConfig

section Turns

variable {config : LqcConfig} {registry next : CanonicalRegistry} {address : Address}
  {blockNumber maxMissedTurns jailBlocks : Nat}

theorem missedTurn_participant?
    (run : config.workSeatMissedTurnWithLivenessV2 registry address blockNumber maxMissedTurns jailBlocks = .ok next)
    (other : Address) : next.participant? other =
      if other = address then
        some ((registry.seatRecord blockNumber address).missTurn blockNumber maxMissedTurns jailBlocks)
      else registry.participant? other := by
  unfold workSeatMissedTurnWithLivenessV2 at run
  cases found : registry.participant? address with
  | none =>
    have fresh : registry.seatRecord blockNumber address = { address, registeredAt := blockNumber } := by
      unfold CanonicalRegistry.seatRecord
      rw [found]
      rfl
    split at run
    · obtain ⟨_, _, run⟩ := bind_ok run
      rw [found] at run
      dsimp only at run
      unfold CanonicalRegistry.applyWorkSeatMissedTurn at run
      rw [CanonicalRegistry.participant?_put, if_pos rfl] at run
      obtain rfl := Except.ok.inj run
      rw [CanonicalRegistry.participant?_put, CanonicalRegistry.missTurn_address,
        CanonicalRegistry.participant?_put, fresh]
      split
      · rfl
      · rfl
    · unfold CanonicalRegistry.applyWorkSeatMissedTurn at run
      rw [found] at run
      cases run
  | some participant =>
    have known : registry.seatRecord blockNumber address = participant := by
      unfold CanonicalRegistry.seatRecord
      rw [found]
      rfl
    have counted : registry.applyWorkSeatMissedTurn address blockNumber maxMissedTurns jailBlocks = .ok next := by
      split at run
      · obtain ⟨_, _, run⟩ := bind_ok run
        rw [found] at run
        exact run
      · exact run
    unfold CanonicalRegistry.applyWorkSeatMissedTurn at counted
    rw [found] at counted
    obtain rfl := Except.ok.inj counted
    rw [CanonicalRegistry.participant?_put, CanonicalRegistry.missTurn_address, known,
      (CanonicalRegistry.participant?_eq_some.mp found).2]

theorem missedTurn_ok_iff (named : address ≠ 0) (started : blockNumber ≠ 0) :
    (∃ next, config.workSeatMissedTurnWithLivenessV2 registry address blockNumber maxMissedTurns jailBlocks =
        .ok next) ↔
      forkActive config.workSeatLivenessV2Block blockNumber = true ∨ registry.participant? address ≠ none := by
  unfold workSeatMissedTurnWithLivenessV2 CanonicalRegistry.applyWorkSeatMissedTurn
  cases forkActive config.workSeatLivenessV2Block blockNumber with
  | true =>
    refine iff_of_true ?_ (.inl rfl)
    rw [if_pos rfl]
    simp only [ensure_bind_ok_iff, exists_and_left]
    refine ⟨⟨named, started⟩, ?_⟩
    cases found : registry.participant? address with
    | none =>
      dsimp only
      rw [CanonicalRegistry.participant?_put, if_pos rfl]
      exact ⟨_, rfl⟩
    | some participant =>
      dsimp only
      rw [found]
      exact ⟨_, rfl⟩
  | false =>
    rw [if_neg Bool.false_ne_true]
    cases registry.participant? address with
    | none => simp
    | some participant => simp

def chargeTurns (config : LqcConfig) (blockNumber maxMissedTurns jailBlocks : Nat) (registry : CanonicalRegistry)
    (addresses : List Address) : Except LqcError CanonicalRegistry :=
  addresses.foldlM (fun registry address =>
    config.workSeatMissedTurnWithLivenessV2 registry address blockNumber maxMissedTurns jailBlocks) registry

-- Each seat stands in the queue once, so that its record is still the first one when its turn comes.
theorem chargeTurns_participant? {addresses : List Address} (distinct : addresses.Nodup)
    (run : config.chargeTurns blockNumber maxMissedTurns jailBlocks registry addresses = .ok next) (other : Address) :
    next.participant? other =
      if other ∈ addresses then
        some ((registry.seatRecord blockNumber other).missTurn blockNumber maxMissedTurns jailBlocks)
      else registry.participant? other := by
  induction addresses generalizing registry with
  | nil =>
    obtain rfl := Except.ok.inj run
    rw [if_neg List.not_mem_nil]
  | cons address rest ih =>
    obtain ⟨apart, distinct⟩ := List.nodup_cons.mp distinct
    obtain ⟨moved, first, run⟩ := bind_ok run
    have turn := missedTurn_participant? first
    rw [ih distinct run]
    by_cases later : other ∈ rest
    · have kept : moved.participant? other = registry.participant? other := by
        rw [turn, if_neg]
        intro same
        exact apart (same ▸ later)
      rw [if_pos later, if_pos (List.mem_cons_of_mem _ later), CanonicalRegistry.seatRecord_congr kept]
    · rw [if_neg later, turn]
      by_cases same : other = address
      · rw [if_pos same, if_pos (same ▸ List.mem_cons_self), same]
      · rw [if_neg same, if_neg fun member => (List.mem_cons.mp member).elim same later]

theorem chargeTurns_ok_iff {addresses : List Address} (distinct : addresses.Nodup)
    (named : ∀ address ∈ addresses, address ≠ 0) (started : blockNumber ≠ 0) :
    (∃ next, config.chargeTurns blockNumber maxMissedTurns jailBlocks registry addresses = .ok next) ↔
      forkActive config.workSeatLivenessV2Block blockNumber = true ∨
        ∀ address ∈ addresses, registry.participant? address ≠ none := by
  induction addresses generalizing registry with
  | nil => exact iff_of_true ⟨registry, rfl⟩ (.inr (by simp))
  | cons address rest ih =>
    obtain ⟨apart, distinct⟩ := List.nodup_cons.mp distinct
    obtain ⟨here, later⟩ := List.forall_mem_cons.mp named
    have step : ∀ moved, config.workSeatMissedTurnWithLivenessV2 registry address blockNumber maxMissedTurns
        jailBlocks = .ok moved → ∀ other ∈ rest, moved.participant? other = registry.participant? other := by
      intro moved first other member
      rw [missedTurn_participant? first, if_neg]
      intro same
      exact apart (same ▸ member)
    rw [List.forall_mem_cons, or_and_left, ← missedTurn_ok_iff here started]
    constructor
    · intro run
      obtain ⟨next, run⟩ := run
      obtain ⟨moved, first, run⟩ := bind_ok run
      refine ⟨⟨moved, first⟩, ?_⟩
      rcases (ih distinct later).mp ⟨next, run⟩ with active | registered
      · exact .inl active
      · exact .inr fun other member => step moved first other member ▸ registered other member
    · intro parts
      obtain ⟨⟨moved, first⟩, others⟩ := parts
      have onward : forkActive config.workSeatLivenessV2Block blockNumber = true ∨
          ∀ other ∈ rest, moved.participant? other ≠ none :=
        others.imp_right fun registered other member => (step moved first other member).symm ▸ registered other member
      obtain ⟨next, run⟩ := (ih distinct later).mpr onward
      exact ⟨next, bind_ok_iff.mpr ⟨moved, first, run⟩⟩

end Turns

end LqcConfig

/-! ### The step of a block -/

def LqcConfig.chargesMissedTurns (config : LqcConfig) (blockNumber : Nat) : Bool :=
  forkActive config.consensusHardeningBlock blockNumber && !config.seatLivenessRestored blockNumber &&
    (config.consensusLivenessV4Active blockNumber || !config.consensusFairnessActive blockNumber)

/-- The author starts over with a heartbeat, every seat before it that is not in jail has missed a turn, and
nothing else changes. -/
structure SeatsCharged (config : LqcConfig) (registry next : CanonicalRegistry) (blockNumber : Nat)
    (skipped : List Address) (author : Address) : Prop where
  produced : next.participant? author =
    some { (registry.seatRecord blockNumber author).cleared with lastHeartbeat := blockNumber }
  missed : ∀ address ∈ skipped, (registry.seatRecord blockNumber address).jailedUntil ≤ blockNumber →
    next.participant? address = some ((registry.seatRecord blockNumber address).missTurn blockNumber
      config.registryRules.maxMissedTurns config.registryRules.jailBlocks)
  jailed : ∀ address ∈ skipped, blockNumber < (registry.seatRecord blockNumber address).jailedUntil →
    next.participant? address = registry.participant? address
  others : ∀ address, address ≠ author → address ∉ skipped →
    next.participant? address = registry.participant? address

section Step

variable {config : LqcConfig} {registry moved : CanonicalRegistry} {blockNumber queuePos : Nat}
  {selection : HybridSelection} {author : Address}

theorem markWorkSeatProducerHeartbeat_eq (named : author ≠ 0) :
    registry.markWorkSeatProducerHeartbeat author blockNumber =
      .ok (registry.put { (registry.seatRecord blockNumber author).cleared with lastHeartbeat := blockNumber }) := by
  unfold CanonicalRegistry.markWorkSeatProducerHeartbeat
  exact ensure_bind_ok_iff.mpr ⟨named, rfl⟩

theorem missTurn_jailed {address : Address} {maxMissedTurns jailBlocks : Nat}
    (jailed : blockNumber < (registry.seatRecord blockNumber address).jailedUntil) :
    some ((registry.seatRecord blockNumber address).missTurn blockNumber maxMissedTurns jailBlocks) =
      registry.participant? address := by
  unfold CanonicalParticipant.missTurn
  rw [if_pos jailed]
  unfold CanonicalRegistry.seatRecord at jailed ⊢
  cases found : registry.participant? address with
  | none =>
    rw [found] at jailed
    exact absurd jailed (Nat.not_lt_zero _)
  | some participant => rfl

theorem chargeTurns_charged {skipped : List Address} (distinct : skipped.Nodup) (apart : author ∉ skipped)
    (run : config.chargeTurns blockNumber config.registryRules.maxMissedTurns config.registryRules.jailBlocks
      registry skipped = .ok moved) :
    SeatsCharged config registry
      (moved.put { (moved.seatRecord blockNumber author).cleared with lastHeartbeat := blockNumber }) blockNumber
      skipped author := by
  have turn := LqcConfig.chargeTurns_participant? distinct run
  have kept : moved.participant? author = registry.participant? author := by rw [turn, if_neg apart]
  have own : ({ (moved.seatRecord blockNumber author).cleared with lastHeartbeat := blockNumber } :
      CanonicalParticipant).address = author := moved.seatRecord_address blockNumber author
  have skips {address : Address} (member : address ∈ skipped) : address ≠ author := fun same => apart (same ▸ member)
  refine ⟨?_, ?_, ?_, ?_⟩
  · rw [CanonicalRegistry.participant?_put, own, if_pos rfl, CanonicalRegistry.seatRecord_congr kept]
  · intro address member _
    rw [CanonicalRegistry.participant?_put, own, if_neg (skips member), turn, if_pos member]
  · intro address member jailed
    rw [CanonicalRegistry.participant?_put, own, if_neg (skips member), turn, if_pos member]
    exact missTurn_jailed jailed
  · intro address different outside
    rw [CanonicalRegistry.participant?_put, own, if_neg different, turn, if_neg outside]

theorem applySeatLiveness_ok_iff (distinct : selection.ordered.Nodup) (zero : (0 : Address) ∉ selection.ordered)
    (started : blockNumber ≠ 0) (here : selection.ordered[queuePos]? = some author)
    (allowed : config.isAuthorAllowedAt blockNumber selection author = some queuePos) :
    (∃ next, config.workV1EngineLabApplySeatLiveness registry blockNumber selection author = .ok next) ↔
      (config.chargesMissedTurns blockNumber = true →
        forkActive config.workSeatLivenessV2Block blockNumber = true ∨
          ∀ address ∈ selection.ordered.take queuePos, registry.participant? address ≠ none) := by
  have named : author ≠ 0 := fun same => zero (same ▸ List.mem_of_getElem? here)
  have beats (moved : CanonicalRegistry) := @markWorkSeatProducerHeartbeat_eq moved blockNumber author named
  unfold LqcConfig.workV1EngineLabApplySeatLiveness LqcConfig.chargesMissedTurns
  cases forkActive config.consensusHardeningBlock blockNumber with
  | false => exact iff_of_true ⟨registry, rfl⟩ (Bool.noConfusion ·)
  | true =>
    simp only [Bool.not_true, Bool.false_eq_true, if_false, Bool.true_and, allowed]
    unfold LqcConfig.seatTurns
    dsimp only
    cases config.seatLivenessRestored blockNumber with
    | true =>
      -- Restoring makes the records it does not find.
      have whole : distinctParticipants selection.ordered = true := decide_eq_true ⟨zero, distinct⟩
      have restores (fresh : Address → CanonicalParticipant) :
          registry.restoreWith fresh selection.ordered = .ok (registry.clearAll fresh selection.ordered) :=
        ensure_bind_ok_iff.mpr ⟨whole, rfl⟩
      refine iff_of_true ?_ (Bool.noConfusion ·)
      rw [if_pos rfl]
      split
      · exact ⟨_, bind_ok_iff.mpr ⟨_, restores _, beats _⟩⟩
      · exact ⟨_, bind_ok_iff.mpr ⟨_, restores _, beats _⟩⟩
    | false =>
      simp only [Bool.false_eq_true, if_false, Bool.not_false, Bool.true_and]
      split
      · next charges =>
        have charged := @LqcConfig.chargeTurns_ok_iff config registry blockNumber
          config.registryRules.maxMissedTurns config.registryRules.jailBlocks _
          (distinct.sublist (List.take_sublist queuePos _))
          (fun address member same => zero (same ▸ List.mem_of_mem_take member)) started
        constructor
        · intro run _
          obtain ⟨next, run⟩ := run
          obtain ⟨moved, turns, _⟩ := bind_ok run
          exact charged.mp ⟨moved, turns⟩
        · intro recorded
          obtain ⟨moved, turns⟩ := charged.mpr (recorded charges)
          exact ⟨_, bind_ok_iff.mpr ⟨moved, turns, beats moved⟩⟩
      · next idle => exact iff_of_true ⟨_, beats registry⟩ (absurd · idle)

theorem applySeatLiveness_charged {next : CanonicalRegistry} (distinct : selection.ordered.Nodup)
    (here : selection.ordered[queuePos]? = some author)
    (allowed : config.isAuthorAllowedAt blockNumber selection author = some queuePos)
    (charges : config.chargesMissedTurns blockNumber = true)
    (run : config.workV1EngineLabApplySeatLiveness registry blockNumber selection author = .ok next) :
    SeatsCharged config registry next blockNumber (selection.ordered.take queuePos) author := by
  have apart : author ∉ selection.ordered.take queuePos := by
    obtain ⟨inside, same⟩ := List.getElem?_eq_some_iff.mp here
    intro member
    refine List.disjoint_take_drop distinct le_rfl member ?_
    rw [List.drop_eq_getElem_cons inside, same]
    exact List.mem_cons_self
  unfold LqcConfig.chargesMissedTurns at charges
  simp only [Bool.and_eq_true, Bool.not_eq_true'] at charges
  obtain ⟨⟨hardened, ordinary⟩, charged⟩ := charges
  unfold LqcConfig.workV1EngineLabApplySeatLiveness at run
  simp only [hardened, Bool.not_true, Bool.false_eq_true, if_false, allowed] at run
  obtain ⟨moved, turns, run⟩ := bind_ok run
  unfold LqcConfig.seatTurns at turns
  simp only [ordinary, Bool.false_eq_true, if_false, if_pos charged] at turns
  obtain ⟨_, named, run⟩ := bind_ok run
  obtain rfl := Except.ok.inj run
  exact chargeTurns_charged (distinct.sublist (List.take_sublist _ _)) apart turns

end Step

/-! ### Reachable parents -/

section Reachable

variable {lqc : LQC} {branch : Branch} {header : Header} {runtime : CanonicalWorkRuntimeStateV1}
  {parent : RegistrySnapshot} {registry : CanonicalRegistry} {selected : HybridSelection × Bool}

theorem selection_named (set : SeatSet runtime.work.selectionSeats) (opened : parent.open lqc.crypto = .ok registry)
    (selects : lqc.workSelectionForHeader branch header runtime parent = .ok selected) :
    (0 : Address) ∉ selected.1.ordered := by
  intro member
  rcases (selectionForHeader_queue opened selects).members 0 member with seated | activated
  · obtain ⟨seat, held, zero⟩ := seated
    exact (set.nonzero seat held).2 zero
  · obtain ⟨participant, held, _, zero⟩ := activated
    obtain ⟨_, clean, rfl⟩ := RegistrySnapshot.open_ok_iff.mp opened
    cases clean.symm.trans (CanonicalRegistry.participant?_eq_some.mpr ⟨held, zero⟩)

/-- The seat liveness step for an allowed author of any block: it goes through, charging exactly the seats in
front of the author, unless one of them has no record that the second seat rule would make. -/
theorem seat_liveness_step {author : Address} {queuePos : Nat} (accepted : Accepted lqc branch)
    (runs : LQC.parentRuntime branch = .ok runtime)
    (opened : parent.open lqc.crypto = .ok registry)
    (selects : lqc.workSelectionForHeader branch header runtime parent = .ok selected)
    (allowed : lqc.config.isAuthorAllowedAt header.number selected.1 author = some queuePos) :
    (∃ next, lqc.config.workV1EngineLabApplySeatLiveness registry header.number selected.1 author = .ok next ∧
        (lqc.config.chargesMissedTurns header.number = true →
          SeatsCharged lqc.config registry next header.number (selected.1.ordered.take queuePos) author)) ↔
      (lqc.config.chargesMissedTurns header.number = true →
        forkActive lqc.config.workSeatLivenessV2Block header.number = true ∨
          ∀ address ∈ selected.1.ordered.take queuePos, registry.participant? address ≠ none) := by
  have set := accepted.parentSeats runs
  have roles := selectionForHeader_roles set selects
  have started : header.number ≠ 0 := by
    unfold LQC.workSelectionForHeader workV1EngineLabSelectionForHeader at selects
    obtain ⟨_, block, _⟩ := bind_ok selects
    exact ensure_ok_iff.mp block
  have here := (roles.charged author queuePos allowed).1
  have runs := @applySeatLiveness_ok_iff lqc.config registry header.number queuePos selected.1 author roles.distinct
    (selection_named set opened selects) started here allowed
  constructor
  · intro step
    obtain ⟨next, run, _⟩ := step
    exact runs.mp ⟨next, run⟩
  · intro recorded
    obtain ⟨next, run⟩ := runs.mpr recorded
    exact ⟨next, run, fun charges => applySeatLiveness_charged roles.distinct here allowed charges run⟩

end Reachable

/-! ### A queue of four seats -/

/-- The forks up to the fifth liveness rule at the block that closes the first epoch, the second admission rule at
the block after it. -/
def unrecordedConfig : LqcConfig where
  proofDifficulty := 1
  registryProtocolBlock := 1
  consensusHardeningBlock := 256
  consensusLivenessV3Block := 256
  consensusLivenessV4Block := 256
  consensusLivenessV5Block := 256
  workSeatAdmissionV2Block := 257
  committeeSize := 1
  fallbackCount := 2

def restoredRegistry : CanonicalRegistry :=
  KeyedList.empty.put { address := 1, registeredAt := 1, lastHeartbeat := 256, active := true }

theorem restoredRegistry_participant? {address : Address} (other : address ≠ 1) :
    restoredRegistry.participant? address = none := by
  unfold restoredRegistry
  rw [CanonicalRegistry.participant?_put, if_neg other]
  rfl

theorem unrecordedConfig_restores :
    unrecordedConfig.workV1EngineLabApplySeatLiveness (openedRegistry 1) 256 { ordered := [1] } 1 =
      .ok restoredRegistry := by
  rfl

theorem unrecordedConfig_idling : Idling unrecordedConfig 20 255 where
  difficulty := rfl
  registry := rfl
  nobody := rfl
  plain := by decide
  early number small := by
    unfold LqcConfig.consensusLivenessV3Active forkActive
    constructor
    · exact decide_eq_false fun active => absurd (active.2.trans small) (by decide)
    · exact decide_eq_false fun active => absurd (active.2.trans small) (by decide)
  due := by decide
  calm := by decide
  short := by decide

/-- Operations of the block that closes the first epoch, and the registry they leave. The first participant stays the
only one that no operation made. -/
structure Registers (operations : List RegistryOperation) (registry : CanonicalRegistry) : Prop where
  applied : CanonicalRegistry.applyOperations nonceCrypto 1 256 1 restoredRegistry operations = .ok registry
  few : operations.length ≤ maxRegistryOperationsWithCommitteeClaimsV1
  listed : HeaderOperations operations
  sorted : canonicalRegistryOperations operations = operations
  signed : ∀ operation ∈ operations, validateRegistryOperation nonceCrypto 1 256 1 operation = .ok ()
  clean : registry.participant? 0 = none
  only : registry.participants.filter CanonicalParticipant.isActivationIdentity =
    [{ address := 1, registeredAt := 1, lastHeartbeat := 256, active := true }]
  free : ∀ participant ∈ registry.participants, participant.jailedUntil = 0

theorem registers_nobody : Registers [] restoredRegistry :=
  ⟨rfl, by decide, ⟨by decide, by simp, List.isChain_nil⟩, rfl, by simp, restoredRegistry_participant? (by decide), rfl,
    by decide⟩

def fourTickets : List VerifiedRandomXWorkTicketV1 := [1, 2, 3, 4].map (plainVerified 1)

section Registers

variable {operations : List RegistryOperation} {registry : CanonicalRegistry}

theorem Registers.exists_seated (registers : Registers operations registry) :
    ∃ entry rest state, entry.header.number = 256 ∧
      Tip (plainLqc unrecordedConfig) entry rest state fourTickets registry := by
  have nonzero := nonceCrypto_keccak256_ne_zero
  have idling := unrecordedConfig_idling
  obtain ⟨last, below, state, number, time, _, tip⟩ := idling.exists_idle (by decide) (by decide)
  have fits : last.header.time + 20 ≤ maxUint64 := by
    rw [time]
    decide
  have signs : Signs (plainLqc unrecordedConfig) last.header (nextDraft (plainLqc unrecordedConfig) last.header 1 20)
      (last.header.time + 20) (plainSignature 1) :=
    (plainLqc_seals unrecordedConfig Nat.one_ne_zero (by decide)).signs (by rw [number]; decide) idling.pace fits le_rfl
  have live : unrecordedConfig.workV1EngineLabApplySeatLiveness (openedRegistry 1) (last.header.number + 1)
      { ordered := [1] } 1 = .ok restoredRegistry := by
    rw [number]
    exact unrecordedConfig_restores
  have turn := tip.turn_alone nonzero live (nextDraft_closed idling.calm (by rw [number]; decide))
    (by rw [number]; decide) rfl rfl
  have open' : state.openEpoch = (1 : UInt64).toNat := by
    rw [(tip.accepted.runtimes tip.runtime).1.openEpoch, number]
    rfl
  have brought := tip.brought_plain (show ([1, 2, 3, 4] : List Nat).Pairwise (· < ·) by decide) (by decide)
    idling.positive signs.links (nonzero (Rlp.encode (.list [textItem "RABBIT-LQC-REGISTRY-ROOT-V1",
      .list (registry.participants.map CanonicalParticipant.item)]))) (by decide) open' (by decide) (by decide)
  have fork : (nextDraft (plainLqc unrecordedConfig) last.header 1 20).number = 256 := congrArg (· + 1) number
  obtain ⟨claimRoot, rooted, claimed⟩ := brought.claimed_nil nonzero signs.links fork (by rw [fork]; decide)
  have listed : ListedClaims (UInt64.ofNat (nextDraft (plainLqc unrecordedConfig) last.header 1 20).number) operations
      [] := by
    rw [fork]
    exact ⟨⟨by decide, by simp, List.nodup_nil, by decide⟩, rfl, fun absent => absurd rfl absent⟩
  have drafted : Drafted (plainLqc unrecordedConfig) (last :: below)
      (nextDraft (plainLqc unrecordedConfig) last.header 1 20) state
      ⟨last.header.number, last.header.hash nonceCrypto, openedRegistry 1⟩ operations { ordered := [1] } registry := by
    refine ⟨⟨_, turn, ?_⟩, registers.clean, registers.listed, registers.sorted, ?_⟩
    · rw [fork]
      exact registers.applied
    · rw [fork]
      exact registers.signed
  obtain ⟨_, _, _, _, _, _, step, _, _, _, grown⟩ := tip.extend_v4 nonzero idling.positive signs
    (idling.enabled (by rw [fork]; decide)) (by rw [fork]; rfl) rfl drafted registers.few brought rooted listed claimed
    (verifyTurn_single le_rfl fits (Nat.add_le_add_left idling.due _))
  exact ⟨step.entry, _, step.next, fork, grown⟩

theorem Registers.orderSeatsAt (registers : Registers operations registry) {seats : List WorkSeatV1} {seed : Hash}
    (set : SeatSet seats) (seeded : seed ≠ 0) (roleLimit : Nat) :
    unrecordedConfig.orderSeatsAt registry nonceCrypto seats seed 257 roleLimit =
      .ok (sortOn (WorkSeatV1.scoreKey nonceCrypto seed) seats) := by
  have sorted := deterministicallyOrderWorkSeatsV1_ok_iff.mpr
    ⟨seeded, set, (rfl : sortOn (WorkSeatV1.scoreKey nonceCrypto seed) seats = _)⟩
  have kept : (sortOn (WorkSeatV1.scoreKey nonceCrypto seed) seats).filter
      (unrecordedConfig.seatKeptV5 registry 257) = sortOn (WorkSeatV1.scoreKey nonceCrypto seed) seats := by
    refine List.filter_eq_self.mpr fun seat _ => ?_
    unfold LqcConfig.seatKeptV5
    cases found : registry.participant? seat.participant with
    | none => rfl
    | some participant =>
      have free := registers.free participant (CanonicalRegistry.participant?_eq_some.mp found).1
      simp only [free]
      rfl
  refine bind_ok_iff.mpr ⟨_, sorted, ?_⟩
  show Except.ok ((sortOn (WorkSeatV1.scoreKey nonceCrypto seed) seats).filter
    (unrecordedConfig.seatKeptV5 registry 257)) = _
  rw [kept]

theorem fourRoles_allowed (registry : CanonicalRegistry) {ordered : List WorkSeatV1} (count : ordered.length = 4)
    (distinct : (ordered.map (·.participant)).Nodup) :
    ∃ first second author rest, ordered.map (·.participant) = first :: second :: author :: rest ∧
      unrecordedConfig.isAuthorAllowedAt 257 (seatRoles unrecordedConfig registry 4 257 ordered) author = some 2 := by
  obtain ⟨a, b, c, d, rfl⟩ := List.length_eq_four.mp count
  refine ⟨a.participant, b.participant, c.participant, [d.participant], rfl, ?_⟩
  simp only [List.map_cons, List.map_nil, List.nodup_cons, List.mem_cons, not_or] at distinct
  obtain ⟨⟨_, producer, _⟩, ⟨fallback, _⟩, _⟩ := distinct
  have apart : (seatRoles unrecordedConfig registry 4 257 [a, b, c, d]).producer? ≠ some c.participant :=
    fun same => producer (Option.some.inj same)
  show HybridSelection.isAuthorAllowedBounded (seatRoles unrecordedConfig registry 4 257 [a, b, c, d])
    c.participant = some 2
  unfold HybridSelection.isAuthorAllowedBounded
  rw [if_neg apart]
  show (List.findIdx? (· = c.participant) [b.participant, c.participant]).map (· + 1) = some 2
  rw [List.findIdx?_cons, decide_eq_false fallback, List.findIdx?_cons, decide_eq_true rfl]
  rfl

theorem Registers.exists_queue (registers : Registers operations registry) : ∃ parent rest state ordered,
    Tip (plainLqc unrecordedConfig) parent rest state fourTickets registry ∧ parent.header.number + 1 = 257 ∧
      ordered.Perm (fourTickets.map (·.seat)) ∧ SeatSet ordered ∧
      ∀ author, (plainLqc unrecordedConfig).workSelectionForHeader (parent :: rest)
        (nextDraft (plainLqc unrecordedConfig) parent.header author 20) state
        ⟨parent.header.number, parent.header.hash nonceCrypto, registry⟩ =
          .ok (seatRoles unrecordedConfig registry 4 257 ordered, true) := by
  have nonzero := nonceCrypto_keccak256_ne_zero
  obtain ⟨parent, rest, state, number, tip⟩ := registers.exists_seated
  have had := (tip.accepted.runtimes tip.runtime).1
  obtain ⟨source, present, follows, set, root, seats⟩ := tip.electing nonzero (by rw [number]; decide)
  have openEpoch : state.openEpoch = 2 := by
    rw [had.openEpoch, number]
    rfl
  have all : ticketsBefore fourTickets state.openEpoch = fourTickets := by
    rw [openEpoch]
    rfl
  rw [all] at seats
  have count : source.seats.length = 4 := seats.length_eq
  have first : (plainVerified 1 1).seat ∈ source.seats := seats.mem_iff.mpr List.mem_cons_self
  let draft := nextDraft (plainLqc unrecordedConfig) parent.header 1 20
  have numbered : draft.number = 257 := congrArg (· + 1) number
  have called (seed : Hash) : sortOn (WorkSeatV1.scoreKey nonceCrypto seed) source.seats ≠ [] := by
    refine List.ne_nil_of_length_pos ?_
    rw [sortOn_perm.length_eq, count]
    decide
  obtain ⟨seed, ordered, seeded, ordering, selects⟩ := @Tip.selects_seats (plainLqc unrecordedConfig) rest parent
    state registry fourTickets draft source _ nonzero nonceCrypto_proves tip rfl (by rw [number]; decide) present
    (by rw [numbered]; decide) registers.only ⟨_, first, rfl⟩
    (fun seed seeded => ⟨_, called seed, by rw [numbered]; exact registers.orderSeatsAt set seeded _⟩)
  rw [numbered] at ordering
  rw [numbered, count] at selects
  obtain rfl := Except.ok.inj ((registers.orderSeatsAt set seeded _).symm.trans ordering)
  -- The author of a block has no say in its selection.
  exact ⟨parent, rest, state, _, tip, numbered, sortOn_perm.trans seats, set.perm sortOn_perm.symm, fun _ => selects⟩

theorem Registers.open (registers : Registers operations registry) {number : Nat} {hash : Hash} (named : hash ≠ 0) :
    RegistrySnapshot.open nonceCrypto ⟨number, hash, registry⟩ = .ok registry :=
  RegistrySnapshot.open_ok_iff.mpr ⟨⟨named, nonceCrypto_keccak256_ne_zero _⟩, registers.clean, rfl⟩

end Registers

/-- With four seats, one of them registered, the second fallback of the next block cannot be charged for: its block
cannot be built or accepted, although it is allowed. -/
theorem seat_liveness_unrecorded : ∃ branch header runtime parent selected queuePos error,
    unrecordedConfig.checkConfigForkOrder = true ∧ Accepted (plainLqc unrecordedConfig) branch ∧
      LQC.parentRuntime branch = .ok runtime ∧
      (plainLqc unrecordedConfig).registryParentSnapshot branch header = .ok parent ∧
      parent.open (plainLqc unrecordedConfig).crypto = .ok restoredRegistry ∧
      (plainLqc unrecordedConfig).workSelectionForHeader branch header runtime parent = .ok selected ∧
      unrecordedConfig.isAuthorAllowedAt header.number selected.1 header.coinbase = some queuePos ∧
      unrecordedConfig.workV1EngineLabApplySeatLiveness restoredRegistry header.number selected.1 header.coinbase =
        .error error := by
  obtain ⟨parent, rest, state, ordered, tip, number, perm, set, selects⟩ := registers_nobody.exists_queue
  obtain ⟨producer, fallback, author, others, queue, allowed⟩ :=
    fourRoles_allowed restoredRegistry perm.length_eq set.participants
  have roles : (seatRoles unrecordedConfig restoredRegistry 4 257 ordered).ordered =
      producer :: fallback :: author :: others := (seatRoles_ordered ..).trans queue
  have distinct : (producer :: fallback :: author :: others).Nodup := queue ▸ set.participants
  have fails : ¬ ∃ next, unrecordedConfig.workV1EngineLabApplySeatLiveness restoredRegistry 257
      (seatRoles unrecordedConfig restoredRegistry 4 257 ordered) author = .ok next := by
    have zero : (0 : Address) ∉ producer :: fallback :: author :: others := by
      rw [← queue]
      intro member
      obtain ⟨seat, inside, zero⟩ := List.mem_map.mp member
      exact (set.nonzero seat inside).2 zero
    rw [applySeatLiveness_ok_iff (by rwa [roles]) (by rwa [roles]) (by decide) (by rw [roles]; rfl) allowed]
    intro recorded
    rw [roles] at recorded
    rcases recorded rfl with active | registered
    · cases active
    · -- Only the first participant is registered, and the two seats in front of the author differ.
      have one {address : Address} (member : address ∈ [producer, fallback]) : address = 1 := by
        by_contra other
        exact registered address member (restoredRegistry_participant? other)
      refine (List.nodup_cons.mp distinct).1 ?_
      rw [one (List.mem_cons_self), one (List.mem_cons_of_mem _ List.mem_cons_self)]
      exact List.mem_cons_self
  obtain ⟨error, failed⟩ := exists_error_iff.mpr fails
  have snapshot : (plainLqc unrecordedConfig).registryParentSnapshot (parent :: rest)
      (nextDraft (plainLqc unrecordedConfig) parent.header author 20) =
        .ok ⟨parent.header.number, parent.header.hash nonceCrypto, restoredRegistry⟩ := by
    have enabled : unrecordedConfig.registryProtocolEnabled (parent.header.number + 1) = true :=
      unrecordedConfig_idling.enabled (Nat.le_add_left 1 _)
    show (if (!unrecordedConfig.registryProtocolEnabled (parent.header.number + 1)) = true then
      Except.error LqcError.registryProtocolUnavailable else parent.registry) = _
    rw [enabled]
    exact tip.registered
  have numbered : (nextDraft (plainLqc unrecordedConfig) parent.header author 20).number = 257 := number
  exact ⟨parent :: rest, nextDraft (plainLqc unrecordedConfig) parent.header author 20, state, _, _, 2, error,
    by decide, tip.accepted, tip.runtime, snapshot, registers_nobody.open (nonceCrypto_keccak256_ne_zero _),
    selects author, by rw [numbered]; exact allowed, by rw [numbered]; exact failed⟩

def seatOperations : List RegistryOperation := [2, 3, 4].map fun signer => plainOperation 1 signer 1 256

def recordedRegistry : CanonicalRegistry :=
  [2, 3, 4].foldl (fun registry signer => registry.put
    { address := BitVec.ofNat 160 signer, sequence := 1, registeredAt := 256, lastHeartbeat := 256, active := true })
    restoredRegistry

theorem seatOperations_signed (operation : RegistryOperation) (member : operation ∈ seatOperations) :
    HeaderOperation operation ∧ validateRegistryOperation nonceCrypto 1 256 1 operation = .ok () := by
  simp only [seatOperations, List.map_cons, List.map_nil, List.mem_cons, List.not_mem_nil, or_false] at member
  rcases member with rfl | rfl | rfl
  all_goals exact ⟨⟨rfl, by decide, by decide, by decide, by decide⟩, by decide⟩

theorem registers_seats : Registers seatOperations recordedRegistry where
  applied := by decide +kernel
  few := by decide
  listed := ⟨by decide, fun operation member => (seatOperations_signed operation member).1, by decide⟩
  sorted := by decide +kernel
  signed operation member := (seatOperations_signed operation member).2
  clean := by decide
  only := by decide
  free := by decide

/-- Where all four seats have their record, the second fallback is charged for: both seats in front of it miss a
turn. -/
theorem seat_liveness_fallback : ∃ first second author rest selected next,
    unrecordedConfig.checkConfigForkOrder = true ∧ unrecordedConfig.chargesMissedTurns 257 = true ∧
      selected.ordered = first :: second :: author :: rest ∧
      unrecordedConfig.isAuthorAllowedAt 257 selected author = some 2 ∧
      unrecordedConfig.workV1EngineLabApplySeatLiveness recordedRegistry 257 selected author = .ok next ∧
      SeatsCharged unrecordedConfig recordedRegistry next 257 [first, second] author ∧
      ∀ address ∈ [first, second], ∃ record, next.participant? address = some record ∧ record.missedTurns = 1 := by
  obtain ⟨parent, rest, state, ordered, tip, number, perm, set, selects⟩ := registers_seats.exists_queue
  obtain ⟨first, second, author, others, queue, allowed⟩ :=
    fourRoles_allowed recordedRegistry perm.length_eq set.participants
  have roles : (seatRoles unrecordedConfig recordedRegistry 4 257 ordered).ordered =
      first :: second :: author :: others := (seatRoles_ordered ..).trans queue
  have charges : unrecordedConfig.chargesMissedTurns 257 = true := by decide
  have fresh : ∀ address ∈ first :: second :: author :: others,
      (recordedRegistry.seatRecord 257 address).jailedUntil = 0 ∧
        (recordedRegistry.seatRecord 257 address).missedTurns = 0 ∧
        recordedRegistry.participant? address ≠ none := by
    rw [← queue]
    intro address member
    have four : address ∈ [1, 2, 3, 4] := ((perm.map (·.participant)).mem_iff.mp member :)
    simp only [List.mem_cons, List.not_mem_nil, or_false] at four
    rcases four with rfl | rfl | rfl | rfl
    all_goals decide
  have step := seat_liveness_step tip.accepted tip.runtime
    (registers_seats.open (nonceCrypto_keccak256_ne_zero _)) (selects author) (by
      show unrecordedConfig.isAuthorAllowedAt (parent.header.number + 1) _ _ = some 2
      rw [number]
      exact allowed)
  rw [show (nextDraft (plainLqc unrecordedConfig) parent.header author 20).number = 257 from number, roles] at step
  obtain ⟨next, run, charged⟩ := step.mpr fun _ => .inr fun address member =>
    (fresh address (List.mem_of_mem_take member)).2.2
  refine ⟨first, second, author, others, _, next, by decide, charges, roles, allowed, run, charged charges, ?_⟩
  intro address member
  obtain ⟨free, none, _⟩ := fresh address (List.mem_of_mem_take (show address ∈ List.take 2 _ from member))
  refine ⟨_, (charged charges).missed address member (by rw [free]; decide), ?_⟩
  unfold CanonicalParticipant.missTurn
  rw [free, none]
  rfl

end RabbitLqc
