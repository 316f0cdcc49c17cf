import RabbitLqc.Work.Snapshot

/-!
# The work state with its difficulty schedule

An epoch closes one epoch after its own, so what it observed can first affect the epoch two
later: odd and even epochs are retargeted independently. No caller chooses a difficulty.
-/

namespace RabbitLqc
open Lib RlpCodec

/-! ### Retargeting -/

def targetWorkTicketsPerEpochV1 : Nat := 256

def workDifficultyMaxIncreaseFactorV1 : Nat := 4

def workDifficultyMaxDecreaseFactorV1 : Nat := 2

/-- The closed ticket count, kept within the factors one epoch may move the difficulty by. -/
def effectiveWorkTicketCountV1 (observed : Nat) : Nat :=
  let minObserved := targetWorkTicketsPerEpochV1 / workDifficultyMaxDecreaseFactorV1
  let maxObserved := targetWorkTicketsPerEpochV1 * workDifficultyMaxIncreaseFactorV1
  if observed < minObserved then minObserved
  else if observed > maxObserved then maxObserved
  else observed

def nextWorkDifficultyV1 (current observed : Nat) : Except LqcError Nat := do
  ensure (current ≠ 0) .invalidWorkDifficultyV1
  let next := (current * effectiveWorkTicketCountV1 observed + targetWorkTicketsPerEpochV1 / 2) /
    targetWorkTicketsPerEpochV1
  .ok (if next = 0 then 1 else next)

structure WorkDifficultyStateV1 where
  oddEpoch : Nat
  oddDifficulty : Nat
  evenEpoch : Nat
  evenDifficulty : Nat
  deriving DecidableEq, Repr

def workDifficultyStateRootV1 (crypto : Crypto) (chainID : Nat) (state : WorkDifficultyStateV1) :
    Except LqcError Hash := do
  ensure (chainID ≠ 0 ∧ state.oddEpoch % 2 = 1 ∧ state.oddDifficulty ≠ 0 ∧ state.evenEpoch ≠ 0 ∧
    state.evenEpoch % 2 = 0 ∧ state.evenDifficulty ≠ 0) .invalidWorkDifficultyStateV1
  .ok <| crypto.keccak256 <| Rlp.encode <| .list [textItem "RABBIT-LQC-WORK-DIFFICULTY-STATE-V1",
    toItem randomXWorkProtocolVersion, natItem chainID, natItem state.oddEpoch,
    natItem state.oddDifficulty, natItem state.evenEpoch, natItem state.evenDifficulty]

def newWorkDifficultyStateV1 (crypto : Crypto) (chainID initialDifficulty : Nat) :
    Except LqcError WorkDifficultyStateV1 := do
  ensure (chainID ≠ 0 ∧ initialDifficulty ≠ 0) .invalidWorkDifficultyStateV1
  let state : WorkDifficultyStateV1 := ⟨1, initialDifficulty, 2, initialDifficulty⟩
  let _ ← workDifficultyStateRootV1 crypto chainID state
  .ok state

namespace WorkDifficultyStateV1

def validate (crypto : Crypto) (chainID : Nat) (state : WorkDifficultyStateV1) :
    Except LqcError Unit := do
  let root ← workDifficultyStateRootV1 crypto chainID state
  ensure (root ≠ 0) .invalidWorkDifficultyStateV1

def difficultyForEpochV1 (crypto : Crypto) (chainID epoch : Nat) (state : WorkDifficultyStateV1) :
    Except LqcError Nat := do
  state.validate crypto chainID
  if epoch = state.oddEpoch then .ok state.oddDifficulty
  else if epoch = state.evenEpoch then .ok state.evenDifficulty
  else .error .workDifficultyEpochUnavailableV1

def advanceClosedEpochV1 (crypto : Crypto) (chainID : Nat) (closed : WorkEpochSnapshotV1)
    (state : WorkDifficultyStateV1) : Except LqcError WorkDifficultyStateV1 := do
  state.validate crypto chainID
  closed.validate crypto chainID
  let current ← state.difficultyForEpochV1 crypto chainID closed.epoch
  ensure (current = closed.difficulty) .workDifficultyClosedEpochMismatchV1
  let difficulty ← nextWorkDifficultyV1 current closed.seats.length
  ensure (closed.epoch ≤ maxUint64 - 2) .invalidWorkDifficultyStateV1
  let next := if closed.epoch % 2 = 1
    then { state with oddEpoch := closed.epoch + 2, oddDifficulty := difficulty }
    else { state with evenEpoch := closed.epoch + 2, evenDifficulty := difficulty }
  let _ ← workDifficultyStateRootV1 crypto chainID next
  .ok next

end WorkDifficultyStateV1

/-! ### Runtime state -/

structure CanonicalWorkRuntimeStateV1 where
  work : WorkChainSnapshotV1
  difficulty : WorkDifficultyStateV1
  deriving DecidableEq, Repr

/-- The parts are validated, so the roots they carry are the ones computed from them. -/
def canonicalWorkRuntimeStateRootV1 (crypto : Crypto) (chainID : Nat)
    (state : CanonicalWorkRuntimeStateV1) : Except LqcError Hash := do
  ensure (chainID ≠ 0) .invalidCanonicalWorkRuntimeStateV1
  state.work.validate crypto chainID
  state.difficulty.validate crypto chainID
  let workRoot ← workChainStateRootV1 crypto chainID state.work
  let difficultyRoot ← workDifficultyStateRootV1 crypto chainID state.difficulty
  .ok <| crypto.keccak256 <| Rlp.encode <| .list [textItem "RABBIT-LQC-WORK-RUNTIME-STATE-V1",
    toItem randomXWorkProtocolVersion, natItem chainID, toItem workRoot, toItem difficultyRoot]

def newCanonicalWorkRuntimeStateV1 (crypto : Crypto) (chainID number : Nat) (hash : Hash)
    (epochLength initialDifficulty : Nat) : Except LqcError CanonicalWorkRuntimeStateV1 := do
  let work ← newWorkChainSnapshotV1 crypto chainID number hash epochLength
  let difficulty ← newWorkDifficultyStateV1 crypto chainID initialDifficulty
  let state : CanonicalWorkRuntimeStateV1 := ⟨work, difficulty⟩
  let _ ← canonicalWorkRuntimeStateRootV1 crypto chainID state
  .ok state

namespace CanonicalWorkRuntimeStateV1

def validate (crypto : Crypto) (chainID : Nat) (state : CanonicalWorkRuntimeStateV1) :
    Except LqcError Unit := do
  let root ← canonicalWorkRuntimeStateRootV1 crypto chainID state
  ensure (root ≠ 0) .invalidCanonicalWorkRuntimeStateV1

def commitDifficultyV1 (crypto : Crypto) (chainID blockNumber : Nat)
    (state : CanonicalWorkRuntimeStateV1) : Except LqcError (Option Nat) := do
  state.validate crypto chainID
  match ← workCommitTargetEpochV1 blockNumber state.work.epochLength with
  | none => .ok none
  | some epoch => do
    let difficulty ← state.difficulty.difficultyForEpochV1 crypto chainID epoch
    .ok (some difficulty)

def admissions (before : List WorkSeatV1) (after : List WorkSeatV1) : List WorkSeatV1 :=
  after.filter fun seat => ∀ old ∈ before, old.participant ≠ seat.participant

def nextDifficulty (crypto : Crypto) (chainID : Nat) (state : CanonicalWorkRuntimeStateV1)
    (nextWork : WorkChainSnapshotV1) : Except LqcError WorkDifficultyStateV1 :=
  match nextWork.selection with
  | none => .ok state.difficulty
  | some selection =>
    if selection.epoch = state.work.selectionEpoch then .ok state.difficulty
    else do
      let closed ← newWorkEpochSnapshotV1 crypto chainID selection.epoch selection.anchor
        selection.difficulty (admissions state.work.selectionSeats selection.seats)
      state.difficulty.advanceClosedEpochV1 crypto chainID closed

def applyVerifiedBlockV1 (crypto : Crypto) (chainID blockNumber : Nat) (blockHash parentHash : Hash)
    (commitChallengeAnchor : Hash) (verified : List VerifiedRandomXWorkTicketV1)
    (state : CanonicalWorkRuntimeStateV1) : Except LqcError CanonicalWorkRuntimeStateV1 := do
  state.validate crypto chainID
  let commitDifficulty ← state.commitDifficultyV1 crypto chainID blockNumber
  let nextWork ← state.work.applyVerifiedBlockV1 crypto chainID blockNumber blockHash parentHash
    commitChallengeAnchor commitDifficulty verified
  let difficulty ← state.nextDifficulty crypto chainID nextWork
  let next : CanonicalWorkRuntimeStateV1 := ⟨nextWork, difficulty⟩
  let _ ← canonicalWorkRuntimeStateRootV1 crypto chainID next
  .ok next

end CanonicalWorkRuntimeStateV1

/-- The two schedules are for epochs of their parity. -/
structure WorkDifficultyStateV1.Valid (state : WorkDifficultyStateV1) : Prop where
  odd : state.oddEpoch % 2 = 1 ∧ state.oddDifficulty ≠ 0
  even : state.evenEpoch ≠ 0 ∧ state.evenEpoch % 2 = 0 ∧ state.evenDifficulty ≠ 0

theorem workDifficultyStateRootV1_ok_iff {crypto : Crypto} {chainID : Nat} {state : WorkDifficultyStateV1} :
    (∃ root, workDifficultyStateRootV1 crypto chainID state = .ok root) ↔ chainID ≠ 0 ∧ state.Valid := by
  simp only [workDifficultyStateRootV1, ensure_bind_ok_iff, Except.ok.injEq]
  constructor
  · intro rooted
    obtain ⟨_, ⟨chain, odd, difficulty, even⟩, _⟩ := rooted
    exact ⟨chain, ⟨odd, difficulty⟩, even⟩
  · intro valid
    obtain ⟨chain, valid⟩ := valid
    exact ⟨_, ⟨chain, valid.odd.1, valid.odd.2, valid.even⟩, rfl⟩

theorem WorkDifficultyStateV1.validate_ok_iff {crypto : Crypto} {chainID : Nat}
    {state : WorkDifficultyStateV1} (nonzero : ∀ bytes, crypto.keccak256 bytes ≠ 0) {u : Unit} :
    state.validate crypto chainID = .ok u ↔ chainID ≠ 0 ∧ state.Valid := by
  rw [← @workDifficultyStateRootV1_ok_iff crypto]
  unfold WorkDifficultyStateV1.validate
  simp only [bind_ok_iff, ensure_ok_iff]
  refine exists_congr fun root => and_iff_left_of_imp fun rooted => ?_
  obtain ⟨_, _, rooted⟩ := bind_ok rooted
  rw [← Except.ok.inj rooted]
  exact nonzero _

namespace CanonicalWorkRuntimeStateV1

structure Valid (crypto : Crypto) (chainID : Nat) (state : CanonicalWorkRuntimeStateV1) : Prop where
  work : state.work.Valid crypto chainID
  difficulty : state.difficulty.Valid

section Valid

variable {crypto : Crypto} {chainID : Nat} {state : CanonicalWorkRuntimeStateV1}
  (nonzero : ∀ bytes, crypto.keccak256 bytes ≠ 0)

include nonzero

theorem exists_root_iff :
    (∃ root, canonicalWorkRuntimeStateRootV1 crypto chainID state = .ok root) ↔
      state.Valid crypto chainID := by
  simp only [canonicalWorkRuntimeStateRootV1, bind_ok_iff, exists_unit, ensure_ok_iff,
    WorkChainSnapshotV1.validate_ok_iff nonzero, WorkDifficultyStateV1.validate_ok_iff nonzero,
    Except.ok.injEq]
  constructor
  · intro rooted
    obtain ⟨_, _, work, ⟨_, difficulty⟩, _⟩ := rooted
    exact ⟨work, difficulty⟩
  · intro valid
    have chain := valid.work.fields.1
    obtain ⟨workRoot, workRooted⟩ := WorkChainSnapshotV1.exists_root_iff.mpr valid.work
    obtain ⟨difficultyRoot, difficultyRooted⟩ := workDifficultyStateRootV1_ok_iff.mpr ⟨chain, valid.difficulty⟩
    exact ⟨_, chain, valid.work, ⟨chain, valid.difficulty⟩, workRoot, workRooted, difficultyRoot,
      difficultyRooted, rfl⟩

theorem validate_ok_iff {u : Unit} :
    state.validate crypto chainID = .ok u ↔ state.Valid crypto chainID := by
  rw [← exists_root_iff nonzero]
  unfold validate
  simp only [bind_ok_iff, ensure_ok_iff]
  refine exists_congr fun root => and_iff_left_of_imp fun rooted => ?_
  unfold canonicalWorkRuntimeStateRootV1 at rooted
  iterate 5 obtain ⟨_, _, rooted⟩ := bind_ok rooted
  rw [← Except.ok.inj rooted]
  exact nonzero _

end Valid

/-! ### The hash of the block -/

section Rehash

variable {crypto : Crypto} {chainID blockNumber : Nat} {state next : CanonicalWorkRuntimeStateV1}
  {blockHash parentHash anchor hash : Hash} {verified : List VerifiedRandomXWorkTicketV1}

def rehash (hash : Hash) (state : CanonicalWorkRuntimeStateV1) : CanonicalWorkRuntimeStateV1 :=
  { state with work := { state.work with hash } }

theorem root_rehash (before : state.work.hash ≠ 0) (after : hash ≠ 0) :
    canonicalWorkRuntimeStateRootV1 crypto chainID (state.rehash hash) =
      canonicalWorkRuntimeStateRootV1 crypto chainID state := by
  have work := @WorkChainSnapshotV1.workChainStateRootV1_rehash crypto chainID _ _ before after
  unfold canonicalWorkRuntimeStateRootV1 WorkChainSnapshotV1.validate
  simp only [rehash, work]

theorem root_hash {root : Hash} (h : canonicalWorkRuntimeStateRootV1 crypto chainID state = .ok root) :
    state.work.hash ≠ 0 := by
  obtain ⟨_, _, h⟩ := bind_ok h
  obtain ⟨_, valid, _⟩ := bind_ok h
  obtain ⟨_, rooted, _⟩ := bind_ok valid
  exact WorkChainSnapshotV1.workChainStateRootV1_hash rooted

theorem applyVerifiedBlockV1_rehash
    (h : state.applyVerifiedBlockV1 crypto chainID blockNumber blockHash parentHash anchor verified =
      .ok next) (nonzero : hash ≠ 0) :
    next.work.hash = blockHash ∧
      state.applyVerifiedBlockV1 crypto chainID blockNumber hash parentHash anchor verified =
        .ok (next.rehash hash) := by
  unfold applyVerifiedBlockV1 at h ⊢
  obtain ⟨_, valid, h⟩ := bind_ok h
  obtain ⟨difficulty, scheduled, h⟩ := bind_ok h
  obtain ⟨nextWork, applied, h⟩ := bind_ok h
  obtain ⟨retargeted, retarget, h⟩ := bind_ok h
  obtain ⟨_, rooted, h⟩ := bind_ok h
  obtain rfl := Except.ok.inj h
  obtain ⟨same, again⟩ := WorkChainSnapshotV1.applyVerifiedBlockV1_rehash applied nonzero
  have rehashed := (root_rehash (root_hash rooted) nonzero).trans rooted
  exact ⟨same, bind_ok_iff.mpr ⟨_, valid, bind_ok_iff.mpr ⟨_, scheduled, bind_ok_iff.mpr ⟨_, again,
    bind_ok_iff.mpr ⟨_, retarget, bind_ok_iff.mpr ⟨_, rehashed, rfl⟩⟩⟩⟩⟩⟩

end Rehash

end CanonicalWorkRuntimeStateV1

end RabbitLqc
