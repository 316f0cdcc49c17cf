import RabbitLqc.Lib.RlpCommit
import RabbitLqc.Work.Runtime

/-!
# Stored work states

A record on disk holds a work state as the code lays it out: every root beside the fields it commits to,
an absent epoch as zeros, and numbers that may be missing or negative. Reading one back checks all of it.
-/

namespace RabbitLqc
open Lib RlpCodec

variable {epoch difficulty chainID : Nat} {anchor : Hash} {seats : List WorkSeatV1} {crypto : Crypto}
  {state : CanonicalWorkRuntimeStateV1}

/-! ### What the roots commit to -/

theorem WorkSeatV1.item_injective : Function.Injective WorkSeatV1.item := by
  intro left right same
  simp only [WorkSeatV1.item, Rlp.Item.list.injEq, List.cons.injEq, toItem_inj] at same
  obtain ⟨hash, participant, _⟩ := same
  cases left
  cases right
  exact congrArg₂ WorkSeatV1.mk hash participant

@[simp] theorem seatItems_inj {left right : List WorkSeatV1} : seatItems left = seatItems right ↔ left = right :=
  map_item_inj WorkSeatV1.item_injective

def WorkChainSnapshotV1.rootItem (chainID : Nat) (snapshot : WorkChainSnapshotV1) : Rlp.Item :=
  .list ([textItem "RABBIT-LQC-WORK-CHAIN-STATE-V1", toItem randomXWorkProtocolVersion, natItem chainID] ++
    snapshot.rootItems)

def WorkDifficultyStateV1.rootItem (chainID : Nat) (state : WorkDifficultyStateV1) : Rlp.Item :=
  .list [textItem "RABBIT-LQC-WORK-DIFFICULTY-STATE-V1", toItem randomXWorkProtocolVersion, natItem chainID,
    natItem state.oddEpoch, natItem state.oddDifficulty, natItem state.evenEpoch, natItem state.evenDifficulty]

def CanonicalWorkRuntimeStateV1.rootItem (crypto : Crypto) (chainID : Nat) (state : CanonicalWorkRuntimeStateV1) :
    Rlp.Item :=
  .list [textItem "RABBIT-LQC-WORK-RUNTIME-STATE-V1", toItem randomXWorkProtocolVersion, natItem chainID,
    toItem (crypto.keccak256 (Rlp.encode (state.work.rootItem chainID))),
    toItem (crypto.keccak256 (Rlp.encode (state.difficulty.rootItem chainID)))]

section Roots

variable {crypto : Crypto} {chainID : Nat} {root : Hash}

theorem workChainStateRootV1_eq_iff {snapshot : WorkChainSnapshotV1} :
    workChainStateRootV1 crypto chainID snapshot = .ok root ↔
      snapshot.Valid crypto chainID ∧ root = crypto.keccak256 (Rlp.encode (snapshot.rootItem chainID)) := by
  simp only [workChainStateRootV1, bind_ok_iff, exists_unit, ensure_ok_iff, Except.ok.injEq]
  constructor
  · intro rooted
    obtain ⟨fields, commit, selection, rfl⟩ := rooted
    exact ⟨⟨fields, commit, selection⟩, rfl⟩
  · intro rooted
    obtain ⟨valid, rfl⟩ := rooted
    exact ⟨valid.fields, valid.commit, valid.selection, rfl⟩

theorem workDifficultyStateRootV1_eq_iff {state : WorkDifficultyStateV1} :
    workDifficultyStateRootV1 crypto chainID state = .ok root ↔
      (chainID ≠ 0 ∧ state.Valid) ∧ root = crypto.keccak256 (Rlp.encode (state.rootItem chainID)) := by
  simp only [workDifficultyStateRootV1, ensure_bind_ok_iff, Except.ok.injEq]
  constructor
  · intro rooted
    obtain ⟨⟨chain, odd, difficulty, even⟩, rfl⟩ := rooted
    exact ⟨⟨chain, ⟨odd, difficulty⟩, even⟩, rfl⟩
  · intro rooted
    obtain ⟨⟨chain, valid⟩, rfl⟩ := rooted
    exact ⟨⟨chain, valid.odd.1, valid.odd.2, valid.even⟩, rfl⟩

theorem canonicalWorkRuntimeStateRootV1_eq {state : CanonicalWorkRuntimeStateV1}
    (rooted : canonicalWorkRuntimeStateRootV1 crypto chainID state = .ok root) :
    state.Valid crypto chainID ∧ root = crypto.keccak256 (Rlp.encode (state.rootItem crypto chainID)) := by
  obtain ⟨_, _, rooted⟩ := bind_ok rooted
  obtain ⟨_, _, rooted⟩ := bind_ok rooted
  obtain ⟨_, _, rooted⟩ := bind_ok rooted
  obtain ⟨workRoot, work, rooted⟩ := bind_ok rooted
  obtain ⟨difficultyRoot, difficulty, rooted⟩ := bind_ok rooted
  obtain ⟨workValid, rfl⟩ := workChainStateRootV1_eq_iff.mp work
  obtain ⟨⟨_, difficultyValid⟩, rfl⟩ := workDifficultyStateRootV1_eq_iff.mp difficulty
  exact ⟨⟨workValid, difficultyValid⟩, (Except.ok.inj rooted).symm⟩

end Roots

/-! ### Roots bind states -/

theorem validateWorkEpochState_epoch {u : Unit} (valid : validateWorkEpochState epoch anchor difficulty seats = .ok u) :
    epoch ≠ 0 ∧ anchor ≠ 0 ∧ difficulty ≠ 0 := by
  obtain ⟨_, fields, _⟩ := bind_ok valid
  exact ensure_ok_iff.mp fields

theorem validateCommitPart_inj {left right : Option WorkCommitV1} (leftValid : validateCommitPart left = .ok ())
    (rightValid : validateCommitPart right = .ok ())
    (same : left.getD ⟨0, 0, 0, []⟩ = right.getD ⟨0, 0, 0, []⟩) : left = right := by
  cases left with
  | none =>
    cases right with
    | none => rfl
    | some commit => exact absurd (congrArg WorkCommitV1.epoch same).symm (validateWorkEpochState_epoch rightValid).1
  | some commit =>
    cases right with
    | none => exact absurd (congrArg WorkCommitV1.epoch same) (validateWorkEpochState_epoch leftValid).1
    | some other => exact congrArg some same

theorem validateSelectionPart_epoch {selection : WorkEpochSnapshotV1}
    (valid : validateSelectionPart crypto chainID (some selection) = .ok ()) : selection.epoch ≠ 0 := by
  obtain ⟨_, fields, _⟩ := bind_ok valid
  exact (validateWorkEpochState_epoch fields).1

theorem validateSelectionPart_inj {left right : Option WorkEpochSnapshotV1}
    (leftValid : validateSelectionPart crypto chainID left = .ok ())
    (rightValid : validateSelectionPart crypto chainID right = .ok ())
    (same : left.getD ⟨0, 0, 0, 0, []⟩ = right.getD ⟨0, 0, 0, 0, []⟩) : left = right := by
  cases left with
  | none =>
    cases right with
    | none => rfl
    | some selection =>
      exact absurd (congrArg WorkEpochSnapshotV1.epoch same).symm (validateSelectionPart_epoch rightValid)
  | some selection =>
    cases right with
    | none => exact absurd (congrArg WorkEpochSnapshotV1.epoch same) (validateSelectionPart_epoch leftValid)
    | some other => exact congrArg some same

theorem WorkChainSnapshotV1.eq_of_rootItem {left right : WorkChainSnapshotV1} (leftValid : left.Valid crypto chainID)
    (rightValid : right.Valid crypto chainID) (block : left.hash = right.hash)
    (same : left.rootItem chainID = right.rootItem chainID) : left = right := by
  simp only [rootItem, rootItems, Rlp.Item.list.injEq, List.cons_append, List.nil_append, List.cons.injEq,
    natItem_inj, toItem_inj, seatItems_inj, true_and, and_true] at same
  obtain ⟨number, length, commitEpoch, commitAnchor, commitDifficulty, commitSeats, epoch, anchor, difficulty, root,
    seats⟩ := same
  have commit : left.commit = right.commit := by
    refine validateCommitPart_inj leftValid.commit rightValid.commit ?_
    cases first : left.commit.getD ⟨0, 0, 0, []⟩
    cases second : right.commit.getD ⟨0, 0, 0, []⟩
    rw [first, second] at commitEpoch commitAnchor commitDifficulty commitSeats
    simp only at commitEpoch commitAnchor commitDifficulty commitSeats
    rw [commitEpoch, commitAnchor, commitDifficulty, commitSeats]
  have selection : left.selection = right.selection := by
    refine validateSelectionPart_inj leftValid.selection rightValid.selection ?_
    cases first : left.selection.getD ⟨0, 0, 0, 0, []⟩
    cases second : right.selection.getD ⟨0, 0, 0, 0, []⟩
    rw [first, second] at epoch anchor difficulty root seats
    simp only at epoch anchor difficulty root seats
    rw [epoch, anchor, difficulty, root, seats]
  cases left
  cases right
  simp only at number block length commit selection
  rw [number, block, length, commit, selection]

theorem WorkDifficultyStateV1.eq_of_rootItem {left right : WorkDifficultyStateV1}
    (same : left.rootItem chainID = right.rootItem chainID) : left = right := by
  simp only [rootItem, Rlp.Item.list.injEq, List.cons.injEq, natItem_inj, true_and, and_true] at same
  obtain ⟨oddEpoch, oddDifficulty, evenEpoch, evenDifficulty⟩ := same
  cases left
  cases right
  simp only at oddEpoch oddDifficulty evenEpoch evenDifficulty
  rw [oddEpoch, oddDifficulty, evenEpoch, evenDifficulty]

/-- No two of the payloads behind the roots of two states collide. -/
structure CanonicalWorkRuntimeStateV1.Separated (crypto : Crypto) (chainID : Nat)
    (left right : CanonicalWorkRuntimeStateV1) : Prop where
  work : Rlp.Separated crypto.keccak256 (left.work.rootItem chainID) (right.work.rootItem chainID)
  difficulty : Rlp.Separated crypto.keccak256 (left.difficulty.rootItem chainID) (right.difficulty.rootItem chainID)
  whole : Rlp.Separated crypto.keccak256 (left.rootItem crypto chainID) (right.rootItem crypto chainID)

namespace CanonicalWorkRuntimeStateV1

variable {crypto : Crypto} {chainID : Nat} {root : Hash} {left right : CanonicalWorkRuntimeStateV1}

theorem eq_of_rootItem (separated : left.Separated crypto chainID right) (leftValid : left.Valid crypto chainID)
    (rightValid : right.Valid crypto chainID) (block : left.work.hash = right.work.hash)
    (payload : left.rootItem crypto chainID = right.rootItem crypto chainID) : left = right := by
  simp only [rootItem, Rlp.Item.list.injEq, List.cons.injEq, toItem_inj, true_and, and_true] at payload
  obtain ⟨work, difficulty⟩ := payload
  have sameWork := WorkChainSnapshotV1.eq_of_rootItem leftValid.work rightValid.work block (separated.work.eq work)
  have sameDifficulty := WorkDifficultyStateV1.eq_of_rootItem (separated.difficulty.eq difficulty)
  cases left
  cases right
  exact congrArg₂ CanonicalWorkRuntimeStateV1.mk sameWork sameDifficulty

end CanonicalWorkRuntimeStateV1

/-! ### Records -/

/-- The layout of `WorkChainSnapshotV1`. -/
structure StoredWorkChainSnapshotV1 where
  number : Nat
  hash : Hash
  epochLength : Nat
  stateRoot : Hash
  commitEpoch : Nat
  commitAnchor : Hash
  commitDifficulty : Option Int
  commitSeats : List WorkSeatV1
  selectionEpoch : Nat
  selectionAnchor : Hash
  selectionDifficulty : Option Int
  selectionRoot : Hash
  selectionSeats : List WorkSeatV1

/-- The layout of `WorkDifficultyStateV1`. -/
structure StoredWorkDifficultyStateV1 where
  oddEpoch : Nat
  oddDifficulty : Option Int
  evenEpoch : Nat
  evenDifficulty : Option Int
  stateRoot : Hash

/-- The layout of `CanonicalWorkRuntimeStateV1`. -/
structure StoredWorkRuntimeStateV1 where
  work : Option StoredWorkChainSnapshotV1
  difficulty : Option StoredWorkDifficultyStateV1
  stateRoot : Hash

def storedDifficulty (error : LqcError) : Option Int → Except LqcError Nat
  | none => .error error
  | some difficulty => do
    ensure (0 < difficulty) error
    .ok difficulty.toNat

/-- `validateOptionalWorkEpochStateV1`: the fields of a part that is absent are empty. -/
def storedEpochDifficulty (epoch : Nat) (anchor : Hash) (difficulty : Option Int) (seats : List WorkSeatV1) :
    Except LqcError (Option Nat) :=
  if epoch = 0 then do
    ensure (anchor = 0 ∧ difficulty = none ∧ seats = []) .invalidWorkChainSnapshotV1
    .ok none
  else do
    let difficulty ← storedDifficulty .invalidWorkChainSnapshotV1 difficulty
    .ok (some difficulty)

/-- `Validate` on a record, with the work state it holds. -/
def StoredWorkChainSnapshotV1.open (crypto : Crypto) (chainID : Nat) (stored : StoredWorkChainSnapshotV1) :
    Except LqcError WorkChainSnapshotV1 := do
  ensure (stored.stateRoot ≠ 0) .invalidWorkChainSnapshotV1
  let commitDifficulty ← storedEpochDifficulty stored.commitEpoch stored.commitAnchor stored.commitDifficulty
    stored.commitSeats
  let selectionDifficulty ← storedEpochDifficulty stored.selectionEpoch stored.selectionAnchor
    stored.selectionDifficulty stored.selectionSeats
  ensure (stored.selectionEpoch = 0 → stored.selectionRoot = 0) .invalidWorkChainSnapshotV1
  let snapshot : WorkChainSnapshotV1 := ⟨stored.number, stored.hash, stored.epochLength,
    commitDifficulty.map fun difficulty => ⟨stored.commitEpoch, stored.commitAnchor, difficulty, stored.commitSeats⟩,
    selectionDifficulty.map fun difficulty =>
      ⟨stored.selectionEpoch, stored.selectionAnchor, difficulty, stored.selectionRoot, stored.selectionSeats⟩⟩
  let root ← workChainStateRootV1 crypto chainID snapshot
  ensure (root = stored.stateRoot) .invalidWorkChainSnapshotV1
  .ok snapshot

def StoredWorkDifficultyStateV1.open (crypto : Crypto) (chainID : Nat) (stored : StoredWorkDifficultyStateV1) :
    Except LqcError WorkDifficultyStateV1 := do
  ensure (stored.stateRoot ≠ 0) .invalidWorkDifficultyStateV1
  let oddDifficulty ← storedDifficulty .invalidWorkDifficultyStateV1 stored.oddDifficulty
  let evenDifficulty ← storedDifficulty .invalidWorkDifficultyStateV1 stored.evenDifficulty
  let state : WorkDifficultyStateV1 := ⟨stored.oddEpoch, oddDifficulty, stored.evenEpoch, evenDifficulty⟩
  let root ← workDifficultyStateRootV1 crypto chainID state
  ensure (root = stored.stateRoot) .invalidWorkDifficultyStateV1
  .ok state

/-- `Validate` on the record of a runtime state. -/
def StoredWorkRuntimeStateV1.open (crypto : Crypto) (chainID : Nat) (stored : StoredWorkRuntimeStateV1) :
    Except LqcError CanonicalWorkRuntimeStateV1 := do
  ensure (stored.stateRoot ≠ 0) .invalidCanonicalWorkRuntimeStateV1
  match stored.work, stored.difficulty with
  | some work, some difficulty => do
    let state : CanonicalWorkRuntimeStateV1 := ⟨← work.open crypto chainID, ← difficulty.open crypto chainID⟩
    let root ← canonicalWorkRuntimeStateRootV1 crypto chainID state
    ensure (root = stored.stateRoot) .invalidCanonicalWorkRuntimeStateV1
    .ok state
  | _, _ => .error .invalidCanonicalWorkRuntimeStateV1

/-! ### Reading records -/

theorem storedDifficulty_ok_iff {error : LqcError} {stored : Option Int} :
    storedDifficulty error stored = .ok difficulty ↔ difficulty ≠ 0 ∧ stored = some (difficulty : Int) := by
  cases stored with
  | none => simp [storedDifficulty]
  | some value =>
    simp only [storedDifficulty, ensure_bind_ok_iff, Except.ok.injEq, Option.some.injEq]
    omega

theorem storedEpochDifficulty_ok_iff {stored : Option Int} {difficulty : Option Nat} :
    storedEpochDifficulty epoch anchor stored seats = .ok difficulty ↔
      (epoch = 0 ∧ difficulty = none ∧ anchor = 0 ∧ stored = none ∧ seats = []) ∨
        (epoch ≠ 0 ∧ ∃ value ≠ 0, difficulty = some value ∧ stored = some (value : Int)) := by
  unfold storedEpochDifficulty
  by_cases absent : epoch = 0
  · simp only [absent, if_true, ensure_bind_ok_iff, Except.ok.injEq, true_and, ne_eq, not_true_eq_false, false_and,
    or_false]
    constructor
    · intro read
      exact ⟨read.2.symm, read.1⟩
    · intro read
      exact ⟨read.2, read.1.symm⟩
  · simp only [absent, if_false, bind_ok_iff, Except.ok.injEq, storedDifficulty_ok_iff, false_and, ne_eq,
      not_false_eq_true, true_and, false_or]
    constructor
    · intro read
      obtain ⟨value, ⟨positive, same⟩, rfl⟩ := read
      exact ⟨value, positive, rfl, same⟩
    · intro read
      obtain ⟨value, positive, rfl, same⟩ := read
      exact ⟨value, ⟨positive, same⟩, rfl⟩

theorem StoredWorkRuntimeStateV1.open_ok {stored : StoredWorkRuntimeStateV1}
    (read : stored.open crypto chainID = .ok state) :
    canonicalWorkRuntimeStateRootV1 crypto chainID state = .ok stored.stateRoot ∧
      ∃ work, stored.work = some work ∧ state.work.number = work.number ∧ state.work.hash = work.hash := by
  unfold StoredWorkRuntimeStateV1.open at read
  obtain ⟨_, _, read⟩ := bind_ok read
  split at read
  · rename_i work difficulty hasWork hasDifficulty
    obtain ⟨snapshot, workRead, read⟩ := bind_ok read
    obtain ⟨_, _, read⟩ := bind_ok read
    obtain ⟨root, rooted, read⟩ := bind_ok read
    obtain ⟨_, same, read⟩ := bind_ok read
    obtain rfl := Except.ok.inj read
    have kept : snapshot.number = work.number ∧ snapshot.hash = work.hash := by
      unfold StoredWorkChainSnapshotV1.open at workRead
      iterate 6 obtain ⟨_, _, workRead⟩ := bind_ok workRead
      obtain rfl := Except.ok.inj workRead
      exact ⟨rfl, rfl⟩
    exact ⟨ensure_ok_iff.mp same ▸ rooted, work, hasWork, kept⟩
  · cases read

def WorkChainSnapshotV1.stored (crypto : Crypto) (chainID : Nat) (snapshot : WorkChainSnapshotV1) :
    StoredWorkChainSnapshotV1 :=
  let commit := snapshot.commit.getD ⟨0, 0, 0, []⟩
  let selection := snapshot.selection.getD ⟨0, 0, 0, 0, []⟩
  { number := snapshot.number
    hash := snapshot.hash
    epochLength := snapshot.epochLength
    stateRoot := crypto.keccak256 (Rlp.encode (snapshot.rootItem chainID))
    commitEpoch := commit.epoch
    commitAnchor := commit.anchor
    commitDifficulty := snapshot.commit.map fun commit => (commit.difficulty : Int)
    commitSeats := commit.seats
    selectionEpoch := selection.epoch
    selectionAnchor := selection.anchor
    selectionDifficulty := snapshot.selection.map fun selection => (selection.difficulty : Int)
    selectionRoot := selection.root
    selectionSeats := selection.seats }

def WorkDifficultyStateV1.stored (crypto : Crypto) (chainID : Nat) (state : WorkDifficultyStateV1) :
    StoredWorkDifficultyStateV1 :=
  ⟨state.oddEpoch, some state.oddDifficulty, state.evenEpoch, some state.evenDifficulty,
    crypto.keccak256 (Rlp.encode (state.rootItem chainID))⟩

def CanonicalWorkRuntimeStateV1.stored (crypto : Crypto) (chainID : Nat) (state : CanonicalWorkRuntimeStateV1) :
    StoredWorkRuntimeStateV1 :=
  ⟨some (state.work.stored crypto chainID), some (state.difficulty.stored crypto chainID),
    crypto.keccak256 (Rlp.encode (state.rootItem crypto chainID))⟩

theorem StoredWorkChainSnapshotV1.open_stored {stored : StoredWorkChainSnapshotV1} {snapshot : WorkChainSnapshotV1}
    (read : stored.open crypto chainID = .ok snapshot) :
    snapshot.Valid crypto chainID ∧ stored = snapshot.stored crypto chainID := by
  simp only [StoredWorkChainSnapshotV1.open, bind_ok_iff, exists_unit, ensure_ok_iff, storedEpochDifficulty_ok_iff,
    workChainStateRootV1_eq_iff, Except.ok.injEq] at read
  obtain ⟨_, commit, hasCommit, selection, hasSelection, rooted, root, ⟨valid, rfl⟩, same, rfl⟩ := read
  refine ⟨valid, ?_⟩
  clear valid
  cases stored with
  | mk number hash epochLength stateRoot commitEpoch commitAnchor commitDifficulty commitSeats selectionEpoch
      selectionAnchor selectionDifficulty selectionRoot selectionSeats =>
    simp only at same hasCommit hasSelection rooted
    subst same
    rcases hasCommit with ⟨rfl, rfl, rfl, rfl, rfl⟩ | ⟨_, value, _, rfl, rfl⟩ <;>
      rcases hasSelection with ⟨rfl, rfl, rfl, rfl, rfl⟩ | ⟨_, other, _, rfl, rfl⟩
    all_goals simp [WorkChainSnapshotV1.stored]
    all_goals exact rooted rfl

theorem StoredWorkDifficultyStateV1.open_stored {stored : StoredWorkDifficultyStateV1} {state : WorkDifficultyStateV1}
    (read : stored.open crypto chainID = .ok state) :
    (chainID ≠ 0 ∧ state.Valid) ∧ stored = state.stored crypto chainID := by
  simp only [StoredWorkDifficultyStateV1.open, bind_ok_iff, exists_unit, ensure_ok_iff, storedDifficulty_ok_iff,
    workDifficultyStateRootV1_eq_iff, Except.ok.injEq] at read
  obtain ⟨_, odd, ⟨_, oddStored⟩, even, ⟨_, evenStored⟩, root, ⟨valid, rfl⟩, same, rfl⟩ := read
  refine ⟨valid, ?_⟩
  cases stored
  simp only at oddStored evenStored same
  subst oddStored evenStored same
  rfl

theorem StoredWorkRuntimeStateV1.open_stored {stored : StoredWorkRuntimeStateV1}
    (read : stored.open crypto chainID = .ok state) :
    state.Valid crypto chainID ∧ stored = state.stored crypto chainID := by
  unfold StoredWorkRuntimeStateV1.open at read
  obtain ⟨_, _, read⟩ := bind_ok read
  split at read
  · rename_i work difficulty hasWork hasDifficulty
    obtain ⟨_, workRead, read⟩ := bind_ok read
    obtain ⟨_, difficultyRead, read⟩ := bind_ok read
    obtain ⟨root, rooted, read⟩ := bind_ok read
    obtain ⟨_, same, read⟩ := bind_ok read
    obtain rfl := Except.ok.inj read
    obtain ⟨valid, root_eq⟩ := canonicalWorkRuntimeStateRootV1_eq rooted
    obtain ⟨_, rfl⟩ := StoredWorkChainSnapshotV1.open_stored workRead
    obtain ⟨_, rfl⟩ := StoredWorkDifficultyStateV1.open_stored difficultyRead
    have stateRoot := ensure_ok_iff.mp same
    refine ⟨valid, ?_⟩
    cases stored
    simp only at hasWork hasDifficulty stateRoot
    subst hasWork hasDifficulty
    rw [← stateRoot, root_eq]
    rfl
  · cases read

end RabbitLqc
