import RabbitLqc.Work.Epoch

/-!
# The work state of a block

The seats being admitted for the open epoch and every persistent seat admitted before, advanced
by one block at a time. Both parts are absent until their first epoch, which the code writes as
epoch zero with empty fields.
-/

namespace RabbitLqc
open Lib RlpCodec

structure WorkCommitV1 where
  epoch : Nat
  anchor : Hash
  difficulty : Nat
  seats : List WorkSeatV1
  deriving DecidableEq, Repr

structure WorkChainSnapshotV1 where
  number : Nat
  hash : Hash
  epochLength : Nat
  commit : Option WorkCommitV1
  selection : Option WorkEpochSnapshotV1
  deriving DecidableEq, Repr

namespace WorkChainSnapshotV1

variable (snapshot : WorkChainSnapshotV1)

def selectionSeats : List WorkSeatV1 := (snapshot.selection.map (·.seats)).getD []

def selectionEpoch : Nat := (snapshot.selection.map (·.epoch)).getD 0

end WorkChainSnapshotV1

/-! ### State root -/

/-- `validateOptionalWorkEpochStateV1` on a part that is present. -/
def validateWorkEpochState (epoch : Nat) (anchor : Hash) (difficulty : Nat) (seats : List WorkSeatV1) :
    Except LqcError Unit := do
  ensure (epoch ≠ 0 ∧ anchor ≠ 0 ∧ difficulty ≠ 0) .invalidWorkChainSnapshotV1
  let canonical ← canonicalWorkEpochSeatsV1 seats
  ensure (canonical = seats) .invalidWorkChainSnapshotV1

def validateCommitPart : Option WorkCommitV1 → Except LqcError Unit
  | none => .ok ()
  | some commit => validateWorkEpochState commit.epoch commit.anchor commit.difficulty commit.seats

def validateSelectionPart (crypto : Crypto) (chainID : Nat) :
    Option WorkEpochSnapshotV1 → Except LqcError Unit
  | none => .ok ()
  | some selection => do
    validateWorkEpochState selection.epoch selection.anchor selection.difficulty selection.seats
    let (root, _) ← workEpochRootV1 crypto chainID selection.epoch selection.anchor
      selection.difficulty selection.seats
    ensure (root = selection.root) .invalidWorkChainSnapshotV1

def WorkChainSnapshotV1.rootItems (snapshot : WorkChainSnapshotV1) : List Rlp.Item :=
  let commit := snapshot.commit.getD ⟨0, 0, 0, []⟩
  let selection := snapshot.selection.getD ⟨0, 0, 0, 0, []⟩
  [natItem snapshot.number, natItem snapshot.epochLength, natItem commit.epoch, toItem commit.anchor,
    natItem commit.difficulty, seatItems commit.seats, natItem selection.epoch,
    toItem selection.anchor, natItem selection.difficulty, toItem selection.root,
    seatItems selection.seats]

def workChainStateRootV1 (crypto : Crypto) (chainID : Nat) (snapshot : WorkChainSnapshotV1) :
    Except LqcError Hash := do
  ensure (chainID ≠ 0 ∧ snapshot.hash ≠ 0 ∧ snapshot.epochLength ≠ 0) .invalidWorkChainSnapshotV1
  validateCommitPart snapshot.commit
  validateSelectionPart crypto chainID snapshot.selection
  .ok <| crypto.keccak256 <| Rlp.encode <| .list <| [textItem "RABBIT-LQC-WORK-CHAIN-STATE-V1",
    toItem randomXWorkProtocolVersion, natItem chainID] ++ snapshot.rootItems

namespace WorkChainSnapshotV1

/-- A snapshot carries the root computed when it was made, so it is valid when that root is. -/
def validate (crypto : Crypto) (chainID : Nat) (snapshot : WorkChainSnapshotV1) :
    Except LqcError Unit := do
  let root ← workChainStateRootV1 crypto chainID snapshot
  ensure (root ≠ 0) .invalidWorkChainSnapshotV1

/-- The closed epoch that elects the producer of a block; the first two epochs have none. -/
def selectionSnapshotV1 (crypto : Crypto) (chainID blockNumber : Nat) (snapshot : WorkChainSnapshotV1) :
    Except LqcError (Option WorkEpochSnapshotV1) := do
  ensure (snapshot.epochLength ≠ 0) .invalidWorkChainSnapshotV1
  match ← workSelectionSourceEpochV1 blockNumber snapshot.epochLength with
  | none => .ok none
  | some want => match snapshot.selection with
    | none => .error .workSelectionSnapshotMissingV1
    | some selection => do
      ensure (selection.epoch = want ∧ selection.anchor ≠ 0 ∧ selection.root ≠ 0)
        .workSelectionSnapshotMissingV1
      selection.validate crypto chainID
      .ok (some selection)

/-! ### One block -/

/-- The open epoch a block commits to: opened by its first block, the same for the others. -/
def openCommit (epoch : Nat) (anchor : Hash) (difficulty : Nat) :
    Option WorkCommitV1 → Except LqcError WorkCommitV1
  | none => .ok ⟨epoch, anchor, difficulty, []⟩
  | some commit => do
    ensure (commit.epoch = epoch) .workCommitEpochMismatchV1
    ensure (commit.anchor = anchor ∧ commit.difficulty = difficulty) .workCommitContextMismatchV1
    .ok commit

def admitSeats (seated : List WorkSeatV1) (commit : WorkCommitV1)
    (verified : List VerifiedRandomXWorkTicketV1) : Except LqcError WorkCommitV1 := do
  verified.forM fun item =>
    ensure (item.ticket.epoch.toNat = commit.epoch) .workCommitEpochMismatchV1
  let newSeats ← canonicalWorkSeatsV1 verified
  ensure (∀ seat ∈ newSeats, ∀ old ∈ seated, old.participant ≠ seat.participant)
    .workParticipantAlreadySeatedV1
  let seats ← canonicalWorkEpochSeatsV1 (commit.seats ++ newSeats)
  .ok { commit with seats }

def closeEpoch (crypto : Crypto) (chainID : Nat) (seated : List WorkSeatV1) (commit : WorkCommitV1) :
    Except LqcError WorkEpochSnapshotV1 := do
  let closed ← newWorkEpochSnapshotV1 crypto chainID commit.epoch commit.anchor commit.difficulty
    commit.seats
  let persistent ← canonicalWorkEpochSeatsV1 (seated ++ closed.seats)
  newWorkEpochSnapshotV1 crypto chainID closed.epoch closed.anchor closed.difficulty persistent

def commitBlock (crypto : Crypto) (chainID blockNumber commitEpoch : Nat) (anchor : Hash)
    (difficulty : Nat) (verified : List VerifiedRandomXWorkTicketV1) (snapshot : WorkChainSnapshotV1) :
    Except LqcError WorkChainSnapshotV1 := do
  let opened ← openCommit commitEpoch anchor difficulty snapshot.commit
  let commit ← admitSeats snapshot.selectionSeats opened verified
  if blockNumber % snapshot.epochLength = 0 then do
    let selection ← closeEpoch crypto chainID snapshot.selectionSeats commit
    .ok { snapshot with selection := some selection, commit := none }
  else .ok { snapshot with commit := some commit }

/-- The parts after any block: outside a commit epoch nothing may be committed. -/
def advance (crypto : Crypto) (chainID blockNumber : Nat) (commitAnchor : Hash)
    (commitDifficulty : Option Nat) (verified : List VerifiedRandomXWorkTicketV1)
    (snapshot : WorkChainSnapshotV1) : Except LqcError WorkChainSnapshotV1 := do
  match ← workCommitTargetEpochV1 blockNumber snapshot.epochLength with
  | none => do
    ensure (verified = []) .unexpectedWorkCommitV1
    ensure (commitAnchor = 0 ∧ commitDifficulty = none) .unexpectedWorkCommitV1
    .ok snapshot
  | some commitEpoch => match commitDifficulty with
    | none => .error .workCommitContextMismatchV1
    | some difficulty => do
      ensure (commitAnchor ≠ 0 ∧ difficulty ≠ 0) .workCommitContextMismatchV1
      commitBlock crypto chainID blockNumber commitEpoch commitAnchor difficulty verified snapshot

def applyVerifiedBlockV1 (crypto : Crypto) (chainID blockNumber : Nat) (blockHash parentHash : Hash)
    (commitAnchor : Hash) (commitDifficulty : Option Nat)
    (verified : List VerifiedRandomXWorkTicketV1) (snapshot : WorkChainSnapshotV1) :
    Except LqcError WorkChainSnapshotV1 := do
  snapshot.validate crypto chainID
  ensure (snapshot.number ≠ maxUint64 ∧ blockNumber = snapshot.number + 1 ∧
    parentHash = snapshot.hash ∧ blockHash ≠ 0) .workChainSnapshotMismatchV1
  let moved := { snapshot with number := blockNumber, hash := blockHash }
  let next ← moved.advance crypto chainID blockNumber commitAnchor commitDifficulty verified
  let _ ← workChainStateRootV1 crypto chainID next
  .ok next

end WorkChainSnapshotV1

def newWorkChainSnapshotV1 (crypto : Crypto) (chainID number : Nat) (hash : Hash) (epochLength : Nat) :
    Except LqcError WorkChainSnapshotV1 := do
  ensure (chainID ≠ 0 ∧ hash ≠ 0 ∧ epochLength ≠ 0) .invalidWorkChainSnapshotV1
  let snapshot : WorkChainSnapshotV1 := ⟨number, hash, epochLength, none, none⟩
  let _ ← workChainStateRootV1 crypto chainID snapshot
  .ok snapshot

/-! ### Validity -/

/-- The parts of a snapshot are what the code could have written. -/
structure WorkChainSnapshotV1.Valid (crypto : Crypto) (chainID : Nat) (snapshot : WorkChainSnapshotV1) :
    Prop where
  fields : chainID ≠ 0 ∧ snapshot.hash ≠ 0 ∧ snapshot.epochLength ≠ 0
  commit : validateCommitPart snapshot.commit = .ok ()
  selection : validateSelectionPart crypto chainID snapshot.selection = .ok ()

namespace WorkChainSnapshotV1

variable {crypto : Crypto} {chainID : Nat} {snapshot : WorkChainSnapshotV1}

theorem exists_root_iff :
    (∃ root, workChainStateRootV1 crypto chainID snapshot = .ok root) ↔ snapshot.Valid crypto chainID := by
  simp only [workChainStateRootV1, bind_ok_iff, exists_unit, ensure_ok_iff, Except.ok.injEq]
  constructor
  · intro rooted
    obtain ⟨_, fields, commit, selection, _⟩ := rooted
    exact ⟨fields, commit, selection⟩
  · intro valid
    exact ⟨_, valid.fields, valid.commit, valid.selection, rfl⟩

theorem validate_ok_iff (nonzero : ∀ bytes, crypto.keccak256 bytes ≠ 0) {u : Unit} :
    snapshot.validate crypto chainID = .ok u ↔ snapshot.Valid crypto chainID := by
  rw [← exists_root_iff]
  unfold validate
  simp only [bind_ok_iff, ensure_ok_iff]
  refine exists_congr fun root => and_iff_left_of_imp fun rooted => ?_
  unfold workChainStateRootV1 at rooted
  iterate 3 obtain ⟨_, _, rooted⟩ := bind_ok rooted
  rw [← Except.ok.inj rooted]
  exact nonzero _

theorem Valid.move (valid : snapshot.Valid crypto chainID) (number : Nat) {hash : Hash}
    (nonzero : hash ≠ 0) : Valid crypto chainID { snapshot with number, hash } :=
  ⟨⟨valid.fields.1, nonzero, valid.fields.2.2⟩, valid.commit, valid.selection⟩

end WorkChainSnapshotV1

/-! ### The hash of the block

Apart from having to be nonzero, the hash of a block plays no part in the state after it.
-/

namespace WorkChainSnapshotV1

variable {crypto : Crypto} {chainID blockNumber : Nat} {snapshot next : WorkChainSnapshotV1}
  {blockHash parentHash anchor hash : Hash} {verified : List VerifiedRandomXWorkTicketV1}

theorem workChainStateRootV1_rehash (before : snapshot.hash ≠ 0) (after : hash ≠ 0) :
    workChainStateRootV1 crypto chainID { snapshot with hash } =
      workChainStateRootV1 crypto chainID snapshot := by
  unfold workChainStateRootV1
  simp only [before, after, ne_eq, not_false_eq_true, true_and]
  rfl

theorem workChainStateRootV1_hash {root : Hash} (h : workChainStateRootV1 crypto chainID snapshot = .ok root) :
    snapshot.hash ≠ 0 := by
  obtain ⟨_, given, _⟩ := bind_ok h
  exact (ensure_ok_iff.mp given).2.1

theorem commitBlock_rehash {commitEpoch difficulty : Nat}
    (h : commitBlock crypto chainID blockNumber commitEpoch anchor difficulty verified snapshot =
      .ok next) :
    next.hash = snapshot.hash ∧
      commitBlock crypto chainID blockNumber commitEpoch anchor difficulty verified
        { snapshot with hash } = .ok { next with hash } := by
  unfold commitBlock at h ⊢
  obtain ⟨opened, first, h⟩ := bind_ok h
  obtain ⟨commit, admitted, h⟩ := bind_ok h
  simp only [bind_ok_iff]
  split at h
  · rename_i closing
    obtain ⟨selection, closed, h⟩ := bind_ok h
    obtain rfl := Except.ok.inj h
    refine ⟨rfl, opened, first, commit, admitted, ?_⟩
    rw [if_pos closing, bind_ok_iff]
    exact ⟨selection, closed, rfl⟩
  · rename_i running
    obtain rfl := Except.ok.inj h
    refine ⟨rfl, opened, first, commit, admitted, ?_⟩
    rw [if_neg running]

theorem advance_rehash {commitDifficulty : Option Nat}
    (h : snapshot.advance crypto chainID blockNumber anchor commitDifficulty verified = .ok next) :
    next.hash = snapshot.hash ∧
      advance crypto chainID blockNumber anchor commitDifficulty verified { snapshot with hash } =
        .ok { next with hash } := by
  unfold advance at h ⊢
  obtain ⟨target, scheduled, h⟩ := bind_ok h
  rw [bind_ok_iff]
  cases target with
  | none =>
    obtain ⟨_, first, h⟩ := bind_ok h
    obtain ⟨_, second, h⟩ := bind_ok h
    obtain rfl := Except.ok.inj h
    exact ⟨rfl, none, scheduled, bind_ok_iff.mpr ⟨_, first, bind_ok_iff.mpr ⟨_, second, rfl⟩⟩⟩
  | some commitEpoch =>
    cases commitDifficulty with
    | none => cases h
    | some difficulty =>
      obtain ⟨_, context, h⟩ := bind_ok h
      obtain ⟨same, again⟩ := commitBlock_rehash h
      exact ⟨same, some commitEpoch, scheduled, bind_ok_iff.mpr ⟨_, context, again⟩⟩

theorem applyVerifiedBlockV1_rehash {commitDifficulty : Option Nat}
    (h : snapshot.applyVerifiedBlockV1 crypto chainID blockNumber blockHash parentHash anchor
      commitDifficulty verified = .ok next) (nonzero : hash ≠ 0) :
    next.hash = blockHash ∧
      snapshot.applyVerifiedBlockV1 crypto chainID blockNumber hash parentHash anchor
        commitDifficulty verified = .ok { next with hash } := by
  unfold applyVerifiedBlockV1 at h ⊢
  obtain ⟨_, valid, h⟩ := bind_ok h
  obtain ⟨_, given, h⟩ := bind_ok h
  obtain ⟨moved, move, h⟩ := bind_ok h
  obtain ⟨root, rooted, h⟩ := bind_ok h
  obtain rfl := Except.ok.inj h
  obtain ⟨number, follows, parent, _⟩ := ensure_ok_iff.mp given
  obtain ⟨same, again⟩ := advance_rehash move
  have checks : ensure (snapshot.number ≠ maxUint64 ∧ blockNumber = snapshot.number + 1 ∧
      parentHash = snapshot.hash ∧ hash ≠ 0) LqcError.workChainSnapshotMismatchV1 = .ok () :=
    ensure_ok_iff.mpr ⟨number, follows, parent, nonzero⟩
  have rehashed := (workChainStateRootV1_rehash (workChainStateRootV1_hash rooted) nonzero).trans rooted
  exact ⟨same, bind_ok_iff.mpr ⟨_, valid, bind_ok_iff.mpr ⟨_, checks,
    bind_ok_iff.mpr ⟨_, again, bind_ok_iff.mpr ⟨_, rehashed, rfl⟩⟩⟩⟩⟩

end WorkChainSnapshotV1

end RabbitLqc
