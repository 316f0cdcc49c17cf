import RabbitLqc.Work.Runtime

/-!
# What a block does to the work state

Before the first commit epoch a block changes nothing. Later it admits its tickets to the open
epoch, and the last block of a chain epoch closes it into the persistent seats.
-/

namespace RabbitLqc
open Lib RlpCodec

variable {crypto : Crypto} {chainID difficulty : Nat} {anchor : Hash}

/-! ### Closing an epoch -/

def epochSnapshot (crypto : Crypto) (chainID epoch : Nat) (anchor : Hash) (difficulty : Nat)
    (seats : List WorkSeatV1) : WorkEpochSnapshotV1 :=
  let canonical := sortOn WorkSeatV1.orderKey seats
  let root := crypto.keccak256 <| Rlp.encode <| .list [textItem "RABBIT-LQC-WORK-EPOCH-ROOT-V1",
    toItem randomXWorkProtocolVersion, natItem chainID, natItem epoch, toItem anchor,
    natItem difficulty, seatItems canonical]
  ⟨epoch, anchor, difficulty, root, canonical⟩

theorem workEpochRootV1_ok_iff {epoch : Nat} {root : Hash} {seats canonical : List WorkSeatV1} :
    workEpochRootV1 crypto chainID epoch anchor difficulty seats = .ok (root, canonical) ↔
      (chainID ≠ 0 ∧ epoch ≠ 0 ∧ anchor ≠ 0 ∧ difficulty ≠ 0) ∧ SeatSet seats ∧
        root = (epochSnapshot crypto chainID epoch anchor difficulty seats).root ∧
        canonical = sortOn WorkSeatV1.orderKey seats := by
  unfold workEpochRootV1 epochSnapshot
  simp only [bind_ok_iff, ensure_ok_iff, exists_unit, canonicalWorkEpochSeatsV1_ok_iff, Except.ok.injEq,
    Prod.mk.injEq]
  constructor
  · intro rooted
    obtain ⟨context, canonical, ⟨set, rfl⟩, rfl, rfl⟩ := rooted
    exact ⟨context, set, rfl, rfl⟩
  · intro given
    obtain ⟨context, set, rfl, rfl⟩ := given
    exact ⟨context, _, ⟨set, rfl⟩, rfl, rfl⟩

theorem newWorkEpochSnapshotV1_ok_iff {epoch : Nat} {seats : List WorkSeatV1} {snapshot : WorkEpochSnapshotV1} :
    newWorkEpochSnapshotV1 crypto chainID epoch anchor difficulty seats = .ok snapshot ↔
      (chainID ≠ 0 ∧ epoch ≠ 0 ∧ anchor ≠ 0 ∧ difficulty ≠ 0) ∧ SeatSet seats ∧
        snapshot.root ≠ 0 ∧ snapshot = epochSnapshot crypto chainID epoch anchor difficulty seats := by
  unfold newWorkEpochSnapshotV1
  simp only [bind_ok_iff, Prod.exists, workEpochRootV1_ok_iff, ensure_ok_iff, exists_unit,
    Except.ok.injEq]
  constructor
  · intro made
    obtain ⟨root, canonical, ⟨context, set, rfl, rfl⟩, nonzero, rfl⟩ := made
    exact ⟨context, set, nonzero, rfl⟩
  · intro given
    obtain ⟨context, set, nonzero, rfl⟩ := given
    exact ⟨_, _, ⟨context, set, rfl, rfl⟩, nonzero, rfl⟩

theorem SeatSet.sort {seats : List WorkSeatV1} (set : SeatSet seats) :
    SeatSet (sortOn WorkSeatV1.orderKey seats) :=
  set.perm sortOn_perm.symm

theorem SeatSet.of_append {left right : List WorkSeatV1} (set : SeatSet (left ++ right)) : SeatSet right := by
  refine ⟨fun seat member => set.nonzero seat (List.mem_append_right _ member), ?_, ?_⟩
  · exact (List.nodup_append.mp (List.map_append ▸ set.hashes)).2.1
  · exact (List.nodup_append.mp (List.map_append ▸ set.participants)).2.1

namespace WorkChainSnapshotV1

variable {seated : List WorkSeatV1} {commit : WorkCommitV1}

/-- The persistent seats after an epoch with `commit` closed. -/
def persistentSeats (seated : List WorkSeatV1) (commit : WorkCommitV1) : List WorkSeatV1 :=
  sortOn WorkSeatV1.orderKey (seated ++ sortOn WorkSeatV1.orderKey commit.seats)

theorem persistentSeats_perm (seated : List WorkSeatV1) (commit : WorkCommitV1) :
    (persistentSeats seated commit).Perm (seated ++ commit.seats) :=
  sortOn_perm.trans (sortOn_perm.append_left seated)

variable {crypto : Crypto} {chainID : Nat}

def closedSelection (crypto : Crypto) (chainID : Nat) (seated : List WorkSeatV1) (commit : WorkCommitV1) :
    WorkEpochSnapshotV1 :=
  epochSnapshot crypto chainID commit.epoch commit.anchor commit.difficulty (persistentSeats seated commit)

theorem closedSelection_seats (seated : List WorkSeatV1) (commit : WorkCommitV1) :
    (closedSelection crypto chainID seated commit).seats.Perm (seated ++ commit.seats) :=
  sortOn_perm.trans (persistentSeats_perm seated commit)

theorem closeEpoch_ok {selection : WorkEpochSnapshotV1} (h : closeEpoch crypto chainID seated commit = .ok selection) :
    SeatSet (seated ++ commit.seats) ∧ selection = closedSelection crypto chainID seated commit := by
  unfold closeEpoch at h
  simp only [bind_ok_iff, newWorkEpochSnapshotV1_ok_iff, canonicalWorkEpochSeatsV1_ok_iff] at h
  obtain ⟨closed, ⟨_, _, _, rfl⟩, persistent, ⟨set, rfl⟩, _, _, _, rfl⟩ := h
  exact ⟨set.perm (sortOn_perm.append_left seated), rfl⟩

theorem closeEpoch_of (nonzero : ∀ bytes, crypto.keccak256 bytes ≠ 0)
    (context : chainID ≠ 0 ∧ commit.epoch ≠ 0 ∧ commit.anchor ≠ 0 ∧ commit.difficulty ≠ 0)
    (set : SeatSet (seated ++ commit.seats)) :
    closeEpoch crypto chainID seated commit = .ok (closedSelection crypto chainID seated commit) := by
  have all : SeatSet (seated ++ sortOn WorkSeatV1.orderKey commit.seats) :=
    set.perm (sortOn_perm.append_left seated).symm
  unfold closeEpoch
  simp only [bind_ok_iff, newWorkEpochSnapshotV1_ok_iff, canonicalWorkEpochSeatsV1_ok_iff]
  exact ⟨_, ⟨context, set.of_append, nonzero _, rfl⟩, _, ⟨all, rfl⟩, context, all.sort, nonzero _, rfl⟩

/-! ### Admission -/

theorem ticketHashes_seats (verified : List VerifiedRandomXWorkTicketV1) :
    (verified.map (·.seat)).map (·.ticketHash) = verified.map (·.hash) :=
  List.map_map

theorem participants_seats (verified : List VerifiedRandomXWorkTicketV1) :
    (verified.map (·.seat)).map (·.participant) = verified.map (·.ticket.participant) :=
  List.map_map

/-- The seats of the open epoch after `verified` joined. -/
def joinedSeats (opened : WorkCommitV1) (verified : List VerifiedRandomXWorkTicketV1) : List WorkSeatV1 :=
  sortOn WorkSeatV1.orderKey (opened.seats ++
    sortOn WorkSeatV1.orderKey (verified.map VerifiedRandomXWorkTicketV1.seat))

theorem joinedSeats_perm (opened : WorkCommitV1) (verified : List VerifiedRandomXWorkTicketV1) :
    (joinedSeats opened verified).Perm
      (opened.seats ++ verified.map VerifiedRandomXWorkTicketV1.seat) :=
  sortOn_perm.trans (sortOn_perm.append_left opened.seats)

/-- `verified` joins the open epoch: tickets of that epoch, of participants without a seat. -/
structure Admits (seated : List WorkSeatV1) (opened : WorkCommitV1)
    (verified : List VerifiedRandomXWorkTicketV1) (commit : WorkCommitV1) : Prop where
  epochs : ∀ item ∈ verified, item.ticket.epoch.toNat = opened.epoch
  tickets : ∀ item ∈ verified, checkVerified item = .ok ()
  unseated : ∀ item ∈ verified, ∀ old ∈ seated, old.participant ≠ item.ticket.participant
  distinct : SeatSet (opened.seats ++ verified.map VerifiedRandomXWorkTicketV1.seat)
  joined : commit = { opened with seats := joinedSeats opened verified }

theorem Admits.seats {opened : WorkCommitV1} {verified : List VerifiedRandomXWorkTicketV1}
    (admits : Admits seated opened verified commit) :
    commit.seats.Perm (opened.seats ++ verified.map VerifiedRandomXWorkTicketV1.seat) := by
  rw [admits.joined]
  exact joinedSeats_perm opened verified

theorem Admits.context {opened : WorkCommitV1} {verified : List VerifiedRandomXWorkTicketV1}
    (admits : Admits seated opened verified commit) :
    commit.epoch = opened.epoch ∧ commit.anchor = opened.anchor ∧ commit.difficulty = opened.difficulty := by
  rw [admits.joined]
  exact ⟨rfl, rfl, rfl⟩

theorem admitSeats_ok_iff {opened : WorkCommitV1} {verified : List VerifiedRandomXWorkTicketV1} :
    admitSeats seated opened verified = .ok commit ↔ Admits seated opened verified commit := by
  unfold admitSeats
  simp only [bind_ok_iff, forM_ok_iff, ensure_ok_iff, exists_unit, canonicalWorkSeatsV1_ok_iff,
    canonicalWorkEpochSeatsV1_ok_iff, Except.ok.injEq]
  constructor
  · intro admitted
    obtain ⟨epochs, _, ⟨tickets, _, _, rfl⟩, unseated, _, ⟨set, rfl⟩, rfl⟩ := admitted
    refine ⟨epochs, tickets, fun item member => ?_, set.perm (sortOn_perm.append_left _), rfl⟩
    exact unseated item.seat (mem_sortOn.mpr (List.mem_map_of_mem member))
  · intro admits
    have apart := admits.distinct.of_append
    have set : SeatSet (opened.seats ++
        sortOn WorkSeatV1.orderKey (verified.map VerifiedRandomXWorkTicketV1.seat)) :=
      admits.distinct.perm (sortOn_perm.append_left opened.seats).symm
    have hashes := ticketHashes_seats verified ▸ apart.hashes
    have participants := participants_seats verified ▸ apart.participants
    refine ⟨admits.epochs, _, ⟨admits.tickets, hashes, participants, rfl⟩, fun seat member => ?_,
      _, ⟨set, rfl⟩, admits.joined.symm⟩
    obtain ⟨item, listed, rfl⟩ := List.mem_map.mp (mem_sortOn.mp member)
    exact admits.unseated item listed

/-! ### One block -/

/-- What a block leaves of the two parts. -/
inductive Advances (crypto : Crypto) (chainID blockNumber : Nat) (anchor : Hash)
    (commitDifficulty : Option Nat) (verified : List VerifiedRandomXWorkTicketV1)
    (snapshot : WorkChainSnapshotV1) : WorkChainSnapshotV1 → Prop
  | idle (early : workCommitTargetEpochV1 blockNumber snapshot.epochLength = .ok none)
      (empty : verified = []) (context : anchor = 0 ∧ commitDifficulty = none) :
      Advances crypto chainID blockNumber anchor commitDifficulty verified snapshot snapshot
  | commits {epoch difficulty : Nat} {opened commit : WorkCommitV1}
      (target : workCommitTargetEpochV1 blockNumber snapshot.epochLength = .ok (some epoch))
      (context : anchor ≠ 0 ∧ difficulty ≠ 0) (scheduled : commitDifficulty = some difficulty)
      (opens : openCommit epoch anchor difficulty snapshot.commit = .ok opened)
      (admits : Admits snapshot.selectionSeats opened verified commit)
      (within : blockNumber % snapshot.epochLength ≠ 0) :
      Advances crypto chainID blockNumber anchor commitDifficulty verified snapshot
        { snapshot with commit := some commit }
  | closes {epoch difficulty : Nat} {opened commit : WorkCommitV1} {selection : WorkEpochSnapshotV1}
      (target : workCommitTargetEpochV1 blockNumber snapshot.epochLength = .ok (some epoch))
      (context : anchor ≠ 0 ∧ difficulty ≠ 0) (scheduled : commitDifficulty = some difficulty)
      (opens : openCommit epoch anchor difficulty snapshot.commit = .ok opened)
      (admits : Admits snapshot.selectionSeats opened verified commit)
      (last : blockNumber % snapshot.epochLength = 0)
      (closed : closeEpoch crypto chainID snapshot.selectionSeats commit = .ok selection) :
      Advances crypto chainID blockNumber anchor commitDifficulty verified snapshot
        { snapshot with selection := some selection, commit := none }

variable {blockNumber : Nat} {blockHash parentHash anchor : Hash} {commitDifficulty : Option Nat}
  {verified : List VerifiedRandomXWorkTicketV1} {snapshot next : WorkChainSnapshotV1}

theorem commitBlock_ok_iff {epoch : Nat} :
    commitBlock crypto chainID blockNumber epoch anchor difficulty verified snapshot = .ok next ↔
      ∃ opened commit, openCommit epoch anchor difficulty snapshot.commit = .ok opened ∧
        Admits snapshot.selectionSeats opened verified commit ∧
        ((blockNumber % snapshot.epochLength = 0 ∧ ∃ selection,
          closeEpoch crypto chainID snapshot.selectionSeats commit = .ok selection ∧
          next = { snapshot with selection := some selection, commit := none }) ∨
        (blockNumber % snapshot.epochLength ≠ 0 ∧ next = { snapshot with commit := some commit })) := by
  unfold commitBlock
  simp only [bind_ok_iff, admitSeats_ok_iff, ← exists_and_left]
  refine exists_congr fun opened => exists_congr fun commit => and_congr_right fun _ =>
    and_congr_right fun _ => ?_
  by_cases last : blockNumber % snapshot.epochLength = 0
  · rw [if_pos last, bind_ok_iff]
    simp [last, eq_comm (a := next)]
  · rw [if_neg last]
    simp [last, eq_comm (a := next)]

theorem advance_ok_iff :
    snapshot.advance crypto chainID blockNumber anchor commitDifficulty verified = .ok next ↔
      Advances crypto chainID blockNumber anchor commitDifficulty verified snapshot next := by
  unfold advance
  constructor
  · intro h
    obtain ⟨target, targeted, h⟩ := bind_ok h
    cases target with
    | none =>
      simp only [ensure_bind_ok_iff, Except.ok.injEq] at h
      obtain ⟨empty, context, rfl⟩ := h
      exact .idle targeted empty context
    | some epoch =>
      cases commitDifficulty with
      | none => cases h
      | some difficulty =>
        obtain ⟨_, context, h⟩ := bind_ok h
        obtain ⟨opened, commit, opens, admits, ending⟩ := commitBlock_ok_iff.mp h
        have context := ensure_ok_iff.mp context
        rcases ending with ⟨last, selection, closed, rfl⟩ | ⟨within, rfl⟩
        · exact .closes targeted context rfl opens admits last closed
        · exact .commits targeted context rfl opens admits within
  · intro advances
    cases advances with
    | idle early empty context =>
      refine bind_ok_iff.mpr ⟨none, early, ?_⟩
      simp only [ensure_bind_ok_iff]
      exact ⟨empty, context, trivial⟩
    | commits target context scheduled opens admits within =>
      refine bind_ok_iff.mpr ⟨some _, target, ?_⟩
      rw [scheduled]
      exact ensure_bind_ok_iff.mpr ⟨context,
        commitBlock_ok_iff.mpr ⟨_, _, opens, admits, .inr ⟨within, rfl⟩⟩⟩
    | closes target context scheduled opens admits last closed =>
      refine bind_ok_iff.mpr ⟨some _, target, ?_⟩
      rw [scheduled]
      exact ensure_bind_ok_iff.mpr ⟨context,
        commitBlock_ok_iff.mpr ⟨_, _, opens, admits, .inl ⟨last, _, closed, rfl⟩⟩⟩

/-! ### Validity -/

theorem validateWorkEpochState_ok_iff {epoch : Nat} {seats : List WorkSeatV1} {u : Unit} :
    validateWorkEpochState epoch anchor difficulty seats = .ok u ↔
      (epoch ≠ 0 ∧ anchor ≠ 0 ∧ difficulty ≠ 0) ∧ SeatSet seats ∧
        sortOn WorkSeatV1.orderKey seats = seats := by
  unfold validateWorkEpochState
  simp only [bind_ok_iff, ensure_ok_iff, exists_unit, canonicalWorkEpochSeatsV1_ok_iff]
  refine and_congr_right fun _ => ⟨fun given => ?_, fun given => ⟨_, ⟨given.1, rfl⟩, given.2⟩⟩
  obtain ⟨_, ⟨set, rfl⟩, same⟩ := given
  exact ⟨set, same⟩

theorem Valid.selectionSeats (valid : snapshot.Valid crypto chainID) : SeatSet snapshot.selectionSeats := by
  have checked := valid.selection
  unfold WorkChainSnapshotV1.selectionSeats
  cases present : snapshot.selection with
  | none => exact ⟨by simp, by simp, by simp⟩
  | some selection =>
    rw [present] at checked
    obtain ⟨_, state, _⟩ := bind_ok checked
    exact (validateWorkEpochState_ok_iff.mp state).2.1

theorem openCommit_ok {epoch : Nat} {before : Option WorkCommitV1} {opened : WorkCommitV1}
    (h : openCommit epoch anchor difficulty before = .ok opened) :
    opened.epoch = epoch ∧ opened.anchor = anchor ∧ opened.difficulty = difficulty ∧
      opened.seats = (before.map (·.seats)).getD [] := by
  cases before with
  | none =>
    obtain rfl := Except.ok.inj h
    exact ⟨rfl, rfl, rfl, rfl⟩
  | some commit =>
    simp only [openCommit, ensure_bind_ok_iff, Except.ok.injEq] at h
    obtain ⟨sameEpoch, ⟨sameAnchor, sameDifficulty⟩, rfl⟩ := h
    exact ⟨sameEpoch, sameAnchor, sameDifficulty, rfl⟩

theorem workCommitTargetEpochV1_pos {epochLength epoch : Nat}
    (h : workCommitTargetEpochV1 blockNumber epochLength = .ok (some epoch)) : epoch ≠ 0 := by
  unfold workCommitTargetEpochV1 earlierWorkEpoch at h
  obtain ⟨current, _, h⟩ := bind_ok h
  have target := Except.ok.inj h
  split at target
  · cases target
  · obtain rfl := Option.some.inj target
    omega

theorem Admits.set {opened : WorkCommitV1} (admits : Admits seated opened verified commit) : SeatSet commit.seats :=
  admits.distinct.perm admits.seats.symm

theorem Advances.valid (advances : Advances crypto chainID blockNumber anchor commitDifficulty verified
    snapshot next) (valid : snapshot.Valid crypto chainID) : next.Valid crypto chainID := by
  cases advances with
  | idle => exact valid
  | @commits epoch difficulty opened commit target context _ opens admits within =>
    obtain ⟨sameEpoch, sameAnchor, sameDifficulty, _⟩ := openCommit_ok opens
    refine ⟨valid.fields, validateWorkEpochState_ok_iff.mpr ⟨?_, admits.set, ?_⟩, valid.selection⟩
    · rw [admits.joined, sameEpoch, sameAnchor, sameDifficulty]
      exact ⟨workCommitTargetEpochV1_pos target, context⟩
    · rw [admits.joined]
      exact sortOn_sortOn
  | @closes epoch difficulty opened commit selection target context _ opens admits last closed =>
    obtain ⟨sameEpoch, sameAnchor, sameDifficulty, _⟩ := openCommit_ok opens
    obtain ⟨set, rfl⟩ := closeEpoch_ok closed
    have fields : commit.epoch ≠ 0 ∧ commit.anchor ≠ 0 ∧ commit.difficulty ≠ 0 := by
      rw [admits.joined, sameEpoch, sameAnchor, sameDifficulty]
      exact ⟨workCommitTargetEpochV1_pos target, context⟩
    have persistent : SeatSet (sortOn WorkSeatV1.orderKey (persistentSeats snapshot.selectionSeats commit)) :=
      (set.perm (persistentSeats_perm _ _).symm).sort
    refine ⟨valid.fields, rfl, ?_⟩
    simp only [validateSelectionPart, bind_ok_iff, exists_unit, Prod.exists, ensure_ok_iff]
    refine ⟨validateWorkEpochState_ok_iff.mpr ⟨fields, persistent, sortOn_sortOn⟩, _, _,
      workEpochRootV1_ok_iff.mpr ⟨⟨valid.fields.1, fields⟩, persistent, rfl, rfl⟩, ?_⟩
    simp only [closedSelection, epochSnapshot, sortOn_sortOn]

structure Follows (snapshot : WorkChainSnapshotV1) (blockNumber : Nat) (blockHash parentHash : Hash) :
    Prop where
  room : snapshot.number ≠ maxUint64
  number : blockNumber = snapshot.number + 1
  parent : parentHash = snapshot.hash
  hash : blockHash ≠ 0

theorem applyVerifiedBlockV1_ok
    (h : snapshot.applyVerifiedBlockV1 crypto chainID blockNumber blockHash parentHash anchor
      commitDifficulty verified = .ok next) :
    snapshot.Follows blockNumber blockHash parentHash ∧
      Advances crypto chainID blockNumber anchor commitDifficulty verified
        { snapshot with number := blockNumber, hash := blockHash } next := by
  obtain ⟨_, _, h⟩ := bind_ok h
  obtain ⟨_, given, h⟩ := bind_ok h
  obtain ⟨moved, move, h⟩ := bind_ok h
  obtain ⟨_, _, h⟩ := bind_ok h
  obtain rfl := Except.ok.inj h
  obtain ⟨room, number, parent, hash⟩ := ensure_ok_iff.mp given
  exact ⟨⟨room, number, parent, hash⟩, advance_ok_iff.mp move⟩

theorem applyVerifiedBlockV1_of (nonzero : ∀ bytes, crypto.keccak256 bytes ≠ 0)
    (valid : snapshot.Valid crypto chainID) (follows : snapshot.Follows blockNumber blockHash parentHash)
    (advances : Advances crypto chainID blockNumber anchor commitDifficulty verified
      { snapshot with number := blockNumber, hash := blockHash } next) :
    snapshot.applyVerifiedBlockV1 crypto chainID blockNumber blockHash parentHash anchor
      commitDifficulty verified = .ok next := by
  obtain ⟨root, rooted⟩ := exists_root_iff.mpr (advances.valid (valid.move blockNumber follows.hash))
  unfold applyVerifiedBlockV1
  simp only [bind_ok_iff, exists_unit, validate_ok_iff nonzero, ensure_ok_iff, advance_ok_iff]
  exact ⟨valid, ⟨follows.room, follows.number, follows.parent, follows.hash⟩, next, advances, root, rooted, rfl⟩

end WorkChainSnapshotV1

/-! ### The runtime state -/

namespace CanonicalWorkRuntimeStateV1

variable {crypto : Crypto} {chainID blockNumber : Nat} {blockHash parentHash anchor : Hash}
  {verified : List VerifiedRandomXWorkTicketV1} {state next : CanonicalWorkRuntimeStateV1}

theorem root_valid {root : Hash} (h : canonicalWorkRuntimeStateRootV1 crypto chainID state = .ok root) :
    state.Valid crypto chainID := by
  obtain ⟨_, _, h⟩ := bind_ok h
  obtain ⟨_, work, h⟩ := bind_ok h
  obtain ⟨_, difficulty, _⟩ := bind_ok h
  obtain ⟨_, workRooted, _⟩ := bind_ok work
  obtain ⟨_, difficultyRooted, _⟩ := bind_ok difficulty
  exact ⟨WorkChainSnapshotV1.exists_root_iff.mp ⟨_, workRooted⟩,
    (workDifficultyStateRootV1_ok_iff.mp ⟨_, difficultyRooted⟩).2⟩

structure Step (crypto : Crypto) (chainID blockNumber : Nat) (blockHash parentHash anchor : Hash)
    (verified : List VerifiedRandomXWorkTicketV1) (state next : CanonicalWorkRuntimeStateV1) : Prop where
  valid : state.Valid crypto chainID
  follows : state.work.Follows blockNumber blockHash parentHash
  advances : ∃ difficulty, state.commitDifficultyV1 crypto chainID blockNumber = .ok difficulty ∧
    WorkChainSnapshotV1.Advances crypto chainID blockNumber anchor difficulty verified
      { state.work with number := blockNumber, hash := blockHash } next.work
  retargets : state.nextDifficulty crypto chainID next.work = .ok next.difficulty
  nextValid : next.Valid crypto chainID

theorem applyVerifiedBlockV1_step
    (h : state.applyVerifiedBlockV1 crypto chainID blockNumber blockHash parentHash anchor verified =
      .ok next) : Step crypto chainID blockNumber blockHash parentHash anchor verified state next := by
  obtain ⟨_, validated, h⟩ := bind_ok h
  obtain ⟨difficulty, scheduled, h⟩ := bind_ok h
  obtain ⟨nextWork, applied, h⟩ := bind_ok h
  obtain ⟨_, retargets, h⟩ := bind_ok h
  obtain ⟨_, rooted, h⟩ := bind_ok h
  obtain rfl := Except.ok.inj h
  obtain ⟨_, before, _⟩ := bind_ok validated
  obtain ⟨follows, advances⟩ := WorkChainSnapshotV1.applyVerifiedBlockV1_ok applied
  exact ⟨root_valid before, follows, ⟨difficulty, scheduled, advances⟩, retargets, root_valid rooted⟩

theorem applyVerifiedBlockV1_ok_iff (nonzero : ∀ bytes, crypto.keccak256 bytes ≠ 0) :
    state.applyVerifiedBlockV1 crypto chainID blockNumber blockHash parentHash anchor verified = .ok next ↔
      Step crypto chainID blockNumber blockHash parentHash anchor verified state next := by
  refine ⟨applyVerifiedBlockV1_step, fun step => ?_⟩
  obtain ⟨difficulty, scheduled, advances⟩ := step.advances
  obtain ⟨root, rooted⟩ := (exists_root_iff nonzero).mpr step.nextValid
  unfold applyVerifiedBlockV1
  simp only [bind_ok_iff, exists_unit, validate_ok_iff nonzero]
  exact ⟨step.valid, difficulty, scheduled, next.work,
    WorkChainSnapshotV1.applyVerifiedBlockV1_of nonzero step.valid.work step.follows advances,
    next.difficulty, step.retargets, root, rooted, rfl⟩

/-! ### Runs -/

/-- The arguments of one call of `applyVerifiedBlockV1`. -/
structure Block where
  number : Nat
  hash : Hash
  parentHash : Hash
  anchor : Hash
  verified : List VerifiedRandomXWorkTicketV1

def applyBlocks (crypto : Crypto) (chainID : Nat) :
    List Block → CanonicalWorkRuntimeStateV1 → Except LqcError CanonicalWorkRuntimeStateV1
  | [], state => .ok state
  | block :: rest, state => do
    let next ← state.applyVerifiedBlockV1 crypto chainID block.number block.hash block.parentHash
      block.anchor block.verified
    applyBlocks crypto chainID rest next

def broughtTickets (blocks : List Block) : List VerifiedRandomXWorkTicketV1 := blocks.flatMap (·.verified)

end CanonicalWorkRuntimeStateV1

end RabbitLqc
