import RabbitLqc.Work.Proof

/-!
# Work epochs

Tickets mined in one epoch are committed in the next and elect producers in the one after. A
closed epoch is the canonical list of its seats.
-/

namespace RabbitLqc
open Lib RlpCodec

def workProtocolEpochLengthV1 : Nat := 128

/-! ### Schedule -/

def workEpochForBlockV1 (blockNumber epochLength : Nat) : Except LqcError Nat := do
  ensure (blockNumber ≠ 0 ∧ epochLength ≠ 0) .invalidWorkEpochLengthV1
  .ok ((blockNumber - 1) / epochLength + 1)

def workEpochStartBlockV1 (epoch epochLength : Nat) : Except LqcError Nat := do
  ensure (epoch ≠ 0 ∧ epochLength ≠ 0) .invalidWorkEpochLengthV1
  ensure (epoch - 1 ≤ (maxUint64 - 1) / epochLength) .invalidWorkEpochLengthV1
  .ok ((epoch - 1) * epochLength + 1)

/-- An epoch `delay` epochs before the one of the block, when there is one. -/
def earlierWorkEpoch (delay blockNumber epochLength : Nat) : Except LqcError (Option Nat) := do
  let current ← workEpochForBlockV1 blockNumber epochLength
  .ok (if current ≤ delay then none else some (current - delay))

def workCommitTargetEpochV1 : Nat → Nat → Except LqcError (Option Nat) := earlierWorkEpoch 1

def workSelectionSourceEpochV1 : Nat → Nat → Except LqcError (Option Nat) := earlierWorkEpoch 2

/-- Both anchors lie at the end of an earlier epoch, except that the first epochs share one. -/
def anchorBlock (delay first epoch epochLength : Nat) : Except LqcError Nat := do
  ensure (epoch ≠ 0 ∧ epochLength ≠ 0) .invalidWorkAnchorScheduleV1
  if epoch ≤ delay then .ok first
  else do
    ensure (epoch - delay ≤ maxUint64 / epochLength) .invalidWorkAnchorScheduleV1
    .ok ((epoch - delay) * epochLength)

def workDatasetAnchorBlockV1 : Nat → Nat → Except LqcError Nat := anchorBlock 2 0

def workChallengeAnchorBlockV1 : Nat → Nat → Except LqcError Nat := anchorBlock 1 1

/-! ### Seats -/

structure WorkSeatV1 where
  ticketHash : Hash
  participant : Address
  deriving DecidableEq, Repr

def WorkSeatV1.item (seat : WorkSeatV1) : Rlp.Item :=
  .list [toItem seat.ticketHash, toItem seat.participant]

def seatItems (seats : List WorkSeatV1) : Rlp.Item := .list (seats.map WorkSeatV1.item)

def WorkSeatV1.orderKey (seat : WorkSeatV1) : Nat :=
  seat.ticketHash.toNat * 2 ^ 160 + seat.participant.toNat

/-- Each item in turn: its own check, then that its seat repeats neither the proof nor the
participant of an earlier one. -/
def checkDistinctSeats {α : Type} (seat : α → WorkSeatV1) (check : α → Except LqcError Unit) :
    List WorkSeatV1 → List α → Except LqcError Unit
  | _, [] => .ok ()
  | seen, item :: rest => do
    check item
    ensure (∀ earlier ∈ seen, earlier.ticketHash ≠ (seat item).ticketHash) .duplicateRandomXWorkHash
    ensure (∀ earlier ∈ seen, earlier.participant ≠ (seat item).participant)
      .duplicateWorkParticipantV1
    checkDistinctSeats seat check (seat item :: seen) rest

def checkSeat (seat : WorkSeatV1) : Except LqcError Unit :=
  ensure (seat.ticketHash ≠ 0 ∧ seat.participant ≠ 0) .invalidWorkSeat

def canonicalWorkEpochSeatsV1 (input : List WorkSeatV1) : Except LqcError (List WorkSeatV1) := do
  checkDistinctSeats id checkSeat [] input
  .ok (sortOn WorkSeatV1.orderKey input)

def VerifiedRandomXWorkTicketV1.seat (item : VerifiedRandomXWorkTicketV1) : WorkSeatV1 :=
  ⟨item.hash, item.ticket.participant⟩

def checkVerified (item : VerifiedRandomXWorkTicketV1) : Except LqcError Unit := do
  validateRandomXWorkTicketV1 item.ticket
  ensure (item.hash ≠ 0) .invalidRandomXWorkTicket

def canonicalWorkSeatsV1 (verified : List VerifiedRandomXWorkTicketV1) :
    Except LqcError (List WorkSeatV1) := do
  checkDistinctSeats VerifiedRandomXWorkTicketV1.seat checkVerified [] verified
  .ok (sortOn WorkSeatV1.orderKey (verified.map VerifiedRandomXWorkTicketV1.seat))

theorem checkDistinctSeats_ok_iff {α : Type} {seat : α → WorkSeatV1}
    {check : α → Except LqcError Unit} {seen : List WorkSeatV1} {input : List α} {u : Unit} :
    checkDistinctSeats seat check seen input = .ok u ↔
      (∀ item ∈ input, check item = .ok ()) ∧
      (input.map fun item => (seat item).ticketHash).Nodup ∧
      (input.map fun item => (seat item).participant).Nodup ∧
      ∀ earlier ∈ seen, ∀ item ∈ input, earlier.ticketHash ≠ (seat item).ticketHash ∧
        earlier.participant ≠ (seat item).participant := by
  induction input generalizing seen with
  | nil => simp [checkDistinctSeats]
  | cons item rest ih =>
    simp only [checkDistinctSeats, bind_ok_iff, ensure_ok_iff, exists_unit, ih, List.forall_mem_cons,
      List.map_cons, List.nodup_cons, List.mem_map, not_exists, not_and]
    constructor
    · intro given
      obtain ⟨own, hash, participant, checks, hashes, participants, apart, others⟩ := given
      refine ⟨⟨own, checks⟩, ⟨fun other member same => (apart other member).1 same.symm, hashes⟩,
        ⟨fun other member same => (apart other member).2 same.symm, participants⟩, ?_⟩
      exact fun earlier member =>
        ⟨⟨hash earlier member, participant earlier member⟩, others earlier member⟩
    · intro given
      obtain ⟨⟨own, checks⟩, ⟨freshHash, hashes⟩, ⟨fresh, participants⟩, others⟩ := given
      exact ⟨own, fun earlier member => (others earlier member).1.1,
        fun earlier member => (others earlier member).1.2, checks, hashes, participants,
        fun other member => ⟨fun same => freshHash other member same.symm,
          fun same => fresh other member same.symm⟩,
        fun earlier member => (others earlier member).2⟩

/-- Distinct seats of distinct participants, none of them zero. -/
structure SeatSet (seats : List WorkSeatV1) : Prop where
  nonzero : ∀ seat ∈ seats, seat.ticketHash ≠ 0 ∧ seat.participant ≠ 0
  hashes : (seats.map (·.ticketHash)).Nodup
  participants : (seats.map (·.participant)).Nodup

theorem SeatSet.perm {left right : List WorkSeatV1} (set : SeatSet left) (perm : left.Perm right) :
    SeatSet right :=
  ⟨fun seat member => set.nonzero seat (perm.mem_iff.mpr member), (perm.map _).nodup_iff.mp set.hashes,
    (perm.map _).nodup_iff.mp set.participants⟩

theorem canonicalWorkEpochSeatsV1_ok_iff {input canonical : List WorkSeatV1} :
    canonicalWorkEpochSeatsV1 input = .ok canonical ↔
      SeatSet input ∧ canonical = sortOn WorkSeatV1.orderKey input := by
  simp only [canonicalWorkEpochSeatsV1, bind_ok_iff, exists_unit, checkDistinctSeats_ok_iff, checkSeat,
    ensure_ok_iff, Except.ok.injEq, eq_comm (a := canonical), id_eq]
  constructor
  · intro checks
    obtain ⟨⟨nonzero, hashes, participants, _⟩, same⟩ := checks
    exact ⟨⟨nonzero, hashes, participants⟩, same⟩
  · intro listed
    obtain ⟨set, same⟩ := listed
    exact ⟨⟨set.nonzero, set.hashes, set.participants, by simp⟩, same⟩

theorem canonicalWorkSeatsV1_ok_iff {verified : List VerifiedRandomXWorkTicketV1}
    {seats : List WorkSeatV1} :
    canonicalWorkSeatsV1 verified = .ok seats ↔
      (∀ item ∈ verified, checkVerified item = .ok ()) ∧
      (verified.map (·.hash)).Nodup ∧ (verified.map (·.ticket.participant)).Nodup ∧
      seats = sortOn WorkSeatV1.orderKey (verified.map VerifiedRandomXWorkTicketV1.seat) := by
  simp only [canonicalWorkSeatsV1, bind_ok_iff, exists_unit, checkDistinctSeats_ok_iff,
    Except.ok.injEq, eq_comm (a := seats)]
  constructor
  · intro accepted
    obtain ⟨⟨checks, hashes, participants, _⟩, same⟩ := accepted
    exact ⟨checks, hashes, participants, same⟩
  · intro listed
    obtain ⟨checks, hashes, participants, same⟩ := listed
    exact ⟨⟨checks, hashes, participants, by simp⟩, same⟩

/-! ### Closed epochs -/

def workEpochRootV1 (crypto : Crypto) (chainID epoch : Nat) (anchor : Hash) (difficulty : Nat)
    (seats : List WorkSeatV1) : Except LqcError (Hash × List WorkSeatV1) := do
  ensure (chainID ≠ 0 ∧ epoch ≠ 0 ∧ anchor ≠ 0 ∧ difficulty ≠ 0) .invalidWorkEpochV1
  let canonical ← canonicalWorkEpochSeatsV1 seats
  let root := crypto.keccak256 <| Rlp.encode <| .list [textItem "RABBIT-LQC-WORK-EPOCH-ROOT-V1",
    toItem randomXWorkProtocolVersion, natItem chainID, natItem epoch, toItem anchor,
    natItem difficulty, seatItems canonical]
  .ok (root, canonical)

structure WorkEpochSnapshotV1 where
  epoch : Nat
  anchor : Hash
  difficulty : Nat
  root : Hash
  seats : List WorkSeatV1
  deriving DecidableEq, Repr

def newWorkEpochSnapshotV1 (crypto : Crypto) (chainID epoch : Nat) (anchor : Hash)
    (difficulty : Nat) (seats : List WorkSeatV1) : Except LqcError WorkEpochSnapshotV1 := do
  let (root, canonical) ← workEpochRootV1 crypto chainID epoch anchor difficulty seats
  ensure (root ≠ 0) .invalidWorkEpochRootV1
  .ok ⟨epoch, anchor, difficulty, root, canonical⟩

def WorkEpochSnapshotV1.validate (crypto : Crypto) (chainID : Nat) (snapshot : WorkEpochSnapshotV1) :
    Except LqcError Unit := do
  ensure (snapshot.epoch ≠ 0 ∧ snapshot.anchor ≠ 0 ∧ snapshot.difficulty ≠ 0 ∧ snapshot.root ≠ 0)
    .invalidWorkEpochV1
  let (root, canonical) ← workEpochRootV1 crypto chainID snapshot.epoch snapshot.anchor
    snapshot.difficulty snapshot.seats
  ensure (root = snapshot.root ∧ canonical = snapshot.seats) .invalidWorkEpochRootV1

end RabbitLqc
