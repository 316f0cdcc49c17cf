import RabbitLqc.Work.Epoch

/-!
# Seat selection

A closed epoch and the block number fix a seed, and the seed an order of the seats. Roles are
taken from that order: a producer, its fallbacks, then the committee.
-/

namespace RabbitLqc
open Lib RlpCodec

variable {crypto : Crypto} {input : List WorkSeatV1} {seed : Hash}

/-! ### Seed -/

/-- The one RandomX input of a closed epoch; nobody chooses a nonce in it. -/
def workSelectionBeaconInputV1 (chainID sourceEpoch : Nat) (selectionRoot datasetKey : Hash) :
    Except LqcError Bytes := do
  ensure (chainID ≠ 0 ∧ sourceEpoch ≠ 0 ∧ selectionRoot ≠ 0 ∧ datasetKey ≠ 0)
    .invalidWorkSelectionBeaconV1
  .ok <| Rlp.encode <| .list [textItem "RABBIT-LQC-WORK-SELECTION-BEACON-V1",
    toItem randomXWorkProtocolVersion, natItem chainID, natItem sourceEpoch, toItem selectionRoot,
    toItem datasetKey]

def deriveWorkSelectionEntropyV1 (crypto : Crypto) (chainID sourceEpoch : Nat)
    (selectionRoot datasetKey : Hash) : Except LqcError Hash := do
  let input ← workSelectionBeaconInputV1 chainID sourceEpoch selectionRoot datasetKey
  match crypto.randomX datasetKey input with
  | none => .error .randomXUnavailable
  | some entropy => do
    ensure (entropy ≠ 0) .invalidWorkSelectionBeaconV1
    .ok entropy

def workSelectionSeedV1 (crypto : Crypto) (chainID sourceEpoch : Nat) (selectionRoot entropy : Hash)
    (blockNumber : Nat) : Except LqcError Hash := do
  ensure (chainID ≠ 0 ∧ sourceEpoch ≠ 0 ∧ selectionRoot ≠ 0 ∧ entropy ≠ 0 ∧ blockNumber ≠ 0)
    .invalidWorkSelectionEntropyV1
  .ok <| crypto.keccak256 <| Rlp.encode <| .list [textItem "RABBIT-LQC-WORK-SELECTION-SEED-V1",
    toItem randomXWorkProtocolVersion, natItem chainID, natItem sourceEpoch, toItem selectionRoot,
    toItem entropy, natItem blockNumber]

def deterministicWorkSelectionSeedV1 (crypto : Crypto) (chainID sourceEpoch : Nat)
    (selectionRoot datasetKey : Hash) (blockNumber : Nat) : Except LqcError (Hash × Hash) := do
  let entropy ← deriveWorkSelectionEntropyV1 crypto chainID sourceEpoch selectionRoot datasetKey
  let seed ← workSelectionSeedV1 crypto chainID sourceEpoch selectionRoot entropy blockNumber
  .ok (entropy, seed)

/-! ### Order -/

/-- By score under the seed, then by ticket hash, then by participant: all in one number. -/
def WorkSeatV1.scoreKey (crypto : Crypto) (seed : Hash) (seat : WorkSeatV1) : Nat :=
  (crypto.keccak256 (fixedBytes 32 seed.toNat ++ fixedBytes 32 seat.ticketHash.toNat)).toNat *
    2 ^ 416 + seat.orderKey

def deterministicallyOrderWorkSeatsV1 (crypto : Crypto) (input : List WorkSeatV1)
    (selectionSeed : Hash) : Except LqcError (List WorkSeatV1) := do
  ensure (selectionSeed ≠ 0) .invalidWorkSelectionV1
  checkDistinctSeats id checkSeat [] input
  .ok (sortOn (WorkSeatV1.scoreKey crypto selectionSeed) input)

theorem deterministicallyOrderWorkSeatsV1_ok_iff {ordered : List WorkSeatV1} :
    deterministicallyOrderWorkSeatsV1 crypto input seed = .ok ordered ↔
      seed ≠ 0 ∧ SeatSet input ∧ ordered = sortOn (WorkSeatV1.scoreKey crypto seed) input := by
  simp only [deterministicallyOrderWorkSeatsV1, bind_ok_iff, ensure_ok_iff, exists_unit,
    checkDistinctSeats_ok_iff, checkSeat, id_eq, Except.ok.injEq, eq_comm (a := ordered)]
  refine and_congr_right fun _ => ?_
  constructor
  · intro checks
    obtain ⟨⟨nonzero, hashes, participants, _⟩, same⟩ := checks
    exact ⟨⟨nonzero, hashes, participants⟩, same⟩
  · intro listed
    obtain ⟨set, same⟩ := listed
    exact ⟨⟨set.nonzero, set.hashes, set.participants, by simp⟩, same⟩

/-! ### Roles -/

structure WorkSelectionV1 where
  ordered : List WorkSeatV1 := []
  fallbacks : List WorkSeatV1 := []
  committee : List WorkSeatV1 := []
  deriving DecidableEq, Repr

def buildWorkSelectionFromOrderedSeatsV1 (ordered : List WorkSeatV1) (fallbackCount committeeSize : Nat) :
    WorkSelectionV1 :=
  let fallbackEnd := if fallbackCount < ordered.length - 1 then 1 + fallbackCount else ordered.length
  { ordered
    fallbacks := (ordered.take fallbackEnd).drop 1
    committee := (ordered.drop fallbackEnd).take committeeSize }

section Roles

variable (ordered : List WorkSeatV1) (fallbackCount committeeSize : Nat)

theorem buildWorkSelection_committee_sublist :
    (buildWorkSelectionFromOrderedSeatsV1 ordered fallbackCount committeeSize).committee.Sublist
      ordered :=
  (List.take_sublist _ _).trans (List.drop_sublist _ _)

theorem buildWorkSelection_fallbacks_sublist :
    (buildWorkSelectionFromOrderedSeatsV1 ordered fallbackCount committeeSize).fallbacks.Sublist
      ordered :=
  (List.drop_sublist _ _).trans (List.take_sublist _ _)

end Roles

end RabbitLqc
