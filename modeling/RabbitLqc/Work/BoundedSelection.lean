import RabbitLqc.Lib.Heap
import RabbitLqc.Work.Selection

/-!
# Selecting seats without sorting them all

A block needs few of the seats. They are selected with two bounded heaps, one for the preferred seats
and one for the others, each with the worst seat kept at its root; only what is left at the end is
sorted. The outcome is a first part of the full order.
-/

namespace RabbitLqc
open Lib

/-! ### Comparing seats -/

def WorkSeatV1.score (crypto : Crypto) (seed : Hash) (seat : WorkSeatV1) : Hash :=
  crypto.keccak256 (fixedBytes 32 seed.toNat ++ fixedBytes 32 seat.ticketHash.toNat)

def compareScoredWorkSeatsV1 (crypto : Crypto) (seed : Hash) (left right : WorkSeatV1) : Ordering :=
  (compare (left.score crypto seed).toNat (right.score crypto seed).toNat).then <|
    (compare left.ticketHash.toNat right.ticketHash.toNat).then <|
      compare left.participant.toNat right.participant.toNat

section Keys

variable {crypto : Crypto} {seed : Hash} {left right : WorkSeatV1}

theorem WorkSeatV1.orderKey_lt (seat : WorkSeatV1) : seat.orderKey < 2 ^ 416 := by
  have hash := Nat.mul_le_mul_right (2 ^ 160) (Nat.succ_le_of_lt seat.ticketHash.isLt)
  have participant := seat.participant.isLt
  rw [Nat.succ_mul] at hash
  rw [show 416 = 256 + 160 from rfl, pow_add]
  exact Nat.lt_of_lt_of_le (Nat.add_lt_add_left participant _) hash

theorem compareScoredWorkSeatsV1_eq :
    compareScoredWorkSeatsV1 crypto seed left right =
      compare (left.scoreKey crypto seed) (right.scoreKey crypto seed) := by
  unfold WorkSeatV1.scoreKey
  rw [compare_digits left.orderKey_lt right.orderKey_lt]
  unfold WorkSeatV1.orderKey
  rw [compare_digits left.participant.isLt right.participant.isLt]
  rfl

theorem WorkSeatV1.scoreKey_injective : Function.Injective (WorkSeatV1.scoreKey crypto seed) := by
  intro left right same
  have alike : compareScoredWorkSeatsV1 crypto seed left right = .eq := by
    rw [compareScoredWorkSeatsV1_eq, same]
    exact Nat.compare_eq_eq.mpr rfl
  unfold compareScoredWorkSeatsV1 at alike
  rw [Ordering.then_eq_eq, Ordering.then_eq_eq] at alike
  obtain ⟨_, hash, participant⟩ := alike
  calc left = ⟨left.ticketHash, left.participant⟩ := rfl
    _ = ⟨right.ticketHash, right.participant⟩ := by
      rw [BitVec.eq_of_toNat_eq (Nat.compare_eq_eq.mp hash), BitVec.eq_of_toNat_eq (Nat.compare_eq_eq.mp participant)]
    _ = right := rfl

end Keys

/-! ### The heaps -/

def prefers (preferred : Option (WorkSeatV1 → Bool)) (seat : WorkSeatV1) : Bool :=
  match preferred with
  | none => true
  | some prefer => prefer seat

section Selecting

variable (crypto : Crypto) (selectionSeed : Hash) (limit : Nat) (preferred : Option (WorkSeatV1 → Bool))

def offerToGroup (heaps : Array WorkSeatV1 × Array WorkSeatV1) (seat : WorkSeatV1) :
    Array WorkSeatV1 × Array WorkSeatV1 :=
  let keep := Heap.keep (WorkSeatV1.scoreKey crypto selectionSeed) limit
  if prefers preferred seat then (keep heaps.1 seat, heaps.2) else (heaps.1, keep heaps.2 seat)

def offerSeat (heaps : Array WorkSeatV1 × Array WorkSeatV1) (seat : WorkSeatV1) :
    Except LqcError (Array WorkSeatV1 × Array WorkSeatV1) := do
  checkSeat seat
  .ok (offerToGroup crypto selectionSeed limit preferred heaps seat)

variable {crypto selectionSeed limit preferred} {input : List WorkSeatV1}

theorem foldl_offerToGroup (heaps : Array WorkSeatV1 × Array WorkSeatV1) :
    input.foldl (offerToGroup crypto selectionSeed limit preferred) heaps =
      ((input.filter (prefers preferred)).foldl (Heap.keep (WorkSeatV1.scoreKey crypto selectionSeed) limit) heaps.1,
        (input.filter (!prefers preferred ·)).foldl (Heap.keep (WorkSeatV1.scoreKey crypto selectionSeed) limit)
          heaps.2) := by
  induction input generalizing heaps with
  | nil => rfl
  | cons seat rest ih =>
    rw [List.foldl_cons, ih]
    unfold offerToGroup
    cases prefer : prefers preferred seat with
    | true => simp [prefer]
    | false => simp [prefer]

end Selecting

/-- Preferred seats come first, each group in score order. -/
def deterministicallySelectWorkSeatsV1 (crypto : Crypto) (input : List WorkSeatV1) (selectionSeed : Hash) (limit : Nat)
    (preferred : Option (WorkSeatV1 → Bool)) : Except LqcError (List WorkSeatV1) := do
  ensure (selectionSeed ≠ 0) .invalidWorkSelectionV1
  if input = [] ∨ limit = 0 then .ok []
  else do
    let limit := min limit input.length
    let heaps ← input.foldlM (offerSeat crypto selectionSeed limit preferred) (#[], #[])
    let primary := sortOn (WorkSeatV1.scoreKey crypto selectionSeed) heaps.1.toList
    let secondary := sortOn (WorkSeatV1.scoreKey crypto selectionSeed) heaps.2.toList
    -- the second group fills what the first leaves
    .ok (primary ++ secondary.take (limit - primary.length))

def preferredFirst (preferred : Option (WorkSeatV1 → Bool)) (ordered : List WorkSeatV1) : List WorkSeatV1 :=
  ordered.filter (prefers preferred) ++ ordered.filter (!prefers preferred ·)

theorem length_preferredFirst (preferred : Option (WorkSeatV1 → Bool)) (ordered : List WorkSeatV1) :
    (preferredFirst preferred ordered).length = ordered.length := by
  unfold preferredFirst
  rw [List.length_append, ← List.length_eq_length_filter_add]

section Outcome

variable {crypto : Crypto} {selectionSeed : Hash} {limit : Nat} {preferred : Option (WorkSeatV1 → Bool)}
  {input : List WorkSeatV1}

theorem joined_groups (best : List WorkSeatV1 → List WorkSeatV1)
    (finds : ∀ group, best group = (sortOn (WorkSeatV1.scoreKey crypto selectionSeed) group).take
      (min limit input.length)) :
    best (input.filter (prefers preferred)) ++ (best (input.filter (!prefers preferred ·))).take
        (min limit input.length - (best (input.filter (prefers preferred))).length) =
      (preferredFirst preferred (sortOn (WorkSeatV1.scoreKey crypto selectionSeed) input)).take limit := by
  rw [finds, finds, take_append_take, sortOn_filter WorkSeatV1.scoreKey_injective,
    sortOn_filter WorkSeatV1.scoreKey_injective]
  have whole := length_preferredFirst preferred (sortOn (WorkSeatV1.scoreKey crypto selectionSeed) input)
  rw [length_sortOn] at whole
  show (preferredFirst preferred _).take _ = _
  rw [← whole, ← List.take_take, List.take_length]

theorem deterministicallySelectWorkSeatsV1_eq :
    deterministicallySelectWorkSeatsV1 crypto input selectionSeed limit preferred =
      (ensure (selectionSeed ≠ 0) LqcError.invalidWorkSelectionV1 >>= fun _ =>
        if input = [] ∨ limit = 0 then .ok []
        else input.forM checkSeat >>= fun _ =>
          .ok ((preferredFirst preferred (sortOn (WorkSeatV1.scoreKey crypto selectionSeed) input)).take limit)) := by
  unfold deterministicallySelectWorkSeatsV1
  congr 1
  funext _
  split
  · rfl
  · next neither =>
    obtain ⟨some, room⟩ := not_or.mp neither
    have bound : min limit input.length ≠ 0 := by
      have := List.length_pos_iff.mpr some
      omega
    show (input.foldlM (fun heaps seat => checkSeat seat >>= fun _ =>
      .ok (offerToGroup crypto selectionSeed (min limit input.length) preferred heaps seat)) (#[], #[]) >>= _) = _
    rw [foldlM_checked, foldl_offerToGroup]
    cases input.forM checkSeat with
    | error error => rfl
    | ok u =>
      exact congrArg Except.ok (joined_groups
        (fun group => sortOn _ (group.foldl (Heap.keep _ (min limit input.length)) #[]).toList)
        (Heap.sortOn_foldl_keep WorkSeatV1.scoreKey_injective bound))

theorem deterministicallySelectWorkSeatsV1_ok {selected : List WorkSeatV1}
    (h : deterministicallySelectWorkSeatsV1 crypto input selectionSeed limit preferred = .ok selected) :
    selected = (preferredFirst preferred (sortOn (WorkSeatV1.scoreKey crypto selectionSeed) input)).take limit := by
  rw [deterministicallySelectWorkSeatsV1_eq] at h
  obtain ⟨_, _, h⟩ := bind_ok h
  split at h
  · next either =>
    obtain rfl := Except.ok.inj h
    rcases either with rfl | rfl
    · rw [sortOn_nil]
      exact List.take_nil.symm
    · rw [List.take_zero]
  · obtain ⟨_, _, h⟩ := bind_ok h
    exact (Except.ok.inj h).symm

theorem deterministicallySelectWorkSeatsV1_subperm {selected : List WorkSeatV1}
    (h : deterministicallySelectWorkSeatsV1 crypto input selectionSeed limit preferred = .ok selected) :
    selected.Subperm input := by
  rw [deterministicallySelectWorkSeatsV1_ok h]
  exact (List.take_sublist _ _).subperm.trans ((List.filter_append_perm _ _).trans sortOn_perm).subperm

theorem deterministicallySelectWorkSeatsV1_length_le {selected : List WorkSeatV1}
    (h : deterministicallySelectWorkSeatsV1 crypto input selectionSeed limit preferred = .ok selected) :
    selected.length ≤ limit := by
  rw [deterministicallySelectWorkSeatsV1_ok h]
  exact List.length_take_le _ _

theorem deterministicallySelectWorkSeatsV1_eq_nil_iff {selected : List WorkSeatV1} (room : limit ≠ 0)
    (h : deterministicallySelectWorkSeatsV1 crypto input selectionSeed limit preferred = .ok selected) :
    selected = [] ↔ input = [] := by
  have whole := length_preferredFirst preferred (sortOn (WorkSeatV1.scoreKey crypto selectionSeed) input)
  rw [length_sortOn] at whole
  rw [deterministicallySelectWorkSeatsV1_ok h, List.take_eq_nil_iff, or_iff_right room, ← List.length_eq_zero_iff,
    whole, List.length_eq_zero_iff]

theorem SeatSet.select_eq (set : SeatSet input) (seeded : selectionSeed ≠ 0) :
    deterministicallySelectWorkSeatsV1 crypto input selectionSeed limit preferred =
      .ok ((preferredFirst preferred (sortOn (WorkSeatV1.scoreKey crypto selectionSeed) input)).take limit) := by
  have valid : input.forM checkSeat = .ok () :=
    forM_ok_iff.mpr fun seat member => ensure_ok_iff.mpr (set.nonzero seat member)
  have succeeds : ∃ selected, deterministicallySelectWorkSeatsV1 crypto input selectionSeed limit preferred =
      .ok selected := by
    have passes : ensure (selectionSeed ≠ 0) LqcError.invalidWorkSelectionV1 = .ok () := ensure_ok_iff.mpr seeded
    rw [deterministicallySelectWorkSeatsV1_eq, valid, passes]
    by_cases either : input = [] ∨ limit = 0
    · exact ⟨_, if_pos either⟩
    · exact ⟨_, if_neg either⟩
  obtain ⟨selected, selects⟩ := succeeds
  rw [selects, deterministicallySelectWorkSeatsV1_ok selects]

theorem preferredFirst_none (ordered : List WorkSeatV1) : preferredFirst none ordered = ordered := by
  unfold preferredFirst prefers
  simp

/-- For every set of seats in any order, the heaps select the first seats of the full order, preferred ones
moved before the others with both groups in order. Without a preference it is a first part of the full order,
and the order of the input makes no difference. -/
theorem bounded_selection (crypto : Crypto) (input : List WorkSeatV1) (set : SeatSet input) (selectionSeed : Hash)
    (limit : Nat) (preferred : Option (WorkSeatV1 → Bool)) :
    (selectionSeed = 0 →
      deterministicallySelectWorkSeatsV1 crypto input selectionSeed limit preferred = .error .invalidWorkSelectionV1 ∧
        deterministicallyOrderWorkSeatsV1 crypto input selectionSeed = .error .invalidWorkSelectionV1) ∧
    (selectionSeed ≠ 0 → ∃ ordered, deterministicallyOrderWorkSeatsV1 crypto input selectionSeed = .ok ordered ∧
      deterministicallySelectWorkSeatsV1 crypto input selectionSeed limit preferred =
        .ok ((ordered.filter (prefers preferred) ++ ordered.filter (!prefers preferred ·)).take limit) ∧
      deterministicallySelectWorkSeatsV1 crypto input selectionSeed limit none = .ok (ordered.take limit)) ∧
    (∀ other, other.Perm input → deterministicallySelectWorkSeatsV1 crypto other selectionSeed limit preferred =
      deterministicallySelectWorkSeatsV1 crypto input selectionSeed limit preferred) := by
  refine ⟨?_, ?_, ?_⟩
  · rintro rfl
    exact ⟨deterministicallySelectWorkSeatsV1_eq, rfl⟩
  · intro seeded
    refine ⟨_, deterministicallyOrderWorkSeatsV1_ok_iff.mpr ⟨seeded, set, rfl⟩, set.select_eq seeded, ?_⟩
    rw [set.select_eq seeded, preferredFirst_none]
  · intro other perm
    by_cases seeded : selectionSeed = 0
    · subst seeded
      rw [deterministicallySelectWorkSeatsV1_eq, deterministicallySelectWorkSeatsV1_eq]
      rfl
    · have distinct : (other.map (WorkSeatV1.scoreKey crypto selectionSeed)).Nodup :=
        ((set.perm perm.symm).hashes.of_map _).map WorkSeatV1.scoreKey_injective
      rw [(set.perm perm.symm).select_eq seeded, set.select_eq seeded,
        sortOn_eq_of_perm perm distinct]

theorem bounded_selection_three :
    SeatSet [⟨1, 1⟩, ⟨2, 2⟩, ⟨3, 3⟩] ∧
      deterministicallyOrderWorkSeatsV1 plainCrypto [⟨1, 1⟩, ⟨2, 2⟩, ⟨3, 3⟩] 7 = .ok [⟨1, 1⟩, ⟨2, 2⟩, ⟨3, 3⟩] ∧
      deterministicallySelectWorkSeatsV1 plainCrypto [⟨1, 1⟩, ⟨2, 2⟩, ⟨3, 3⟩] 7 2
        (some fun seat => seat.participant = 3) = .ok [⟨3, 3⟩, ⟨1, 1⟩] := by
  have set : SeatSet [⟨1, 1⟩, ⟨2, 2⟩, ⟨3, 3⟩] := ⟨by decide, by decide, by decide⟩
  have sorts : deterministicallyOrderWorkSeatsV1 plainCrypto [⟨1, 1⟩, ⟨2, 2⟩, ⟨3, 3⟩] 7 =
      .ok [⟨1, 1⟩, ⟨2, 2⟩, ⟨3, 3⟩] := by decide +kernel
  obtain ⟨ordered, order, selects, _⟩ :=
    (bounded_selection plainCrypto _ set 7 2 (some fun seat => seat.participant = 3)).2.1 (by decide)
  obtain rfl := Except.ok.inj (sorts.symm.trans order)
  exact ⟨set, sorts, selects⟩

end Outcome

end RabbitLqc
