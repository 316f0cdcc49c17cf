import RabbitLqc.Lib.Bitmap
import RabbitLqc.Vrf.Randomness

/-!
# Participation bitmaps

Which members took part in a finalization is written as sixteen bytes, one bit a member. Both directions
are read through the bits: what the decoder accepts and what the encoder writes are each fixed by them.
-/

namespace RabbitLqc
open Lib

/-! ### Writing a bitmap -/

/-- Sets the bit of each share in turn. A share outside the committee, or equal to the one before, is refused. -/
def setParticipationBits (committeeSize : Nat) : Option Nat → List Nat → Bytes → Option Bytes
  | _, [], bitmap => some bitmap
  | previous, shareID :: rest, bitmap =>
    if shareID = 0 ∨ committeeSize < shareID then none
    else if previous = some shareID then none
    else setParticipationBits committeeSize (some shareID) rest (insertBit bitmap (shareID - 1))

def rabbitVRFCompactParticipationBitmapV1 (context : RabbitVRFDKGSessionContextV1) (shareIDs : List Nat) :
    Option Bytes :=
  if context.valid ∧ shareIDs.length = context.threshold then do
    let ordered := sortOn id shareIDs
    let bitmap ← setParticipationBits context.committeeSize none ordered
      (List.replicate (rabbitVRFParticipationBitmapLenV1 context.committeeSize) 0)
    let decoded ← rabbitVRFParticipationShareIDsV1 context bitmap
    if decoded = ordered then some bitmap else none
  else none

def rabbitVRFCompactParticipationFixedBitmapV1 (context : RabbitVRFDKGSessionContextV1) (shareIDs : List Nat) :
    Option (BitVec 128) :=
  if context.committeeSize = 0 ∨ 16 * 8 < context.committeeSize then none
  else do
    let canonical ← rabbitVRFCompactParticipationBitmapV1 context shareIDs
    if 16 < canonical.length then none
    else some (BitVec.ofNat 128 (natOfBytes (canonical ++ List.replicate (16 - canonical.length) 0)))

/-! ### The bits of a bitmap -/

/-- Bit `i` of the sixteen bytes, counted from the low end of the first one. -/
def participationBit (fixed : BitVec 128) (i : Nat) : Bool := testBytes (fixedBytes 16 fixed.toNat) i

theorem length_participationBytes (fixed : BitVec 128) : (fixedBytes 16 fixed.toNat).length = 16 :=
  length_fixedBytes (fixed.isLt.trans_eq (by decide))

theorem participationBit_ext {left right : BitVec 128}
    (same : ∀ i, participationBit left i = true ↔ participationBit right i = true) : left = right := by
  have bytes : fixedBytes 16 left.toNat = fixedBytes 16 right.toNat := by
    apply bytes_ext
    · rw [length_participationBytes, length_participationBytes]
    · intro i _
      exact Bool.eq_iff_iff.mpr (same i)
  apply BitVec.eq_of_toNat_eq
  rw [← natOfBytes_fixedBytes 16 left.toNat, bytes, natOfBytes_fixedBytes]

theorem participationBit_padded {bytes : Bytes} (short : bytes.length ≤ 16) (i : Nat) :
    participationBit (BitVec.ofNat 128 (natOfBytes (bytes ++ List.replicate (16 - bytes.length) 0))) i =
      testBytes bytes i := by
  have length : (bytes ++ List.replicate (16 - bytes.length) 0).length = 16 := by
    rw [List.length_append, List.length_replicate]
    omega
  have small : natOfBytes (bytes ++ List.replicate (16 - bytes.length) 0) < 2 ^ 128 := by
    have bound := natOfBytes_lt (bytes ++ List.replicate (16 - bytes.length) 0)
    rw [length] at bound
    exact bound.trans_eq (by decide)
  have restored := fixedBytes_natOfBytes (bytes ++ List.replicate (16 - bytes.length) 0)
  rw [length] at restored
  rw [participationBit, BitVec.toNat_ofNat, Nat.mod_eq_of_lt small, restored, testBytes_append_zeros]

theorem bitmapHas_eq (bitmap : Bytes) (shareID : Nat) : bitmapHas bitmap shareID = testBytes bitmap (shareID - 1) :=
  Bitmap.and_bit_ne_zero _ (Nat.mod_lt _ (by omega))

/-! ### Reading a bitmap -/

section Reading

variable {context : RabbitVRFDKGSessionContextV1} {ids : List Nat}

theorem RabbitVRFDKGSessionContextV1.size_pos (valid : context.valid = true) : 0 < context.committeeSize := by
  simp only [RabbitVRFDKGSessionContextV1.valid, decide_eq_true_eq] at valid
  exact Nat.pos_of_ne_zero valid.2.2.2.2.1

theorem lastByte_masked_iff {bitmap : Bytes} {size : Nat}
    (length : bitmap.length = rabbitVRFParticipationBitmapLenV1 size) :
    (size % 8 ≠ 0 → bitmap.getLastD 0 &&& ~~~UInt8.ofNat (2 ^ (size % 8) - 1) = 0) ↔
      ∀ i, testBytes bitmap i = true → i < size := by
  unfold rabbitVRFParticipationBitmapLenV1 at length
  have last : bitmap.getLastD 0 = bitmap.getD (bitmap.length - 1) 0 := by
    rw [List.getLastD_eq_getLast?, List.getLast?_eq_getElem?, List.getD]
  rw [last]
  constructor
  · intro masked i hit
    have inside : i < 8 * bitmap.length := by
      by_contra behind
      rw [testBytes_of_length_le (not_lt.mp behind)] at hit
      cases hit
    by_cases inLast : i / 8 = bitmap.length - 1
    · by_cases whole : size % 8 = 0
      · omega
      · have low := (and_not_low_eq_zero_iff (Nat.mod_lt _ (by omega))).mp (masked whole) (i % 8)
          (Nat.mod_lt _ (by omega))
        rw [testBytes, inLast] at hit
        have := low hit
        omega
    · omega
  · intro inside partially
    rw [and_not_low_eq_zero_iff (Nat.mod_lt _ (by omega))]
    intro k small hit
    have position := inside (8 * (bitmap.length - 1) + k)
    rw [testBytes, show (8 * (bitmap.length - 1) + k) / 8 = bitmap.length - 1 by omega,
      show (8 * (bitmap.length - 1) + k) % 8 = k by omega] at position
    have := position hit
    omega

theorem participationShareIDs_some_iff {bitmap : Bytes} :
    rabbitVRFParticipationShareIDsV1 context bitmap = some ids ↔
      context.valid = true ∧ bitmap.length = rabbitVRFParticipationBitmapLenV1 context.committeeSize ∧
        (∀ i, testBytes bitmap i = true → i < context.committeeSize) ∧
        ids = (List.range' 1 context.committeeSize).filter (fun shareID => testBytes bitmap (shareID - 1)) ∧
        ids.length = context.threshold := by
  have read : bitmapHas bitmap = fun shareID => testBytes bitmap (shareID - 1) := funext (bitmapHas_eq bitmap)
  unfold rabbitVRFParticipationShareIDsV1
  dsimp only
  rw [Option.ite_none_right_eq_some, Option.some.injEq, read]
  constructor
  · intro given
    obtain ⟨⟨valid, length, masked, count⟩, rfl⟩ := given
    exact ⟨valid, length,
      (lastByte_masked_iff length).mp masked, rfl, count⟩
  · intro given
    obtain ⟨valid, length, inside, rfl, count⟩ := given
    exact ⟨⟨valid, length,
      (lastByte_masked_iff length).mpr inside, count⟩, rfl⟩

/-- The decoder accepts exactly the bitmaps with no bit outside the committee and one bit for each of a
threshold of shares, and lists these in order. -/
theorem shareIDsFromFixed_some_iff {fixed : BitVec 128} (small : context.committeeSize ≤ 128) :
    rabbitVRFCompactParticipationShareIDsFromFixedBitmapV1 context fixed = some ids ↔
      context.valid = true ∧ (∀ i, participationBit fixed i = true → i < context.committeeSize) ∧
        ids = (List.range' 1 context.committeeSize).filter (fun shareID => participationBit fixed (shareID - 1)) ∧
        ids.length = context.threshold := by
  have length := length_participationBytes fixed
  have covered : context.committeeSize ≤ 8 * rabbitVRFParticipationBitmapLenV1 context.committeeSize := by
    unfold rabbitVRFParticipationBitmapLenV1
    omega
  have short : rabbitVRFParticipationBitmapLenV1 context.committeeSize ≤ 16 := by
    unfold rabbitVRFParticipationBitmapLenV1
    omega
  have taken : (List.range' 1 context.committeeSize).filter (fun shareID =>
        testBytes ((fixedBytes 16 fixed.toNat).take (rabbitVRFParticipationBitmapLenV1 context.committeeSize))
          (shareID - 1)) =
      (List.range' 1 context.committeeSize).filter fun shareID => participationBit fixed (shareID - 1) := by
    apply List.filter_congr
    intro shareID member
    rw [List.mem_range'_1] at member
    exact testBytes_take (by omega)
  unfold rabbitVRFCompactParticipationShareIDsFromFixedBitmapV1
  dsimp only
  rw [Option.ite_none_right_eq_some, participationShareIDs_some_iff, taken, drop_zero_iff, List.length_take, length]
  constructor
  · intro given
    obtain ⟨⟨_, _, _, _, tail⟩, valid, _, inside, same, count⟩ := given
    refine ⟨valid, fun i hit => ?_, same, count⟩
    by_cases early : i < 8 * rabbitVRFParticipationBitmapLenV1 context.committeeSize
    · exact inside i ((testBytes_take early).trans hit)
    · rw [participationBit, tail i (not_lt.mp early)] at hit
      cases hit
  · intro given
    obtain ⟨valid, inside, same, count⟩ := given
    have positive := RabbitVRFDKGSessionContextV1.size_pos valid
    refine ⟨⟨positive.ne', small, ?_, short, fun i behind => ?_⟩, valid, by omega, fun i hit => ?_, same, count⟩
    · unfold rabbitVRFParticipationBitmapLenV1
      omega
    · cases clear : testBytes (fixedBytes 16 fixed.toNat) i with
      | false => rfl
      | true =>
        have := inside i clear
        omega
    · by_cases early : i < 8 * rabbitVRFParticipationBitmapLenV1 context.committeeSize
      · exact inside i ((testBytes_take early).symm.trans hit)
      · rw [testBytes_of_length_le (by rw [List.length_take, length]; omega)] at hit
        cases hit

end Reading

/-! ### What the encoder writes -/

section Writing

variable {context : RabbitVRFDKGSessionContextV1} {ids : List Nat}

/-- The committee's shares, each at most once, as many as the threshold asks for. -/
structure ShareSet (context : RabbitVRFDKGSessionContextV1) (ids : List Nat) : Prop where
  each : ∀ shareID ∈ ids, 1 ≤ shareID ∧ shareID ≤ context.committeeSize
  distinct : ids.Nodup
  count : ids.length = context.threshold

theorem setParticipationBits_some_iff {size : Nat} {previous : Option Nat} {bitmap result : Bytes} :
    setParticipationBits size previous ids bitmap = some result ↔
      (∀ shareID ∈ ids, 1 ≤ shareID ∧ shareID ≤ size) ∧ (previous.toList ++ ids).IsChain (· ≠ ·) ∧
        result = ids.foldl (fun bytes shareID => insertBit bytes (shareID - 1)) bitmap := by
  induction ids generalizing previous bitmap with
  | nil => cases previous <;> simp [setParticipationBits, eq_comm]
  | cons shareID rest ih =>
    have chain : (previous.toList ++ shareID :: rest).IsChain (· ≠ ·) ↔
        previous ≠ some shareID ∧ (shareID :: rest).IsChain (· ≠ ·) := by
      cases previous <;> simp [List.isChain_cons_cons]
    rw [setParticipationBits, chain, List.forall_mem_cons, List.foldl_cons]
    by_cases outside : shareID = 0 ∨ size < shareID
    · have refused : ¬ (1 ≤ shareID ∧ shareID ≤ size) := by omega
      simp [if_pos outside, refused]
    · have inside : 1 ≤ shareID ∧ shareID ≤ size := by omega
      rw [if_neg outside]
      by_cases again : previous = some shareID
      · simp [again]
      · rw [if_neg again, ih, Option.toList_some, List.singleton_append]
        simp only [inside, again, ne_eq, not_false_eq_true, true_and, and_self]

theorem length_foldl_insertBit (ids : List Nat) (bitmap : Bytes) :
    (ids.foldl (fun bytes shareID => insertBit bytes (shareID - 1)) bitmap).length = bitmap.length := by
  induction ids generalizing bitmap with
  | nil => rfl
  | cons shareID rest ih => rw [List.foldl_cons, ih, length_insertBit]

theorem testBytes_foldl_insertBit {bitmap : Bytes} (inside : ∀ shareID ∈ ids, 1 ≤ shareID ∧ shareID ≤ 8 * bitmap.length)
    (i : Nat) :
    testBytes (ids.foldl (fun bytes shareID => insertBit bytes (shareID - 1)) bitmap) i = true ↔
      testBytes bitmap i = true ∨ i + 1 ∈ ids := by
  induction ids generalizing bitmap with
  | nil => simp
  | cons shareID rest ih =>
    obtain ⟨first, others⟩ := List.forall_mem_cons.mp inside
    have place : i = shareID - 1 ↔ i + 1 = shareID := by omega
    rw [List.foldl_cons, ih (by rw [length_insertBit]; exact others), testBytes_insertBit (by omega), place,
      List.mem_cons, or_assoc]

theorem filter_bits_eq_sorted {size : Nat} (each : ∀ shareID ∈ ids, 1 ≤ shareID ∧ shareID ≤ size)
    (distinct : ids.Nodup) {hit : Nat → Bool} (bits : ∀ i, hit i = true ↔ i + 1 ∈ ids) :
    (List.range' 1 size).filter (fun shareID => hit (shareID - 1)) = sortOn id ids := by
  have increasing : ((List.range' 1 size).filter fun shareID => hit (shareID - 1)).Pairwise (· < ·) :=
    (List.pairwise_lt_range' (s := 1) (n := size)).filter _
  have perm : ((List.range' 1 size).filter fun shareID => hit (shareID - 1)).Perm (sortOn id ids) := by
    rw [List.perm_ext_iff_of_nodup (increasing.imp ne_of_lt) (sortOn_perm.nodup_iff.mpr distinct)]
    intro shareID
    rw [List.mem_filter, List.mem_range'_1, bits, mem_sortOn]
    constructor
    · intro given
      have restored : shareID - 1 + 1 = shareID := by omega
      rw [restored] at given
      exact given.2
    · intro member
      have inside := each shareID member
      have restored : shareID - 1 + 1 = shareID := by omega
      rw [restored]
      exact ⟨by omega, member⟩
  exact perm.eq_of_pairwise (fun a b _ _ below above => le_antisymm below above) (increasing.imp le_of_lt)
    sortOn_sorted

theorem sorted_chain_iff : (sortOn id ids).IsChain (· ≠ ·) ↔ ids.Nodup := by
  have neighbours := @sortOn_neighbours_iff Nat Nat _ id ids
  rw [List.map_id] at neighbours
  exact neighbours

theorem testBytes_written {size : Nat} (each : ∀ shareID ∈ ids, 1 ≤ shareID ∧ shareID ≤ size) (i : Nat) :
    testBytes ((sortOn id ids).foldl (fun bytes shareID => insertBit bytes (shareID - 1))
      (List.replicate (rabbitVRFParticipationBitmapLenV1 size) 0)) i = true ↔ i + 1 ∈ ids := by
  rw [testBytes_foldl_insertBit, testBytes_zeros, mem_sortOn]
  · simp
  · intro shareID member
    have inside := each shareID (mem_sortOn.mp member)
    rw [List.length_replicate]
    unfold rabbitVRFParticipationBitmapLenV1
    omega

theorem participationBitmap_some_iff {bitmap : Bytes} :
    rabbitVRFCompactParticipationBitmapV1 context ids = some bitmap ↔
      context.valid = true ∧ ShareSet context ids ∧
        bitmap.length = rabbitVRFParticipationBitmapLenV1 context.committeeSize ∧
        ∀ i, testBytes bitmap i = true ↔ i + 1 ∈ ids := by
  have start : (List.replicate (rabbitVRFParticipationBitmapLenV1 context.committeeSize) (0 : UInt8)).length =
      rabbitVRFParticipationBitmapLenV1 context.committeeSize := List.length_replicate
  unfold rabbitVRFCompactParticipationBitmapV1
  rw [Option.ite_none_right_eq_some]
  dsimp only [bind]
  simp only [Option.bind_eq_some_iff, setParticipationBits_some_iff, participationShareIDs_some_iff,
    Option.ite_none_right_eq_some, Option.some.injEq, Option.toList_none, List.nil_append, sorted_chain_iff,
    mem_sortOn]
  constructor
  · intro given
    obtain ⟨⟨valid, count⟩, _, ⟨each, distinct, rfl⟩, _, _, _, rfl⟩ := given
    exact ⟨valid, ⟨each, distinct, count⟩, (length_foldl_insertBit _ _).trans start,
      testBytes_written each⟩
  · intro given
    obtain ⟨valid, shares, length, bits⟩ := given
    have same : bitmap = (sortOn id ids).foldl (fun bytes shareID => insertBit bytes (shareID - 1))
        (List.replicate (rabbitVRFParticipationBitmapLenV1 context.committeeSize) 0) := by
      apply bytes_ext
      · rw [length, length_foldl_insertBit, start]
      · intro i _
        rw [Bool.eq_iff_iff, bits, testBytes_written shares.each]
    have listed := filter_bits_eq_sorted shares.each shares.distinct bits
    refine ⟨⟨valid, shares.count⟩, bitmap, ⟨shares.each, shares.distinct, same⟩, _,
      ⟨valid, length, fun i hit => ?_, rfl, ?_⟩, listed, rfl⟩
    · have := shares.each (i + 1) ((bits i).mp hit)
      omega
    · rw [listed, length_sortOn, shares.count]

theorem fixedBitmap_some_iff {fixed : BitVec 128} (small : context.committeeSize ≤ 128) :
    rabbitVRFCompactParticipationFixedBitmapV1 context ids = some fixed ↔
      context.valid = true ∧ ShareSet context ids ∧ ∀ i, participationBit fixed i = true ↔ i + 1 ∈ ids := by
  have short : rabbitVRFParticipationBitmapLenV1 context.committeeSize ≤ 16 := by
    unfold rabbitVRFParticipationBitmapLenV1
    omega
  unfold rabbitVRFCompactParticipationFixedBitmapV1
  rw [Option.ite_none_left_eq_some]
  dsimp only [bind]
  simp only [Option.bind_eq_some_iff, participationBitmap_some_iff, Option.ite_none_left_eq_some, Option.some.injEq]
  constructor
  · intro given
    obtain ⟨_, canonical, ⟨valid, shares, length, bits⟩, _, rfl⟩ := given
    refine ⟨valid, shares, fun i => ?_⟩
    rw [participationBit_padded (length.trans_le short)]
    exact bits i
  · intro given
    obtain ⟨valid, shares, bits⟩ := given
    have positive := RabbitVRFDKGSessionContextV1.size_pos valid
    -- the canonical bytes are the first of the sixteen
    have taken : ∀ i, testBytes ((fixedBytes 16 fixed.toNat).take
        (rabbitVRFParticipationBitmapLenV1 context.committeeSize)) i = true ↔ i + 1 ∈ ids := by
      intro i
      by_cases early : i < 8 * rabbitVRFParticipationBitmapLenV1 context.committeeSize
      · rw [testBytes_take early]
        exact bits i
      · have outside : i + 1 ∉ ids := by
          intro member
          have := shares.each _ member
          unfold rabbitVRFParticipationBitmapLenV1 at early
          omega
        rw [testBytes_of_length_le (by rw [List.length_take]; omega)]
        simp [outside]
    have length : ((fixedBytes 16 fixed.toNat).take
        (rabbitVRFParticipationBitmapLenV1 context.committeeSize)).length =
          rabbitVRFParticipationBitmapLenV1 context.committeeSize := by
      rw [List.length_take, length_participationBytes]
      omega
    refine ⟨by omega, _, ⟨valid, shares, length, taken⟩, by omega, ?_⟩
    apply participationBit_ext
    intro i
    rw [participationBit_padded (length.trans_le short), taken, bits]

theorem ShareSet.exists_fixedBitmap (shares : ShareSet context ids) (valid : context.valid = true)
    (small : context.committeeSize ≤ 128) :
    ∃ fixed, rabbitVRFCompactParticipationFixedBitmapV1 context ids = some fixed := by
  have length : ((sortOn id ids).foldl (fun bytes shareID => insertBit bytes (shareID - 1))
      (List.replicate (rabbitVRFParticipationBitmapLenV1 context.committeeSize) 0)).length ≤ 16 := by
    rw [length_foldl_insertBit, List.length_replicate]
    unfold rabbitVRFParticipationBitmapLenV1
    omega
  have bits := participationBit_padded length
  exact ⟨_, (fixedBitmap_some_iff small).mpr
    ⟨valid, shares, fun i => (Bool.eq_iff_iff.mp (bits i)).trans (testBytes_written shares.each i)⟩⟩

theorem shareSet_of_decoded {fixed : BitVec 128} (small : context.committeeSize ≤ 128)
    (decoded : rabbitVRFCompactParticipationShareIDsFromFixedBitmapV1 context fixed = some ids) :
    ids.Pairwise (· < ·) ∧ ShareSet context ids ∧ ∀ i, participationBit fixed i = true ↔ i + 1 ∈ ids := by
  obtain ⟨_, inside, rfl, count⟩ := (shareIDsFromFixed_some_iff small).mp decoded
  have increasing : ((List.range' 1 context.committeeSize).filter fun shareID =>
      participationBit fixed (shareID - 1)).Pairwise (· < ·) :=
    (List.pairwise_lt_range' (s := 1) (n := context.committeeSize)).filter _
  refine ⟨increasing, ⟨fun shareID member => ?_, increasing.imp ne_of_lt, count⟩, fun i => ?_⟩
  · have within := List.mem_range'_1.mp (List.mem_of_mem_filter member)
    omega
  · rw [List.mem_filter, List.mem_range'_1, Nat.add_sub_cancel]
    constructor
    · intro hit
      have := inside i hit
      exact ⟨by omega, hit⟩
    · intro given
      exact given.2

theorem count_participationBits {fixed : BitVec 128} (small : context.committeeSize ≤ 128)
    (inside : ∀ i, participationBit fixed i = true → i < context.committeeSize) :
    (List.range 128).countP (participationBit fixed) =
      ((List.range' 1 context.committeeSize).filter fun shareID => participationBit fixed (shareID - 1)).length := by
  have split : List.range 128 = List.range context.committeeSize ++
      (List.range (128 - context.committeeSize)).map (context.committeeSize + ·) := by
    rw [← List.range_add]
    congr 1
    omega
  have outside : ((List.range (128 - context.committeeSize)).map (context.committeeSize + ·)).countP
      (participationBit fixed) = 0 := by
    rw [List.countP_eq_zero]
    intro i member hit
    obtain ⟨offset, _, rfl⟩ := List.mem_map.mp member
    have := inside _ hit
    omega
  rw [split, List.countP_append, outside, Nat.add_zero, ← List.countP_eq_length_filter,
    List.range'_eq_map_range, List.countP_map]
  congr 1
  funext i
  simp [Nat.add_comm 1 i]

end Writing

/-! ### The correspondence -/

theorem fixedBitmap_perm {context : RabbitVRFDKGSessionContextV1} {left right : List Nat} (perm : left.Perm right) :
    rabbitVRFCompactParticipationFixedBitmapV1 context left =
      rabbitVRFCompactParticipationFixedBitmapV1 context right := by
  have ordered : sortOn id left = sortOn id right :=
    (sortOn_perm.trans (perm.trans sortOn_perm.symm)).eq_of_pairwise
      (fun a b _ _ below above => le_antisymm below above) sortOn_sorted sortOn_sorted
  unfold rabbitVRFCompactParticipationFixedBitmapV1 rabbitVRFCompactParticipationBitmapV1
  rw [ordered, perm.length_eq]

/-- In a valid context of at most 128 members, bitmaps the decoder accepts and sets of a threshold of
shares correspond one to one. The order in which shares are given does not matter, no other list of shares
is encoded, and a bitmap with a bit outside the committee, with a nonzero byte behind the committee's own
bytes, or with another number of set bits is refused. -/
theorem participationBitmap_bijection {context : RabbitVRFDKGSessionContextV1} (valid : context.valid = true)
    (small : context.committeeSize ≤ 128) :
    (∀ ids, (∃ fixed, rabbitVRFCompactParticipationFixedBitmapV1 context ids = some fixed) ↔
      (∀ shareID ∈ ids, 1 ≤ shareID ∧ shareID ≤ context.committeeSize) ∧ ids.Nodup ∧
        ids.length = context.threshold) ∧
    (∀ ids fixed, rabbitVRFCompactParticipationFixedBitmapV1 context ids = some fixed →
      rabbitVRFCompactParticipationShareIDsFromFixedBitmapV1 context fixed = some (sortOn id ids)) ∧
    (∀ fixed ids, rabbitVRFCompactParticipationShareIDsFromFixedBitmapV1 context fixed = some ids →
      ids.Pairwise (· < ·) ∧ rabbitVRFCompactParticipationFixedBitmapV1 context ids = some fixed) ∧
    (∀ left right : List Nat, left.Perm right →
      rabbitVRFCompactParticipationFixedBitmapV1 context left =
        rabbitVRFCompactParticipationFixedBitmapV1 context right) ∧
    ∀ fixed : BitVec 128,
      (∃ i, context.committeeSize ≤ i ∧ participationBit fixed i = true) ∨
      (∃ value ∈ (fixedBytes 16 fixed.toNat).drop (rabbitVRFParticipationBitmapLenV1 context.committeeSize),
        value ≠ 0) ∨
      ((List.range 128).countP (participationBit fixed)) ≠ context.threshold →
        rabbitVRFCompactParticipationShareIDsFromFixedBitmapV1 context fixed = none := by
  refine ⟨fun ids => ⟨?_, ?_⟩, fun ids fixed encoded => ?_, fun fixed ids decoded => ?_,
    fun left right => fixedBitmap_perm, fun fixed wrong => ?_⟩
  · intro given
    obtain ⟨fixed, encoded⟩ := given
    obtain ⟨_, shares, _⟩ := (fixedBitmap_some_iff small).mp encoded
    exact ⟨shares.each, shares.distinct, shares.count⟩
  · intro given
    obtain ⟨each, distinct, count⟩ := given
    exact (ShareSet.mk each distinct count).exists_fixedBitmap valid small
  · obtain ⟨_, shares, bits⟩ := (fixedBitmap_some_iff small).mp encoded
    have listed := filter_bits_eq_sorted shares.each shares.distinct bits
    refine (shareIDsFromFixed_some_iff small).mpr ⟨valid, fun i hit => ?_, listed.symm, ?_⟩
    · have := shares.each _ ((bits i).mp hit)
      omega
    · rw [length_sortOn, shares.count]
  · obtain ⟨increasing, shares, bits⟩ := shareSet_of_decoded small decoded
    exact ⟨increasing, (fixedBitmap_some_iff small).mpr ⟨valid, shares, bits⟩⟩
  · rw [Option.eq_none_iff_forall_ne_some]
    intro ids decoded
    obtain ⟨_, inside, rfl, count⟩ := (shareIDsFromFixed_some_iff small).mp decoded
    rcases wrong with ⟨i, behind, hit⟩ | ⟨value, member, nonzero⟩ | miscounted
    · have := inside i hit
      omega
    · refine nonzero (drop_zero_iff.mpr (fun i behind => ?_) value member)
      by_contra hit
      have := inside i (Bool.eq_true_of_not_eq_false hit)
      unfold rabbitVRFParticipationBitmapLenV1 at behind
      omega
    · exact miscounted ((count_participationBits small inside).trans count)

def elevenContext : RabbitVRFDKGSessionContextV1 := ⟨1, 1, 1, 1, 11, 8, 3⟩

theorem participationBitmap_bijection_eleven :
    elevenContext.valid = true ∧ elevenContext.committeeSize ≤ 128 ∧
      ∃ fixed, rabbitVRFCompactParticipationFixedBitmapV1 elevenContext [11, 1, 2, 3, 9, 5, 6, 4] = some fixed ∧
        rabbitVRFCompactParticipationShareIDsFromFixedBitmapV1 elevenContext fixed =
          some [1, 2, 3, 4, 5, 6, 9, 11] := by
  have valid : elevenContext.valid = true := by decide
  have small : elevenContext.committeeSize ≤ 128 := by decide
  obtain ⟨accepts, decodes, _⟩ := participationBitmap_bijection valid small
  obtain ⟨fixed, encoded⟩ := (accepts [11, 1, 2, 3, 9, 5, 6, 4]).mpr (by decide)
  exact ⟨valid, small, fixed, encoded, decodes _ fixed encoded⟩

end RabbitLqc
