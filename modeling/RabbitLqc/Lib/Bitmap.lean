import RabbitLqc.Lib.Bytes

/-!
# Byte bitmaps

A set of small numbers kept as bytes, one bit a number, least significant bit first: of a fixed
number of bytes, and as a byte string of any length.
-/

namespace RabbitLqc.Lib

abbrev Bitmap (bytes : Nat) := Vector UInt8 bytes

namespace Bitmap

variable {bytes : Nat}

def empty (bytes : Nat) : Bitmap bytes := Vector.replicate bytes 0

/-- The byte that holds bit `i`, and the bit in it. -/
def bit (i : Nat) : Nat × UInt8 := (i / 8, UInt8.ofNat (2 ^ (i % 8)))

def test (bitmap : Bitmap bytes) (i : Nat) : Bool :=
  (bitmap[(bit i).1]?.getD 0) &&& (bit i).2 != 0

def insert (bitmap : Bitmap bytes) (i : Nat) : Bitmap bytes :=
  bitmap.setIfInBounds (bit i).1 ((bitmap[(bit i).1]?.getD 0) ||| (bit i).2)

def isEmpty (bitmap : Bitmap bytes) : Bool := bitmap.all (· == 0)

theorem and_bit_ne_zero (byte : UInt8) {k : Nat} (small : k < 8) :
    (byte &&& UInt8.ofNat (2 ^ k) != 0) = byte.toNat.testBit k := by
  have bound : 2 ^ k < 2 ^ 8 := Nat.pow_lt_pow_right (by omega) small
  have value : (byte &&& UInt8.ofNat (2 ^ k)).toNat = (byte.toNat.testBit k).toNat * 2 ^ k := by
    rw [UInt8.toNat_and, UInt8.toNat_ofNat_of_lt' bound, Nat.and_two_pow]
  cases hit : byte.toNat.testBit k with
  | false =>
    rw [hit, Bool.toNat_false, Nat.zero_mul] at value
    have zero : byte &&& UInt8.ofNat (2 ^ k) = 0 := UInt8.toNat_inj.mp value
    simp [zero]
  | true =>
    rw [hit, Bool.toNat_true, Nat.one_mul] at value
    rw [bne_iff_ne]
    intro zero
    rw [zero, UInt8.toNat_zero] at value
    exact absurd value.symm (Nat.two_pow_pos k).ne'

theorem test_eq (bitmap : Bitmap bytes) (i : Nat) :
    bitmap.test i = (bitmap[i / 8]?.getD 0).toNat.testBit (i % 8) :=
  and_bit_ne_zero _ (Nat.mod_lt _ (by omega))

@[simp] theorem test_empty (i : Nat) : (empty bytes).test i = false := by
  have zero : ((empty bytes)[i / 8]?.getD 0) = 0 := by
    by_cases inside : i / 8 < bytes <;> simp [empty, inside]
  rw [test_eq, zero, UInt8.toNat_zero, Nat.zero_testBit]

theorem test_insert (bitmap : Bitmap bytes) {i : Nat} (inside : i / 8 < bytes) (j : Nat) :
    (bitmap.insert i).test j = true ↔ bitmap.test j = true ∨ j = i := by
  have bound : 2 ^ (i % 8) < 2 ^ 8 := Nat.pow_lt_pow_right (by omega) (Nat.mod_lt _ (by omega))
  rw [test_eq, test_eq]
  by_cases same : j / 8 = i / 8
  · have stored : ((bitmap.insert i)[j / 8]?.getD 0) =
        (bitmap[j / 8]?.getD 0) ||| UInt8.ofNat (2 ^ (i % 8)) := by
      simp [insert, bit, same, inside]
    rw [stored, UInt8.toNat_or, Nat.testBit_or, UInt8.toNat_ofNat_of_lt' bound, Nat.testBit_two_pow,
      Bool.or_eq_true, decide_eq_true_eq]
    have position : i % 8 = j % 8 ↔ j = i := by omega
    rw [position]
  · have kept : (bitmap.insert i)[j / 8]? = bitmap[j / 8]? := by
      simp only [insert, bit]
      rw [Vector.getElem?_setIfInBounds]
      simp [Ne.symm same]
    have different : j ≠ i := fun equal => same (by rw [equal])
    simp [kept, different]

theorem byte_ne_zero_testBit {byte : UInt8} (nonzero : byte ≠ 0) :
    ∃ k < 8, byte.toNat.testBit k = true := by
  by_contra none
  push Not at none
  apply nonzero
  apply UInt8.toNat_inj.mp
  apply Nat.eq_of_testBit_eq
  intro k
  rw [UInt8.toNat_zero, Nat.zero_testBit]
  by_cases small : k < 8
  · simpa using none k small
  · have below : byte.toNat < 2 ^ k :=
      Nat.lt_of_lt_of_le byte.toNat_lt (Nat.pow_le_pow_right (by omega) (by omega))
    exact Nat.testBit_lt_two_pow below

theorem isEmpty_eq_false_iff (bitmap : Bitmap bytes) :
    bitmap.isEmpty = false ↔ ∃ i < 8 * bytes, bitmap.test i = true := by
  simp only [isEmpty, Vector.all_eq_false, beq_iff_eq]
  constructor
  · rintro ⟨index, inside, nonzero⟩
    obtain ⟨k, small, hit⟩ := byte_ne_zero_testBit nonzero
    refine ⟨8 * index + k, by omega, ?_⟩
    rw [test_eq, show (8 * index + k) / 8 = index by omega, show (8 * index + k) % 8 = k by omega]
    simpa [inside] using hit
  · rintro ⟨i, small, hit⟩
    have inside : i / 8 < bytes := by omega
    refine ⟨i / 8, inside, fun zero => ?_⟩
    rw [test_eq] at hit
    simp [inside, zero] at hit

end Bitmap

/-! ### Byte strings as bitmaps -/

/-- Whether bit `i` is set; a bit behind the end is not. -/
def testBytes (bytes : Bytes) (i : Nat) : Bool := (bytes.getD (i / 8) 0).toNat.testBit (i % 8)

def insertBit (bytes : Bytes) (i : Nat) : Bytes :=
  bytes.set (i / 8) (bytes.getD (i / 8) 0 ||| UInt8.ofNat (2 ^ (i % 8)))

@[simp] theorem length_insertBit (bytes : Bytes) (i : Nat) : (insertBit bytes i).length = bytes.length :=
  List.length_set

@[simp] theorem testBytes_zeros (count i : Nat) : testBytes (List.replicate count 0) i = false := by
  have zero : (List.replicate count (0 : UInt8)).getD (i / 8) 0 = 0 := by
    by_cases inside : i / 8 < count <;> simp [List.getD, inside]
  rw [testBytes, zero, UInt8.toNat_zero, Nat.zero_testBit]

theorem testBytes_insertBit {bytes : Bytes} {i : Nat} (inside : i < 8 * bytes.length) (j : Nat) :
    testBytes (insertBit bytes i) j = true ↔ testBytes bytes j = true ∨ j = i := by
  have bound : 2 ^ (i % 8) < 2 ^ 8 := Nat.pow_lt_pow_right (by omega) (Nat.mod_lt _ (by omega))
  have place : i / 8 < bytes.length := by omega
  unfold testBytes insertBit
  by_cases same : j / 8 = i / 8
  · have stored : (bytes.set (i / 8) (bytes.getD (i / 8) 0 ||| UInt8.ofNat (2 ^ (i % 8)))).getD (j / 8) 0 =
        bytes.getD (j / 8) 0 ||| UInt8.ofNat (2 ^ (i % 8)) := by
      simp [List.getD, same, place]
    rw [stored, UInt8.toNat_or, Nat.testBit_or, UInt8.toNat_ofNat_of_lt' bound, Nat.testBit_two_pow,
      Bool.or_eq_true, decide_eq_true_eq]
    have position : i % 8 = j % 8 ↔ j = i := by omega
    rw [position]
  · have kept : (bytes.set (i / 8) (bytes.getD (i / 8) 0 ||| UInt8.ofNat (2 ^ (i % 8)))).getD (j / 8) 0 =
        bytes.getD (j / 8) 0 := by
      simp [List.getD, Ne.symm same]
    have different : j ≠ i := fun equal => same (by rw [equal])
    rw [kept]
    simp [different]

theorem testBytes_of_length_le {bytes : Bytes} {i : Nat} (behind : 8 * bytes.length ≤ i) :
    testBytes bytes i = false := by
  have zero : bytes.getD (i / 8) 0 = 0 := by
    simp [List.getD, List.getElem?_eq_none (show bytes.length ≤ i / 8 by omega)]
  rw [testBytes, zero, UInt8.toNat_zero, Nat.zero_testBit]

@[simp] theorem testBytes_append_zeros (bytes : Bytes) (count i : Nat) :
    testBytes (bytes ++ List.replicate count 0) i = testBytes bytes i := by
  have same : (bytes ++ List.replicate count 0).getD (i / 8) 0 = bytes.getD (i / 8) 0 := by
    by_cases inside : i / 8 < bytes.length
    · simp [List.getD, List.getElem?_append_left inside]
    · rw [List.getD, List.getD, List.getElem?_append_right (not_lt.mp inside),
        List.getElem?_eq_none (not_lt.mp inside)]
      by_cases within : i / 8 - bytes.length < count <;> simp [within]
  rw [testBytes, testBytes, same]

theorem testBytes_take {bytes : Bytes} {count i : Nat} (inside : i < 8 * count) :
    testBytes (bytes.take count) i = testBytes bytes i := by
  have same : (bytes.take count).getD (i / 8) 0 = bytes.getD (i / 8) 0 := by
    simp [List.getD, List.getElem?_take_of_lt (show i / 8 < count by omega)]
  rw [testBytes, testBytes, same]

theorem byte_ext {left right : UInt8}
    (same : ∀ k < 8, left.toNat.testBit k = right.toNat.testBit k) : left = right := by
  apply UInt8.toNat_inj.mp
  apply Nat.eq_of_testBit_eq
  intro k
  by_cases small : k < 8
  · exact same k small
  · have power : 2 ^ 8 ≤ 2 ^ k := Nat.pow_le_pow_right (by omega) (by omega)
    rw [Nat.testBit_lt_two_pow (left.toNat_lt.trans_le power), Nat.testBit_lt_two_pow (right.toNat_lt.trans_le power)]

theorem bytes_ext {left right : Bytes} (length : left.length = right.length)
    (same : ∀ i < 8 * left.length, testBytes left i = testBytes right i) : left = right := by
  apply List.ext_getElem length
  intro index inLeft inRight
  apply byte_ext
  intro k small
  have bit := same (8 * index + k) (by omega)
  rw [testBytes, testBytes, show (8 * index + k) / 8 = index by omega,
    show (8 * index + k) % 8 = k by omega] at bit
  simpa [List.getD, inLeft, inRight] using bit

theorem drop_zero_iff {bytes : Bytes} {count : Nat} :
    (∀ value ∈ bytes.drop count, value = 0) ↔ ∀ i, 8 * count ≤ i → testBytes bytes i = false := by
  constructor
  · intro zero i behind
    by_cases inside : i / 8 < bytes.length
    · have member : bytes[i / 8] ∈ bytes.drop count := by
        rw [List.mem_drop_iff_getElem]
        exact ⟨i / 8 - count, by omega, by congr 1; omega⟩
      have value : bytes.getD (i / 8) 0 = 0 := by
        simpa [List.getD, inside] using zero _ member
      rw [testBytes, value, UInt8.toNat_zero, Nat.zero_testBit]
    · exact testBytes_of_length_le (by omega)
  · intro none value member
    obtain ⟨index, inside, rfl⟩ := List.mem_drop_iff_getElem.mp member
    apply byte_ext
    intro k small
    have bit := none (8 * (index + count) + k) (by omega)
    rw [testBytes, show (8 * (index + count) + k) / 8 = index + count by omega,
      show (8 * (index + count) + k) % 8 = k by omega] at bit
    have place : count + index < bytes.length := by omega
    rw [UInt8.toNat_zero, Nat.zero_testBit]
    simpa [List.getD, place, Nat.add_comm] using bit

/-- A byte has no bit above the first `width` exactly when their complement masks it to zero. -/
theorem and_not_low_eq_zero_iff {byte : UInt8} {width : Nat} (small : width < 8) :
    byte &&& ~~~UInt8.ofNat (2 ^ width - 1) = 0 ↔ ∀ k < 8, byte.toNat.testBit k = true → k < width := by
  have bound : 2 ^ width - 1 < 2 ^ 8 :=
    (Nat.sub_le _ _).trans_lt (Nat.pow_lt_pow_right (by omega) small)
  have bits : ∀ k < 8, (byte &&& ~~~UInt8.ofNat (2 ^ width - 1)).toNat.testBit k =
      (byte.toNat.testBit k && !decide (k < width)) := by
    intro k inside
    have low : (UInt8.ofNat (2 ^ width - 1)).toBitVec.getLsbD k = decide (k < width) := by
      rw [BitVec.getLsbD, UInt8.toNat_toBitVec, UInt8.toNat_ofNat_of_lt' bound, Nat.testBit_two_pow_sub_one]
    rw [← UInt8.toNat_toBitVec, BitVec.testBit_toNat, UInt8.toBitVec_and, UInt8.toBitVec_not, BitVec.getLsbD_and,
      BitVec.getLsbD_not, low, ← UInt8.toNat_toBitVec, BitVec.testBit_toNat]
    simp [inside]
  constructor
  · intro zero k inside hit
    have bit := bits k inside
    rw [zero, UInt8.toNat_zero, Nat.zero_testBit, hit] at bit
    simpa using bit
  · intro low
    apply byte_ext
    intro k inside
    rw [bits k inside, UInt8.toNat_zero, Nat.zero_testBit]
    cases hit : byte.toNat.testBit k with
    | false => rfl
    | true => simpa using low k inside hit

end RabbitLqc.Lib
