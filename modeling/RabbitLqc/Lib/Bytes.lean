import Mathlib

/-!
# Big-endian bytes

Numbers as byte strings: the shortest big-endian form, and the form of a fixed width.
-/

namespace RabbitLqc.Lib

abbrev Bytes := List UInt8

def natBytes (n : Nat) : Bytes := ((Nat.digits 256 n).map UInt8.ofNat).reverse

def natOfBytes (bytes : Bytes) : Nat := Nat.ofDigits 256 (bytes.reverse.map UInt8.toNat)

/-- The big-endian form padded with zeros to `width` bytes. -/
def fixedBytes (width n : Nat) : Bytes :=
  List.replicate (width - (natBytes n).length) 0 ++ natBytes n

@[simp] theorem natBytes_zero : natBytes 0 = [] := by simp [natBytes]

theorem natBytes_small {n : Nat} (positive : n ≠ 0) (small : n < 256) : natBytes n = [UInt8.ofNat n] := by
  unfold natBytes
  rw [Nat.digits_of_lt 256 n positive small]
  rfl

theorem digits_bytes (n : Nat) :
    ((Nat.digits 256 n).map UInt8.ofNat).map UInt8.toNat = Nat.digits 256 n := by
  rw [List.map_map]
  refine (List.map_congr_left fun digit member => ?_).trans (List.map_id _)
  have small : digit < 256 := Nat.digits_lt_base (by omega) member
  simp [Nat.mod_eq_of_lt small]

@[simp] theorem natOfBytes_natBytes (n : Nat) : natOfBytes (natBytes n) = n := by
  rw [natOfBytes, natBytes, List.reverse_reverse, digits_bytes, Nat.ofDigits_digits]

theorem natBytes_natOfBytes {bytes : Bytes} (canonical : bytes.head? ≠ some 0) :
    natBytes (natOfBytes bytes) = bytes := by
  have small : ∀ digit ∈ bytes.reverse.map UInt8.toNat, digit < 256 := by
    intro digit member
    obtain ⟨byte, _, rfl⟩ := List.mem_map.mp member
    exact byte.toNat_lt
  have leading : ∀ nonempty : bytes.reverse.map UInt8.toNat ≠ [],
      (bytes.reverse.map UInt8.toNat).getLast nonempty ≠ 0 := by
    intro nonempty zero
    rw [List.getLast_map] at zero
    have byteZero := UInt8.toNat_inj.mp (zero.trans UInt8.toNat_zero.symm)
    rw [List.getLast_reverse] at byteZero
    have bytesNonempty : bytes ≠ [] := by simpa using nonempty
    exact canonical (by rw [List.head?_eq_some_head bytesNonempty, byteZero])
  have inverse : (bytes.reverse.map UInt8.toNat).map UInt8.ofNat = bytes.reverse := by
    rw [List.map_map]
    exact (List.map_congr_left fun byte _ => by simp).trans (List.map_id _)
  rw [natBytes, natOfBytes, Nat.digits_ofDigits 256 (by omega) _ small leading, inverse,
    List.reverse_reverse]

theorem natBytes_head_ne_zero (n : Nat) : (natBytes n).head? ≠ some 0 := by
  intro zero
  rw [natBytes, List.head?_reverse, List.getLast?_map, Option.map_eq_some_iff] at zero
  obtain ⟨digit, last, isZero⟩ := zero
  have nonempty : Nat.digits 256 n ≠ [] := by
    intro empty
    simp [empty] at last
  have value := List.getLast_of_getLast?_eq_some last
  have nonzero : n ≠ 0 := Nat.digits_ne_nil_iff_ne_zero.mp nonempty
  have member : digit ∈ Nat.digits 256 n := value ▸ List.getLast_mem nonempty
  have small : digit < 256 := Nat.digits_lt_base (by omega) member
  have digitZero : digit = 0 := by
    have := congrArg UInt8.toNat isZero
    simpa [Nat.mod_eq_of_lt small] using this
  exact Nat.getLast_digit_ne_zero 256 nonzero (value.trans digitZero)

theorem natBytes_ne_nil {n : Nat} (positive : n ≠ 0) : natBytes n ≠ [] := by
  have nonempty := Nat.digits_ne_nil_iff_ne_zero (b := 256).mpr positive
  simpa only [natBytes, ne_eq, List.reverse_eq_nil_iff, List.map_eq_nil_iff] using nonempty

theorem length_natBytes_le_iff {n width : Nat} : (natBytes n).length ≤ width ↔ n < 256 ^ width := by
  rw [natBytes, List.length_reverse, List.length_map]
  exact Nat.digits_length_le_iff (by omega) n

theorem natOfBytes_lt (bytes : Bytes) : natOfBytes bytes < 256 ^ bytes.length := by
  have small : ∀ digit ∈ bytes.reverse.map UInt8.toNat, digit < 256 := by
    intro digit member
    obtain ⟨byte, _, rfl⟩ := List.mem_map.mp member
    exact byte.toNat_lt
  simpa [natOfBytes] using Nat.ofDigits_lt_base_pow_length (by omega) small

theorem toNat_lt_bytes {width : Nat} (value : BitVec (8 * width)) : value.toNat < 256 ^ width := by
  rw [show 256 = 2 ^ 8 from rfl, ← pow_mul]
  exact value.isLt

theorem natOfBytes_append_zeros (count : Nat) (bytes : Bytes) :
    natOfBytes (List.replicate count 0 ++ bytes) = natOfBytes bytes := by
  rw [natOfBytes, natOfBytes, List.reverse_append, List.reverse_replicate, List.map_append,
    List.map_replicate, UInt8.toNat_zero, Nat.ofDigits_append_replicate_zero]

theorem length_fixedBytes {width n : Nat} (small : n < 256 ^ width) :
    (fixedBytes width n).length = width := by
  have short := length_natBytes_le_iff.mpr small
  simp only [fixedBytes, List.length_append, List.length_replicate]
  omega

@[simp] theorem natOfBytes_fixedBytes (width n : Nat) : natOfBytes (fixedBytes width n) = n := by
  rw [fixedBytes, natOfBytes_append_zeros, natOfBytes_natBytes]

theorem fixedBytes_natOfBytes (bytes : Bytes) :
    fixedBytes bytes.length (natOfBytes bytes) = bytes := by
  induction bytes with
  | nil => simp [fixedBytes, natOfBytes]
  | cons byte rest ih =>
    by_cases zero : byte = 0
    · subst zero
      have same : natOfBytes (0 :: rest) = natOfBytes rest := natOfBytes_append_zeros 1 rest
      have short : (natBytes (natOfBytes rest)).length ≤ rest.length :=
        length_natBytes_le_iff.mpr (natOfBytes_lt rest)
      rw [fixedBytes, same, List.length_cons, Nat.succ_sub short, List.replicate_succ,
        List.cons_append]
      exact congrArg _ ih
    · have canonical : natBytes (natOfBytes (byte :: rest)) = byte :: rest :=
        natBytes_natOfBytes (by simpa using zero)
      rw [fixedBytes, canonical, Nat.sub_self, List.replicate_zero, List.nil_append]

end RabbitLqc.Lib
