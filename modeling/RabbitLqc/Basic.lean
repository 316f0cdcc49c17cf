import RabbitLqc.Errors
import RabbitLqc.Lib.Except
import RabbitLqc.Lib.RlpCodec
import RabbitLqc.Lib.Sorting

/-!
# Words, hashing and signatures

Heights, times and counters are numbers with the overflow checks the code makes; what travels in
a header has the width it has on the wire. The hash functions and key recovery are parameters.
-/

namespace RabbitLqc
open Lib

abbrev Hash := BitVec 256

abbrev Address := BitVec 160

-- named, so that every membership test refers to them
instance : LawfulBEq Hash := inferInstance

instance : LawfulBEq Address := inferInstance

def maxUint64 : Nat := 2 ^ 64 - 1

/-- Each value is compared with the room the total so far leaves. -/
def checkedRegistryBlockAdd (values : List Nat) : Option Nat :=
  values.foldlM (fun total value => if maxUint64 - total < value then none else some (total + value)) 0

theorem checkedRegistryBlockAdd_eq (values : List Nat) :
    checkedRegistryBlockAdd values = if values.sum ≤ maxUint64 then some values.sum else none := by
  -- the induction carries the total so far, which is itself in range
  have folded : ∀ total ≤ maxUint64,
      values.foldlM (fun total value => if maxUint64 - total < value then none else some (total + value)) total =
        if total + values.sum ≤ maxUint64 then some (total + values.sum) else none := by
    induction values with
    | nil =>
      intro total bounded
      rw [List.sum_nil, Nat.add_zero, if_pos bounded]
      rfl
    | cons value values ih =>
      intro total bounded
      rw [List.foldlM_cons, List.sum_cons]
      by_cases exceeds : maxUint64 - total < value
      · rw [if_pos exceeds, if_neg (by omega)]
        rfl
      · rw [if_neg exceeds, ← Nat.add_assoc]
        exact ih (total + value) (by omega)
  have total := folded 0 (Nat.zero_le _)
  rwa [Nat.zero_add] at total

theorem checkedRegistryBlockAdd_eq_some {values : List Nat} {sum : Nat} :
    checkedRegistryBlockAdd values = some sum ↔ values.sum ≤ maxUint64 ∧ values.sum = sum := by
  rw [checkedRegistryBlockAdd_eq]
  split <;> simp_all

def distinctParticipants (addresses : List Address) : Bool :=
  decide ((0 : Address) ∉ addresses ∧ addresses.Nodup)

structure Crypto where
  /-- `crypto.Keccak256Hash`. -/
  keccak256 : Bytes → Hash
  /-- `crypto.SigToPub` and `crypto.PubkeyToAddress`: the address whose key made the signature. -/
  recover : Hash → Bytes → Option Address
  /-- RandomX under a dataset key. -/
  randomX : Hash → Bytes → Option Hash

def asciiBytes (text : String) : Bytes := text.toUTF8.data.toList

def textItem (text : String) : Rlp.Item := .bytes (asciiBytes text)

/-! ### Signatures -/

def signatureLength : Nat := 65

def secp256k1N : Nat :=
  0xfffffffffffffffffffffffffffffffebaaedce6af48a03bbfd25e8cd0364141

/-- `crypto.ValidateSignatureValues` with the low-`s` rule. -/
def validateSignatureValues (v : UInt8) (r s : Nat) : Bool :=
  decide (1 ≤ r ∧ 1 ≤ s ∧ s ≤ secp256k1N / 2 ∧ r < secp256k1N ∧ s < secp256k1N ∧ (v = 0 ∨ v = 1))

def signatureShapeOk (signature : Bytes) : Bool :=
  decide (signature.length = signatureLength) &&
    validateSignatureValues (signature.getD 64 0) (natOfBytes (signature.take 32))
      (natOfBytes ((signature.drop 32).take 32))

/-- The signer of `hash`, when the signature passes the range checks. -/
def Crypto.recoverChecked (crypto : Crypto) (hash : Hash) (signature : Bytes) : Option Address :=
  if signatureShapeOk signature then crypto.recover hash signature else none

theorem signatureShapeOk_length {signature : Bytes} (shape : signatureShapeOk signature = true) :
    signature.length = signatureLength := by
  simp only [signatureShapeOk, Bool.and_eq_true, decide_eq_true_eq] at shape
  exact shape.1

/-! ### Primitives to evaluate with

The statements hold for every choice of the primitives; these make concrete headers computable. A
signature names its signer in its first half.
-/

def plainCrypto : Crypto where
  keccak256 bytes := BitVec.ofNat 256 (natOfBytes bytes % (2 ^ 256 - 1) + 1)
  recover _ signature := some (BitVec.ofNat 160 (natOfBytes (signature.take 32)))
  randomX _ _ := some 1

theorem plainCrypto_keccak256_ne_zero (bytes : Bytes) : plainCrypto.keccak256 bytes ≠ 0 := by
  intro zero
  have small : natOfBytes bytes % (2 ^ 256 - 1) < 2 ^ 256 - 1 := Nat.mod_lt _ (by decide)
  have value : (natOfBytes bytes % (2 ^ 256 - 1) + 1) % 2 ^ 256 = 0 := congrArg BitVec.toNat zero
  rw [Nat.mod_eq_of_lt (by omega)] at value
  omega

def plainSignature (signer : Nat) : Bytes := fixedBytes 32 signer ++ fixedBytes 32 1 ++ [0]

theorem plainSignature_take (signer : Nat) (small : signer < 2 ^ 160) :
    (plainSignature signer).take 32 = fixedBytes 32 signer := by
  have length : (fixedBytes 32 signer).length = 32 :=
    length_fixedBytes (small.trans (by decide))
  unfold plainSignature
  rw [List.append_assoc, List.take_append_of_le_length (by rw [length]), List.take_of_length_le (by rw [length])]

theorem plainSignature_shape {signer : Nat} (signs : signer ≠ 0) (small : signer < 2 ^ 160) :
    signatureShapeOk (plainSignature signer) = true := by
  have first := plainSignature_take signer small
  have length : (fixedBytes 32 signer).length = 32 :=
    length_fixedBytes (small.trans (by decide))
  have second : ((plainSignature signer).drop 32).take 32 = fixedBytes 32 1 := by
    unfold plainSignature
    rw [List.append_assoc, List.drop_left' length]
    decide
  have third : (plainSignature signer).getD 64 0 = 0 := by
    unfold plainSignature
    rw [List.append_assoc, List.getD_append_right _ _ _ _ (by rw [length]; decide), length]
    decide
  have whole : (plainSignature signer).length = signatureLength := by
    unfold plainSignature
    rw [List.append_assoc, List.length_append, length]
    decide
  have below : signer < secp256k1N := small.trans (by decide)
  unfold signatureShapeOk validateSignatureValues
  rw [first, second, third, natOfBytes_fixedBytes, natOfBytes_fixedBytes]
  simp only [whole, decide_true, Bool.true_and, decide_eq_true_eq]
  exact ⟨Nat.pos_of_ne_zero signs, le_rfl, by decide, below, by decide, .inl trivial⟩

theorem plainCrypto_recoverChecked {signer : Nat} (signs : signer ≠ 0) (small : signer < 2 ^ 160) (hash : Hash) :
    plainCrypto.recoverChecked hash (plainSignature signer) = some (BitVec.ofNat 160 signer) := by
  unfold Crypto.recoverChecked
  rw [if_pos (plainSignature_shape signs small)]
  show some (BitVec.ofNat 160 (natOfBytes ((plainSignature signer).take 32))) = _
  rw [plainSignature_take signer small, natOfBytes_fixedBytes]

end RabbitLqc
