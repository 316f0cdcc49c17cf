import RabbitLqc.Lib.Primality
import RabbitLqc.Vrf.Keyset

/-!
# The pairing curve

Keys are points of the first group, signatures points of the second, and a pairing checks a signature against
its key. The curve arithmetic is a parameter with the laws of a bilinear group of prime order and of the
compressed point format; the scalars are those of BLS12-381.
-/

namespace RabbitLqc
open Lib RlpCodec

/-! ### Scalars -/

def scalarOrder : Nat := 0x73eda753299d7d483339d80809a1d80553bda402fffe5bfeffffffff00000001

/-- `scalarOrder - 1`, factored. -/
def scalarOrderFactors : List (Nat × Nat) :=
  [(2, 32), (3, 1), (11, 1), (19, 1), (10177, 1), (125527, 1), (859267, 1), (906349, 2), (2508409, 1), (2529403, 1),
    (52437899, 1), (254760293, 2)]

theorem scalarOrderFactors_primes : ∀ factor ∈ scalarOrderFactors, factor.1.Prime := by
  simp only [scalarOrderFactors, List.forall_mem_cons, List.not_mem_nil, false_imp_iff, implies_true, and_true]
  norm_num

theorem scalarOrder_certificate : OrderCertificate scalarOrder 7 256 scalarOrderFactors where
  splits := by decide +kernel
  primes := scalarOrderFactors_primes
  bits := by decide
  full := by decide +kernel
  exact := by decide +kernel

instance : Fact scalarOrder.Prime := ⟨scalarOrder_certificate.prime⟩

theorem scalarOrder_lt {width : Nat} (wide : 256 ≤ width) : scalarOrder < 2 ^ width :=
  lt_of_lt_of_le (by decide : scalarOrder < 2 ^ 256) (Nat.pow_le_pow_right (by decide) wide)

abbrev Scalar := ZMod scalarOrder

theorem shareScalar_injective {left right : Nat} (leftSmall : left < 2 ^ 64) (rightSmall : right < 2 ^ 64)
    (same : (left : Scalar) = right) : left = right := by
  have wide : 2 ^ 64 < scalarOrder := by decide
  rw [ZMod.natCast_eq_natCast_iff] at same
  exact Nat.ModEq.eq_of_lt_of_lt same (leftSmall.trans wide) (rightSmall.trans wide)

theorem natScalar_ne_zero (number : Nat) (positive : number ≠ 0) (small : number < 2 ^ 64) : (number : Scalar) ≠ 0 := by
  intro zero
  rw [← Nat.cast_zero] at zero
  exact positive (shareScalar_injective small (by decide) zero)

/-! ### Points -/

/-- The errors of the curve package. -/
inductive VrfError where
  | invalidPublicKey
  | invalidSignature
  | invalidMessage
  | hashToCurve
  | invalidShareID
  | invalidSecretShare
  | invalidPartial
  | partialMessageMismatch
  | duplicateShareID
  | invalidThreshold
  | insufficientPartials
  | invalidDKGCoefficientCommitmentV1
  | invalidDKGPolynomialEvaluationV1
  | invalidDKGDealerPolynomialV1
  | invalidAggregateSignatureV1
  | duplicateAggregateShareV1
  | duplicateAggregateMessageV1
  deriving DecidableEq, Repr

instance {G : Type} [AddCommGroup G] [Module Scalar G] : SMulCommClass Scalar Scalar G := smulCommClass_self Scalar G

/-- The curve library. Decoding covers the checks that a point is on the curve and in its subgroup; the target
group is written additively. -/
structure VrfCurve (G1 G2 GT : Type) [AddCommGroup G1] [Module Scalar G1] [AddCommGroup G2] [Module Scalar G2]
    [AddCommGroup GT] [Module Scalar GT] where
  generator : G1
  pairing : G1 →ₗ[Scalar] G2 →ₗ[Scalar] GT
  /-- `HashToG2` under the domain of the protocol. -/
  hashToG2 : Bytes → Option G2
  encodeG1 : G1 → VrfPublicKey
  decodeG1 : VrfPublicKey → Option G1
  encodeG2 : G2 → VrfSignature
  decodeG2 : VrfSignature → Option G2
  /-- Every point has exactly one compressed form. -/
  decodeG1_iff : ∀ encoded point, decodeG1 encoded = some point ↔ encodeG1 point = encoded
  decodeG2_iff : ∀ encoded point, decodeG2 encoded = some point ↔ encodeG2 point = encoded
  /-- The generator generates. -/
  generates : ∀ point, ∃ scalar : Scalar, scalar • generator = point
  generator_ne_zero : generator ≠ 0
  /-- The pairing is not degenerate. -/
  nondegenerate : ∀ point, pairing generator point = 0 → point = 0

variable {G1 G2 GT : Type} [AddCommGroup G1] [Module Scalar G1] [AddCommGroup G2] [Module Scalar G2]
  [AddCommGroup GT] [Module Scalar GT]

namespace VrfCurve

section Laws

variable {curve : VrfCurve G1 G2 GT}

theorem encodeG1_injective : Function.Injective curve.encodeG1 := by
  intro left right same
  have decoded := (curve.decodeG1_iff _ _).mpr same
  rw [(curve.decodeG1_iff _ _).mpr rfl] at decoded
  exact (Option.some.inj decoded).symm

theorem smul_generator_eq_zero {scalar : Scalar} : scalar • curve.generator = 0 ↔ scalar = 0 := by
  rw [smul_eq_zero]
  exact or_iff_left curve.generator_ne_zero

theorem smul_generator_inj {left right : Scalar} :
    left • curve.generator = right • curve.generator ↔ left = right := by
  rw [← sub_eq_zero, ← sub_smul, smul_generator_eq_zero, sub_eq_zero]

theorem pairing_generator_injective {left right : G2}
    (same : curve.pairing curve.generator left = curve.pairing curve.generator right) : left = right := by
  rw [← sub_eq_zero, ← map_sub] at same
  exact sub_eq_zero.mp (curve.nondegenerate _ same)

theorem pairing_ne_zero {key : G1} {point : G2} (keyFinite : key ≠ 0) (finite : point ≠ 0) :
    curve.pairing key point ≠ 0 := by
  obtain ⟨scalar, rfl⟩ := curve.generates key
  intro zero
  rw [map_smul, LinearMap.smul_apply, smul_eq_zero] at zero
  obtain rfl | zero := zero
  · exact keyFinite (zero_smul _ _)
  · exact finite (curve.nondegenerate _ zero)

/-- What a valid signature is: it pairs with the generator as the key does with the message. -/
structure Signs (curve : VrfCurve G1 G2 GT) (key : G1) (message : Bytes) (point : G2) : Prop where
  nonempty : message ≠ []
  keyFinite : key ≠ 0
  finite : point ≠ 0
  pairs : ∃ hashed, curve.hashToG2 message = some hashed ∧ hashed ≠ 0 ∧
    curve.pairing key hashed = curve.pairing curve.generator point

theorem Signs.unique {key : G1} {message : Bytes} {left right : G2} (first : curve.Signs key message left)
    (second : curve.Signs key message right) : left = right := by
  obtain ⟨hashed, hash, _, pairs⟩ := first.pairs
  obtain ⟨again, hashAgain, _, pairsAgain⟩ := second.pairs
  obtain rfl := Option.some.inj (hash.symm.trans hashAgain)
  exact pairing_generator_injective (pairs.symm.trans pairsAgain)

theorem exists_signs {key : G1} {message : Bytes} {hashed : G2} (nonempty : message ≠ []) (keyFinite : key ≠ 0)
    (hash : curve.hashToG2 message = some hashed) (finite : hashed ≠ 0) : ∃ point, curve.Signs key message point := by
  obtain ⟨secret, rfl⟩ := curve.generates key
  refine ⟨secret • hashed, nonempty, keyFinite, ?_, hashed, hash, finite, ?_⟩
  · rw [smul_ne_zero_iff]
    exact ⟨left_ne_zero_of_smul keyFinite, finite⟩
  · rw [map_smul, map_smul, LinearMap.smul_apply]

end Laws

/-! ### Verification -/

variable [DecidableEq G1] [DecidableEq G2] [DecidableEq GT]

def finitePoint {Encoded G : Type} [AddCommGroup G] [DecidableEq G] (decode : Encoded → Option G)
    (invalid infinity : VrfError) (encoded : Encoded) : Except VrfError G :=
  match decode encoded with
  | none => .error invalid
  | some point => do
    ensure (point ≠ 0) infinity
    .ok point

theorem finitePoint_ok_iff {Encoded G : Type} [AddCommGroup G] [DecidableEq G] {decode : Encoded → Option G}
    {invalid infinity : VrfError} {encoded : Encoded} {point : G} :
    finitePoint decode invalid infinity encoded = .ok point ↔ decode encoded = some point ∧ point ≠ 0 := by
  unfold finitePoint
  cases decode encoded with
  | none => simp
  | some other =>
    simp only [ensure_bind_ok_iff, Except.ok.injEq, Option.some.injEq]
    constructor
    · intro read
      obtain ⟨finite, rfl⟩ := read
      exact ⟨rfl, finite⟩
    · intro given
      obtain ⟨rfl, finite⟩ := given
      exact ⟨finite, rfl⟩

variable (curve : VrfCurve G1 G2 GT)

def decodePublicKey : VrfPublicKey → Except VrfError G1 :=
  finitePoint curve.decodeG1 .invalidPublicKey .invalidPublicKey

def decodeSignature : VrfSignature → Except VrfError G2 :=
  finitePoint curve.decodeG2 .invalidSignature .invalidSignature

def hashMessage : Bytes → Except VrfError G2 := finitePoint curve.hashToG2 .hashToCurve .invalidSignature

def verify (publicKey : VrfPublicKey) (message : Bytes) (signature : VrfSignature) : Except VrfError Unit := do
  ensure (message ≠ []) .invalidMessage
  let key ← curve.decodePublicKey publicKey
  let point ← curve.decodeSignature signature
  let hashed ← curve.hashMessage message
  ensure (curve.pairing key hashed + curve.pairing (-curve.generator) point = 0) .invalidSignature

def verifyAndDeriveRandomness (crypto : Crypto) (publicKey : VrfPublicKey) (message : Bytes)
    (signature : VrfSignature) : Except VrfError Hash := do
  curve.verify publicKey message signature
  .ok <| crypto.keccak256 <| asciiBytes "RABBIT-VRF-RANDOMNESS-V1" ++ message ++ fixedBytes 96 signature.toNat

variable {curve}

omit [DecidableEq G2] [DecidableEq GT] in
theorem decodePublicKey_ok_iff {encoded : VrfPublicKey} {point : G1} :
    curve.decodePublicKey encoded = .ok point ↔ curve.encodeG1 point = encoded ∧ point ≠ 0 := by
  rw [decodePublicKey, finitePoint_ok_iff, curve.decodeG1_iff]

omit [DecidableEq G1] [DecidableEq GT] in
theorem decodeSignature_ok_iff {encoded : VrfSignature} {point : G2} :
    curve.decodeSignature encoded = .ok point ↔ curve.encodeG2 point = encoded ∧ point ≠ 0 := by
  rw [decodeSignature, finitePoint_ok_iff, curve.decodeG2_iff]

theorem verify_ok_iff {publicKey : VrfPublicKey} {message : Bytes} {signature : VrfSignature} {u : Unit} :
    curve.verify publicKey message signature = .ok u ↔
      ∃ key point, curve.encodeG1 key = publicKey ∧ curve.encodeG2 point = signature ∧
        curve.Signs key message point := by
  simp only [verify, bind_ok_iff, exists_unit, ensure_ok_iff, decodePublicKey_ok_iff, decodeSignature_ok_iff,
    hashMessage, finitePoint_ok_iff, map_neg, LinearMap.neg_apply, ← sub_eq_add_neg, sub_eq_zero]
  constructor
  · intro checks
    obtain ⟨nonempty, key, ⟨keyBytes, keyFinite⟩, point, ⟨bytes, finite⟩, hashed, ⟨hash, hashFinite⟩, pairs⟩ := checks
    exact ⟨key, point, keyBytes, bytes, nonempty, keyFinite, finite, hashed, hash, hashFinite, pairs⟩
  · intro signed
    obtain ⟨key, point, keyBytes, bytes, nonempty, keyFinite, finite, hashed, hash, hashFinite, pairs⟩ := signed
    exact ⟨nonempty, key, ⟨keyBytes, keyFinite⟩, point, ⟨bytes, finite⟩, hashed, ⟨hash, hashFinite⟩, pairs⟩

theorem verify_unique {publicKey : VrfPublicKey} {message : Bytes} {left right : VrfSignature}
    (first : curve.verify publicKey message left = .ok ()) (second : curve.verify publicKey message right = .ok ()) :
    left = right := by
  obtain ⟨key, point, keyBytes, rfl, signs⟩ := verify_ok_iff.mp first
  obtain ⟨other, otherPoint, otherBytes, rfl, otherSigns⟩ := verify_ok_iff.mp second
  obtain rfl := encodeG1_injective (keyBytes.trans otherBytes.symm)
  rw [signs.unique otherSigns]

end VrfCurve

/-! ### A curve to evaluate with

The scalars under addition, written as fixed-width numbers: a bilinear group in which logarithms are plain. -/

def scalarWord (width : Nat) (scalar : Scalar) : BitVec width := BitVec.ofNat width scalar.val

def wordScalar {width : Nat} (word : BitVec width) : Option Scalar :=
  if word.toNat < scalarOrder then some word.toNat else none

theorem wordScalar_iff {width : Nat} (wide : scalarOrder < 2 ^ width) (word : BitVec width) (scalar : Scalar) :
    wordScalar word = some scalar ↔ scalarWord width scalar = word := by
  have small : scalar.val < scalarOrder := ZMod.val_lt scalar
  unfold wordScalar scalarWord
  constructor
  · intro read
    split at read
    · rename_i inside
      obtain rfl := Option.some.inj read
      rw [ZMod.val_natCast_of_lt inside, BitVec.ofNat_toNat, BitVec.setWidth_eq]
    · cases read
  · intro written
    obtain rfl := written
    rw [BitVec.toNat_ofNat, Nat.mod_eq_of_lt (small.trans wide), if_pos small, ZMod.natCast_zmod_val]

def plainCurve : VrfCurve Scalar Scalar Scalar where
  generator := 1
  pairing := LinearMap.mul Scalar Scalar
  hashToG2 _ := some 1
  encodeG1 := scalarWord 384
  decodeG1 := wordScalar
  encodeG2 := scalarWord 768
  decodeG2 := wordScalar
  decodeG1_iff := wordScalar_iff (scalarOrder_lt (by decide))
  decodeG2_iff := wordScalar_iff (scalarOrder_lt (by decide))
  generates point := ⟨point, mul_one point⟩
  generator_ne_zero := one_ne_zero
  nondegenerate point zero := by simpa using zero

end RabbitLqc
