import RabbitLqc.Vrf.Dkg

/-!
# Signing with generated keys

A member adds up what it was dealt, signs with the sum, and its partial signature is checked against the keyset.
-/

namespace RabbitLqc
open Lib

variable {G1 G2 GT : Type} [AddCommGroup G1] [Module Scalar G1] [AddCommGroup G2] [Module Scalar G2]
  [AddCommGroup GT] [Module Scalar GT] [DecidableEq G1] [DecidableEq G2] [DecidableEq GT]

def VrfCurve.signPartial (curve : VrfCurve G1 G2 GT) (share : SecretShare) (message : Bytes) :
    Except VrfError PartialSignature := do
  ensure (message ≠ []) .invalidMessage
  let hashed ← finitePoint curve.hashToG2 .hashToCurve .invalidPartial message
  let point := share.scalar • hashed
  ensure (point ≠ 0) .invalidPartial
  .ok ⟨share.id, curve.encodeG2 point⟩

def RabbitVRFVerificationShareV1.verification (wire : RabbitVRFVerificationShareV1) : VerificationShare :=
  ⟨wire.shareID.toNat, wire.publicKey⟩

variable {curve : VrfCurve G1 G2 GT} {crypto : Crypto} {context : RabbitVRFDKGSessionContextV1}
  {dealing : DealerSet curve crypto context} {keyset : FinalKeyset} {message : Bytes} {hashed : G2}

theorem VrfCurve.signPartial_verifies (curve : VrfCurve G1 G2 GT) (crypto : Crypto) (share : SecretShare)
    (nonempty : message ≠ []) (hash : curve.hashToG2 message = some hashed) (finite : hashed ≠ 0) :
    ∃ signed verified, curve.signPartial share message = .ok signed ∧
      curve.verifyPartial crypto ⟨share.id, curve.encodeG1 (share.scalar • curve.generator)⟩ message signed =
        .ok verified := by
  have signs : curve.Signs (share.scalar • curve.generator) message (share.scalar • hashed) :=
    ⟨nonempty, smul_generator_eq_zero.not.mpr share.secret, smul_ne_zero share.secret finite, hashed, hash,
      finite, by simp⟩
  let signature := curve.encodeG2 (share.scalar • hashed)
  refine ⟨⟨share.id, signature⟩, ⟨share.id, signature, crypto.keccak256 message⟩, ?_, ?_⟩
  · simp only [signPartial, bind_ok_iff, exists_unit, ensure_ok_iff, finitePoint_ok_iff]
    exact ⟨nonempty, hashed, ⟨hash, finite⟩, signs.finite, rfl⟩
  · simp only [verifyPartial, bind_ok_iff, exists_unit, ensure_ok_iff]
    exact ⟨⟨share.numbered, share.numbered, trivial⟩, nonempty, by
      rw [(verify_ok_iff (u := ())).mpr ⟨_, _, rfl, rfl, signs⟩]⟩

/-- The dealt polynomials add up to one of the same degree. -/
theorem exists_dealtCoefficients (polynomials : List DKGDealerPolynomialV1) {threshold : Nat}
    (degree : ∀ polynomial ∈ polynomials, polynomial.threshold = threshold) :
    ∃ coefficients : List Scalar, coefficients.length = threshold ∧
      ∀ x : Nat, evalAt coefficients (x : Scalar) = dealtValue polynomials x := by
  induction polynomials with
  | nil => exact ⟨List.replicate threshold 0, List.length_replicate,
      fun x => evalAt_replicate_zero threshold (x : Scalar)⟩
  | cons first rest ih =>
    obtain ⟨here, degree⟩ := List.forall_mem_cons.mp degree
    obtain ⟨coefficients, length, values⟩ := ih degree
    have same : first.coefficients.length = coefficients.length := here.trans length.symm
    refine ⟨List.zipWith (· + ·) first.coefficients coefficients, ?_, fun x => ?_⟩
    · rw [List.length_zipWith, same, min_self, length]
    · rw [evalAt_zipWith_add same, values]
      rfl

omit [DecidableEq G2] [DecidableEq GT] in
/-- A final keyset shares one key: its shares lie on the sum of the dealt polynomials. -/
theorem DealerSet.exists_sharedKey
    (run : rabbitVRFDKGFinalKeysetV1 curve crypto context dealing.commitments = .ok keyset) :
    ∃ key : SharedKey G1, key.threshold = context.threshold ∧ key.publicKey curve = keyset.thresholdPublicKey ∧
      key.committeeSize = context.committeeSize ∧ (∀ id, key.point id = dealing.value id • curve.generator) ∧
      ∀ wire ∈ keyset.verificationShares, 1 ≤ wire.shareID.toNat ∧ wire.shareID.toNat ≤ context.committeeSize ∧
        wire.verification = key.share curve wire.shareID.toNat := by
  obtain ⟨finite, publicKey, shares, _⟩ := dealing.finalKeyset_ok_iff.mp run
  obtain ⟨coefficients, length, values⟩ := exists_dealtCoefficients dealing.polynomials fun polynomial member => by
    obtain ⟨dealer, _, rfl⟩ := List.mem_map.mp member
    exact dealer.checks.2.1.2.2
  have bounds : context.threshold ≠ 0 ∧ context.threshold ≤ context.committeeSize := by
    have valid := dealing.valid
    simp only [RabbitVRFDKGSessionContextV1.valid, decide_eq_true_eq] at valid
    obtain ⟨_, _, _, _, _, policy⟩ := valid
    unfold rabbitVRFThresholdPolicyV1 at policy
    dsimp only at policy
    split at policy
    · cases policy
    · obtain ⟨threshold, _⟩ := Prod.mk.inj (Option.some.inj policy)
      omega
  have points : ∀ id : Nat, evalAt (coefficients.map (· • curve.generator)) (id : Scalar) =
      dealing.value id • curve.generator := fun id => by
    rw [VrfCurve.evalAt_smul_generator, values]
    rfl
  have nonzero : ∀ id ≤ context.committeeSize, evalAt (coefficients.map (· • curve.generator)) (id : Scalar) ≠ 0 :=
    fun id inside => by
      rw [points]
      exact VrfCurve.smul_generator_eq_zero.not.mpr (finite id inside)
  refine ⟨⟨coefficients.map (· • curve.generator), context.committeeSize, ?_, ?_, dealing.size_lt, ?_, ?_⟩, ?_, ?_, rfl,
    points, ?_⟩
  · exact List.ne_nil_of_length_pos (by rw [List.length_map, length]; omega)
  · rw [List.length_map, length]
    exact bounds.2
  · exact_mod_cast nonzero 0 (Nat.zero_le _)
  · exact fun id _ inside => nonzero id inside
  · rw [SharedKey.threshold, List.length_map, length]
  · rw [SharedKey.publicKey, SharedKey.point, points, publicKey]
  · intro wire member
    rw [shares, numberedShares] at member
    obtain ⟨index, inside, rfl⟩ := List.mem_map.mp member
    have small := dealing.size_lt
    have inside := List.mem_range.mp inside
    have number : (UInt64.ofNat (index + 1)).toNat = index + 1 :=
      UInt64.toNat_ofNat_of_lt' (show index + 1 < 2 ^ 64 by omega)
    rw [RabbitVRFVerificationShareV1.verification, SharedKey.share, SharedKey.point, number, points]
    exact ⟨by omega, inside, rfl⟩

/-- From dealt polynomials to a signature: a member signs with the sum of what it was dealt and passes against the
keyset, and every threshold of verified partial signatures combines to the one signature of the threshold key. -/
theorem generated_key_signs (dealing : DealerSet curve crypto context) (keyset : FinalKeyset)
    (run : rabbitVRFDKGFinalKeysetV1 curve crypto context dealing.commitments = .ok keyset) (message : Bytes)
    (hashed : G2) (nonempty : message ≠ []) (hash : curve.hashToG2 message = some hashed) (finite : hashed ≠ 0) :
    (∀ wire ∈ keyset.verificationShares, ∀ evaluations, List.Forall₂ (fun dealer evaluation =>
        verifyRabbitVRFDKGPrivateEvaluationV1 curve crypto context dealer.commitment wire.shareID.toNat evaluation =
          .ok ())
        dealing.dealers evaluations →
      ∃ share signed verified, aggregateDKGPolynomialEvaluationsV1 wire.shareID.toNat evaluations = .ok share ∧
        curve.signPartial share message = .ok signed ∧
        curve.verifyPartial crypto wire.verification message signed = .ok verified) ∧
    ∃ signature, curve.verify keyset.thresholdPublicKey message signature = .ok () ∧
      ∀ partials, (partials.map (·.shareID)).Nodup →
        (∀ verified ∈ partials, ∃ wire ∈ keyset.verificationShares, ∃ signed,
          curve.verifyPartial crypto wire.verification message signed = .ok verified) →
        context.threshold ≤ partials.length →
        curve.combineVerifiedPartials crypto keyset.thresholdPublicKey message partials context.threshold =
          .ok signature := by
  obtain ⟨key, threshold, publicKey, size, points, wires⟩ := dealing.exists_sharedKey run
  refine ⟨fun wire member evaluations verified => ?_, ?_⟩
  · obtain ⟨positive, inside, shown⟩ := wires wire member
    have secret := (dealing.finalKeyset_ok_iff.mp run).1 _ inside
    obtain ⟨share, aggregated, id, scalar, _⟩ := dealing.secret_ok (by omega) inside verified secret
    obtain ⟨signed, verified, signs, passes⟩ := curve.signPartial_verifies crypto share nonempty hash finite
    rw [id, scalar, ← points] at passes
    exact ⟨share, signed, verified, aggregated, signs, shown ▸ passes⟩
  · obtain ⟨point, signs⟩ := VrfCurve.exists_signs nonempty key.point_zero_ne hash finite
    rw [← publicKey, ← threshold]
    refine ⟨curve.encodeG2 point, VrfCurve.verify_ok_iff.mpr ⟨_, _, rfl, rfl, signs⟩,
      fun partials distinct each enough => ?_⟩
    have list : key.VerifiedList curve crypto message partials := ⟨distinct, fun verified member => by
      obtain ⟨wire, listed, signed, run⟩ := each verified member
      obtain ⟨positive, inside, shown⟩ := wires wire listed
      exact ⟨_, signed, positive, size ▸ inside, shown ▸ run⟩⟩
    obtain ⟨combined, combinedSigns, ran⟩ := SharedKey.combine_ok enough list
    obtain rfl := signs.unique combinedSigns
    exact ran

/-- The members four, one and three sign with the key of four dealers. -/
theorem generated_key_signs_quadratics :
    ∃ (dealing : DealerSet plainCurve plainCrypto fourContext) (keyset : FinalKeyset) (signature : VrfSignature)
        (partials : List VerifiedPartialSignature),
      rabbitVRFDKGFinalKeysetV1 plainCurve plainCrypto fourContext dealing.commitments = .ok keyset ∧
      plainCurve.verify keyset.thresholdPublicKey [1] signature = .ok () ∧ partials.map (·.shareID) = [4, 1, 3] ∧
      plainCurve.combineVerifiedPartials plainCrypto keyset.thresholdPublicKey [1] partials 3 = .ok signature := by
  obtain ⟨dealing, polynomials⟩ := exists_quadratics
  have value : dealing.value = dealtValue quadratics := by
    funext id
    rw [DealerSet.value, polynomials]
  obtain ⟨keyset, run⟩ := dealing.finalKeyset_exists plainCrypto_keccak256_ne_zero (value ▸ quadratics_ne_zero)
  obtain ⟨_, signature, verifies, combines⟩ := generated_key_signs dealing keyset run [1] 1 (by simp) rfl one_ne_zero
  have shares : keyset.verificationShares = [1, 2, 3, 4].map (quadraticKey.wireShare plainCurve) := by
    rw [(dealing.finalKeyset_ok_iff.mp run).2.2.1, value]
    decide +kernel
  have wires : ∀ id ∈ [4, 1, 3], id ∈ [1, 2, 3, 4, 5] ∧
      quadraticKey.wireShare plainCurve id ∈ [1, 2, 3, 4].map (quadraticKey.wireShare plainCurve) ∧
      (quadraticKey.wireShare plainCurve id).verification.shareID = id := by
    decide +kernel
  have verified : ∀ verified ∈ [4, 1, 3].map quadraticPartial, ∃ wire ∈ keyset.verificationShares, ∃ signed,
      plainCurve.verifyPartial plainCrypto wire.verification [1] signed = .ok verified := by
    intro verified member
    obtain ⟨id, listed, rfl⟩ := List.mem_map.mp member
    obtain ⟨known, shared, number⟩ := wires id listed
    have wire : (quadraticKey.wireShare plainCurve id).verification = quadraticKey.share plainCurve id :=
      congrArg (VerificationShare.mk · (plainCurve.encodeG1 (quadraticKey.point id))) number
    exact ⟨_, shares ▸ shared, _, wire ▸ (quadraticPartial_verifies id known).2.2⟩
  exact ⟨dealing, keyset, signature, _, run, verifies, rfl, combines _ (by decide) verified (by decide)⟩

end RabbitLqc
