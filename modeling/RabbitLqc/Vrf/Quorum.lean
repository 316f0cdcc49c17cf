import RabbitLqc.Lib.Quorum
import RabbitLqc.Lib.RlpCommit
import RabbitLqc.Vrf.Keyset

/-!
# Certificates of one session

A certificate carries the signatures of a threshold of its committee. Any two thresholds share more
members than may be faulty, so two certificates of one session were both signed by a member that
signs only once.
-/

namespace RabbitLqc
open Lib RlpCodec

/-! ### Signers -/

theorem KeysetCertificatePayload.item_injective : Function.Injective KeysetCertificatePayload.item := by
  intro left right same
  simp only [KeysetCertificatePayload.item, Rlp.Item.list.injEq, List.cons.injEq, toItem_inj, and_true,
    true_and] at same
  obtain ⟨version, session, root, key, transcript, samples⟩ := same
  cases left
  cases right
  simp_all

def SignedAt (crypto : Crypto) (members : List RabbitVRFCommitteeMemberV1)
    (certificate : RabbitVRFKeysetCertificateV1) (payloadHash : Hash) (position : Nat) : Prop :=
  ∃ member signature, members[position]? = some member ∧ certificate.signatures[position]? = some signature ∧
    crypto.recoverChecked (certificateSigningHash crypto certificate.sessionID (position + 1) member.participant
      payloadHash) signature = some member.participant

open Classical in
noncomputable def certificateSigners (crypto : Crypto) (members : List RabbitVRFCommitteeMemberV1)
    (certificate : RabbitVRFKeysetCertificateV1) (payloadHash : Hash) : Finset (Fin members.length) :=
  Finset.univ.filter fun position => SignedAt crypto members certificate payloadHash position

theorem mem_certificateSigners {crypto : Crypto} {members : List RabbitVRFCommitteeMemberV1}
    {certificate : RabbitVRFKeysetCertificateV1} {payloadHash : Hash} {position : Fin members.length} :
    position ∈ certificateSigners crypto members certificate payloadHash ↔
      SignedAt crypto members certificate payloadHash position := by
  simp [certificateSigners]

variable {crypto : Crypto} {bls : Bls} {context : RabbitVRFDKGSessionContextV1}
  {members : List RabbitVRFCommitteeMemberV1} {certificate left right : RabbitVRFKeysetCertificateV1}

structure CertificateAccepted (crypto : Crypto) (bls : Bls) (context : RabbitVRFDKGSessionContextV1)
    (members : List RabbitVRFCommitteeMemberV1) (certificate : RabbitVRFKeysetCertificateV1) (payloadHash : Hash) :
    Prop where
  size : members.length = context.committeeSize
  slots : certificate.signatures.length = members.length
  shares : certificateSharesOk crypto bls context certificate
  hashed : rabbitVRFKeysetCertificatePayloadHashV1 crypto bls context certificate = some payloadHash
  signed : ∀ position member signature, members[position]? = some member →
    certificate.signatures[position]? = some signature → signature.length ≠ 0 →
    SignedAt crypto members certificate payloadHash position
  enough : context.threshold ≤ certificate.signatures.countP (·.length ≠ 0)

theorem validateRabbitVRFKeysetCertificateV1_ok {u : Unit}
    (valid : validateRabbitVRFKeysetCertificateV1 crypto bls context members certificate = .ok u) :
    ∃ payloadHash, CertificateAccepted crypto bls context members certificate payloadHash := by
  unfold validateRabbitVRFKeysetCertificateV1 at valid
  obtain ⟨_, sizes, valid⟩ := bind_ok valid
  obtain ⟨_, shares, valid⟩ := bind_ok valid
  rw [ensure_ok_iff] at sizes shares
  split at valid
  · cases valid
  · rename_i payloadHash hashed
    simp only [bind_ok_iff, ensure_ok_iff, exists_unit] at valid
    obtain ⟨slotsOk, enough⟩ := valid
    refine ⟨payloadHash, sizes.1, sizes.2.trans sizes.1.symm, shares, hashed, ?_, enough⟩
    intro position member signature memberAt signatureAt written
    have listed : ((member, signature), position) ∈ (members.zip certificate.signatures).zipIdx := by
      rw [List.mk_mem_zipIdx_iff_getElem?, List.getElem?_zip_eq_some]
      exact ⟨memberAt, signatureAt⟩
    have slot := List.all_eq_true.mp slotsOk _ listed
    simp only [certificateSlotOk, Bool.and_eq_true, Bool.or_eq_true, decide_eq_true_eq] at slot
    obtain ⟨_, empty | ⟨_, recovered⟩⟩ := slot
    · exact absurd (List.isEmpty_iff_length_eq_zero.mp empty) written
    · exact ⟨member, signature, memberAt, signatureAt, recovered⟩

/-! ### Two certificates -/

theorem RabbitVRFDKGSessionContextV1.valid_majority (valid : context.valid) :
    context.committeeSize + context.maxFaults + 1 ≤ 2 * context.threshold := by
  simp only [RabbitVRFDKGSessionContextV1.valid, decide_eq_true_eq] at valid
  obtain ⟨_, _, _, _, nonempty, policy⟩ := valid
  unfold rabbitVRFThresholdPolicyV1 at policy
  dsimp only at policy
  split at policy
  · cases policy
  · obtain ⟨threshold, faults⟩ := Prod.mk.inj (Option.some.inj policy)
    omega

theorem certificateSharesOk_valid (shares : certificateSharesOk crypto bls context certificate) :
    context.valid := by
  simp only [certificateSharesOk, Bool.and_eq_true, decide_eq_true_eq] at shares
  exact shares.1.1

theorem rabbitVRFKeysetCertificatePayloadHashV1_some {payloadHash : Hash}
    (hashed : rabbitVRFKeysetCertificatePayloadHashV1 crypto bls context certificate = some payloadHash) :
    crypto.keccak256 (Rlp.encode certificate.payload.item) = payloadHash := by
  unfold rabbitVRFKeysetCertificatePayloadHashV1 at hashed
  obtain ⟨_, _, hashed⟩ := Option.bind_eq_some_iff.mp hashed
  dsimp only at hashed
  split at hashed
  · exact Option.some.inj hashed
  · cases hashed

namespace CertificateAccepted

variable {payloadHash leftHash rightHash : Hash}

theorem threshold_le (accepted : CertificateAccepted crypto bls context members certificate payloadHash) :
    context.threshold ≤ (certificateSigners crypto members certificate payloadHash).card := by
  apply accepted.enough.trans
  apply countP_le_card accepted.slots
  intro position signature signatureAt written
  rw [mem_certificateSigners]
  exact accepted.signed position _ signature (List.getElem?_eq_getElem position.isLt) signatureAt
    (of_decide_eq_true written)

theorem common_signers (accepted : CertificateAccepted crypto bls context members left leftHash)
    (other : CertificateAccepted crypto bls context members right rightHash) :
    context.maxFaults + 1 ≤
      (certificateSigners crypto members left leftHash ∩ certificateSigners crypto members right rightHash).card := by
  have majority := RabbitVRFDKGSessionContextV1.valid_majority (certificateSharesOk_valid accepted.shares)
  have overlap := card_add_card_le_inter (certificateSigners crypto members left leftHash)
    (certificateSigners crypto members right rightHash)
  rw [Fintype.card_fin] at overlap
  have size := accepted.size
  have first := accepted.threshold_le
  have second := other.threshold_le
  omega

end CertificateAccepted

/-- Any two accepted certificates of a session were both signed by more members than the session
tolerates as faulty. So when at most that many members are faulty, and each other member signed at
most one payload, the certificates carry the same payload. -/
theorem keyset_certificates_intersect (crypto : Crypto) (bls : Bls) (context : RabbitVRFDKGSessionContextV1)
    (members : List RabbitVRFCommitteeMemberV1) (left right : RabbitVRFKeysetCertificateV1)
    (leftOk : validateRabbitVRFKeysetCertificateV1 crypto bls context members left = .ok ())
    (rightOk : validateRabbitVRFKeysetCertificateV1 crypto bls context members right = .ok ()) :
    ∃ leftHash rightHash,
      rabbitVRFKeysetCertificatePayloadHashV1 crypto bls context left = some leftHash ∧
      rabbitVRFKeysetCertificatePayloadHashV1 crypto bls context right = some rightHash ∧
      context.maxFaults + 1 ≤
        (certificateSigners crypto members left leftHash ∩ certificateSigners crypto members right rightHash).card ∧
      ∀ faulty : Finset (Fin members.length), faulty.card ≤ context.maxFaults →
        (∀ position ∉ faulty, SignedAt crypto members left leftHash position →
          SignedAt crypto members right rightHash position → leftHash = rightHash) →
        Rlp.Separated crypto.keccak256 left.payload.item right.payload.item → left.payload = right.payload := by
  obtain ⟨leftHash, accepted⟩ := validateRabbitVRFKeysetCertificateV1_ok leftOk
  obtain ⟨rightHash, other⟩ := validateRabbitVRFKeysetCertificateV1_ok rightOk
  have common := accepted.common_signers other
  refine ⟨leftHash, rightHash, accepted.hashed, other.hashed, common, ?_⟩
  intro faulty few once separated
  -- one of the common signers is not faulty
  obtain ⟨position, signed, correct⟩ := Finset.exists_mem_notMem_of_card_lt_card
    (lt_of_le_of_lt few (Nat.lt_of_succ_le common))
  rw [Finset.mem_inter, mem_certificateSigners, mem_certificateSigners] at signed
  have same : leftHash = rightHash := once position correct signed.1 signed.2
  apply KeysetCertificatePayload.item_injective
  apply separated.eq
  rw [rabbitVRFKeysetCertificatePayloadHashV1_some accepted.hashed,
    rabbitVRFKeysetCertificatePayloadHashV1_some other.hashed, same]

/-- The first members certify one transcript and the last another: 44 of the 128 signed both. -/
theorem keyset_certificates_intersect_conflicting : ∃ left right leftHash rightHash,
    validateRabbitVRFKeysetCertificateV1 plainCrypto plainBls fullContext fullMembers left = .ok () ∧
    validateRabbitVRFKeysetCertificateV1 plainCrypto plainBls fullContext fullMembers right = .ok () ∧
    left.payload ≠ right.payload ∧
    43 ≤ (certificateSigners plainCrypto fullMembers left leftHash ∩
      certificateSigners plainCrypto fullMembers right rightHash).card := by
  have recovers := fun signer hash signs small => @plainCrypto_recoverChecked signer signs small hash
  obtain ⟨_, _, leftOk⟩ := exists_signedCertificate 1 (· < 86) recovers
    plainCrypto_keccak256_ne_zero (by decide) (by decide +kernel)
  obtain ⟨_, _, rightOk⟩ := exists_signedCertificate 2 (42 ≤ ·) recovers
    plainCrypto_keccak256_ne_zero (by decide) (by decide +kernel)
  obtain ⟨leftHash, rightHash, _, _, common, _⟩ := keyset_certificates_intersect plainCrypto plainBls fullContext
    fullMembers _ _ leftOk rightOk
  refine ⟨_, _, leftHash, rightHash, leftOk, rightOk, fun same => ?_, common⟩
  have transcript : (1 : Hash) = 2 := congrArg KeysetCertificatePayload.transcriptRoot same
  exact absurd transcript (by decide)

end RabbitLqc
