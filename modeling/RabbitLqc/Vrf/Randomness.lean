import RabbitLqc.Lib.RlpCommit
import RabbitLqc.Vrf.Dkg
import RabbitLqc.Vrf.Finalization

/-!
# Finalized randomness

A finalization carries the signature of the threshold key over the request, the randomness derived from it, and
proof that a threshold of the members took part. Which members, in which round and under which certificate does
not matter for the randomness: the keyset root fixes the key, the session and the request fix the message.
-/

namespace RabbitLqc
open Lib RlpCodec

variable {context : RabbitVRFDKGSessionContextV1} {crypto : Crypto} {bls : Bls}
  {shares : List RabbitVRFVerificationShareV1} {certificate : RabbitVRFKeysetCertificateV1} {keysetRoot : Hash}

/-! ### Who took part -/

def rabbitVRFParticipationBitmapLenV1 (committeeSize : Nat) : Nat := (committeeSize + 7) / 8

/-- Whether the bit of a share is set; bits count from the low end of each byte. -/
def bitmapHas (bitmap : Bytes) (shareID : Nat) : Bool :=
  bitmap.getD ((shareID - 1) / 8) 0 &&& UInt8.ofNat (2 ^ ((shareID - 1) % 8)) != 0

def rabbitVRFParticipationShareIDsV1 (context : RabbitVRFDKGSessionContextV1) (bitmap : Bytes) : Option (List Nat) :=
  let remainder := context.committeeSize % 8
  let allowed := UInt8.ofNat (2 ^ remainder - 1)
  let shareIDs := (List.range' 1 context.committeeSize).filter (bitmapHas bitmap)
  if context.valid ∧ bitmap.length = rabbitVRFParticipationBitmapLenV1 context.committeeSize ∧
      (remainder ≠ 0 → bitmap.getLastD 0 &&& ~~~allowed = 0) ∧ shareIDs.length = context.threshold then
    some shareIDs
  else none

def rabbitVRFCompactParticipationShareIDsFromFixedBitmapV1 (context : RabbitVRFDKGSessionContextV1)
    (fixed : BitVec 128) : Option (List Nat) :=
  let bytes := fixedBytes 16 fixed.toNat
  let canonicalLen := rabbitVRFParticipationBitmapLenV1 context.committeeSize
  if context.committeeSize ≠ 0 ∧ context.committeeSize ≤ 16 * 8 ∧ 0 < canonicalLen ∧ canonicalLen ≤ bytes.length ∧
      (∀ value ∈ bytes.drop canonicalLen, value = 0) then
    rabbitVRFParticipationShareIDsV1 context (bytes.take canonicalLen)
  else none

/-! ### What is signed -/

section Messages

variable (crypto : Crypto) (context : RabbitVRFDKGSessionContextV1)

def rabbitVRFThresholdMessageV1 (keysetRoot requestID : Hash) : Option (Bytes × Hash) := do
  let sessionID ← rabbitVRFDKGSessionIDV1 crypto context
  let encoded := Rlp.encode <| .list [textItem "RABBIT-VRF-THRESHOLD-MESSAGE-V1", toItem sessionID,
    toItem keysetRoot, toItem requestID]
  let messageHash := crypto.keccak256 encoded
  if keysetRoot ≠ 0 ∧ requestID ≠ 0 ∧ messageHash ≠ 0 then some (encoded, messageHash) else none

def rabbitVRFCompactParticipationMessageV1 (keysetRoot requestID messageHash : Hash)
    (member : RabbitVRFCommitteeMemberV1) : Option (Bytes × Hash) := do
  let sessionID ← rabbitVRFDKGSessionIDV1 crypto context
  let encoded := Rlp.encode <| .list [textItem "RABBIT-VRF-COMPACT-PARTICIPATION-V1", natItem 1, toItem sessionID,
    toItem keysetRoot, toItem requestID, toItem messageHash, toItem member.shareID, toItem member.participant]
  let hash := crypto.keccak256 encoded
  if keysetRoot ≠ 0 ∧ requestID ≠ 0 ∧ messageHash ≠ 0 ∧ member.shareID ≠ 0 ∧
      member.shareID.toNat ≤ context.committeeSize ∧ member.participant ≠ 0 ∧ hash ≠ 0 then
    some (encoded, hash)
  else none

def rabbitVRFFinalizationProofHashWithParticipationV1 (requestID : Hash) (epoch round : UInt64)
    (signature : VrfSignature) (participationBitmap : BitVec 128) (participationSignature : VrfSignature) :
    Option Hash :=
  if requestID ≠ 0 ∧ epoch ≠ 0 ∧ participationBitmap ≠ 0 ∧ participationSignature ≠ 0 then
    some <| crypto.keccak256 <| Rlp.encode <| .list [textItem "RABBIT-VRF-FINALIZATION-PROOF-WITH-PARTICIPATION-V1",
      toItem requestID, toItem epoch, toItem round, toItem signature, toItem participationBitmap,
      toItem participationSignature]
  else none

end Messages

/-! ### Aggregate signatures -/

variable {G1 G2 GT : Type} [AddCommGroup G1] [Module Scalar G1] [AddCommGroup G2] [Module Scalar G2]
  [AddCommGroup GT] [Module Scalar GT] [DecidableEq G1] [DecidableEq G2] [DecidableEq GT]

namespace VrfCurve

variable (curve : VrfCurve G1 G2 GT) (crypto : Crypto)

/-- The loop over the signed shares, with the shares and message hashes already seen: what their keys and
messages pair to. -/
def aggregatePairs : List Nat → List Hash → List (VerificationShare × Bytes) → Except VrfError GT
  | _, _, [] => .ok 0
  | seenShares, seenMessages, entry :: rest => do
    ensure (entry.1.shareID ≠ 0) .invalidShareID
    ensure (entry.1.shareID ∉ seenShares) .duplicateAggregateShareV1
    ensure (entry.2 ≠ []) .invalidMessage
    let messageHash := crypto.keccak256 entry.2
    ensure (messageHash ∉ seenMessages) .duplicateAggregateMessageV1
    let publicKey ← failAs .invalidAggregateSignatureV1 (curve.decodePublicKey entry.1.publicKey)
    let hashed ← failAs .invalidAggregateSignatureV1 (curve.hashMessage entry.2)
    let others ← aggregatePairs (entry.1.shareID :: seenShares) (messageHash :: seenMessages) rest
    .ok (curve.pairing publicKey hashed + others)

def verifyAggregateDistinctMessagesV1 (verificationShares : List VerificationShare) (messages : List Bytes)
    (signature : VrfSignature) : Except VrfError Unit := do
  ensure (verificationShares ≠ [] ∧ verificationShares.length = messages.length) .invalidAggregateSignatureV1
  let aggregate ← failAs .invalidAggregateSignatureV1 (curve.decodeSignature signature)
  let pairs ← curve.aggregatePairs crypto [] [] (verificationShares.zip messages)
  ensure (pairs + curve.pairing (-curve.generator) aggregate = 0) .invalidAggregateSignatureV1

end VrfCurve

/-! ### Validation -/

section Validation

variable (curve : VrfCurve G1 G2 GT) (crypto : Crypto) (context : RabbitVRFDKGSessionContextV1)

/-- `RabbitVRFKeysetCertificateVerificationSharesV1`. -/
def certificateShares (bls : Bls) (certificate : RabbitVRFKeysetCertificateV1) :
    Option (List RabbitVRFVerificationShareV1) := do
  if certificateSharesOk crypto bls context certificate then
    let shares ← reconstructVerificationSharesV1 bls context.committeeSize context.threshold
      certificate.thresholdPublicKey certificate.verificationShareSamples
    canonicalRabbitVRFVerificationSharesV1 bls context.committeeSize shares
  else none

/-- One member's part in the proof: its verification share and the message it signed. -/
def participation (members : List RabbitVRFCommitteeMemberV1) (reconstructed : List RabbitVRFVerificationShareV1)
    (value : RabbitVRFFinalizationV1) (messageHash : Hash) (shareID : Nat) :
    Except LqcError (VerificationShare × Bytes) := do
  let member ← orFail .invalidRabbitVRFFinalizationV1 members[shareID - 1]?
  let publicShare ← orFail .invalidRabbitVRFFinalizationV1 reconstructed[shareID - 1]?
  ensure (shareID ≠ 0 ∧ member.shareID.toNat = shareID ∧ member.participant ≠ 0 ∧
    publicShare.shareID.toNat = shareID ∧ curve.bls.publicKeyOk publicShare.publicKey = true)
    .invalidRabbitVRFFinalizationV1
  let message ← orFail .invalidRabbitVRFFinalizationV1
    (rabbitVRFCompactParticipationMessageV1 crypto context value.keysetRoot value.requestID messageHash member)
  .ok (⟨shareID, publicShare.publicKey⟩, message.1)

def validateRabbitVRFFinalizationProofV1 (members : List RabbitVRFCommitteeMemberV1)
    (certificate : RabbitVRFKeysetCertificateV1) (value : RabbitVRFFinalizationV1) : Except LqcError Unit := do
  value.validate
  ensure (members.length = context.committeeSize) .invalidRabbitVRFFinalizationV1
  validateRabbitVRFKeysetCertificateShapeV1 curve.bls certificate
  ensure (value.keysetRoot = certificate.keysetRoot ∧ value.epoch.toNat = context.targetVRFEpoch)
    .invalidRabbitVRFFinalizationV1
  let message ← orFail .invalidRabbitVRFFinalizationV1
    (rabbitVRFThresholdMessageV1 crypto context value.keysetRoot value.requestID)
  let randomness ← failAs .invalidRabbitVRFFinalizationV1
    (curve.verifyAndDeriveRandomness crypto certificate.thresholdPublicKey message.1 value.signature)
  ensure (randomness = value.randomness) .invalidRabbitVRFFinalizationV1
  let shareIDs ← orFail .invalidRabbitVRFFinalizationV1
    (rabbitVRFCompactParticipationShareIDsFromFixedBitmapV1 context value.participationBitmap)
  ensure (shareIDs.length = context.threshold) .invalidRabbitVRFFinalizationV1
  let reconstructed ← orFail .invalidRabbitVRFFinalizationV1 (certificateShares crypto context curve.bls certificate)
  ensure (reconstructed.length = context.committeeSize) .invalidRabbitVRFFinalizationV1
  let parts ← shareIDs.mapM (participation curve crypto context members reconstructed value message.2)
  failAs .invalidRabbitVRFFinalizationV1 (curve.verifyAggregateDistinctMessagesV1 crypto (parts.map (·.1))
    (parts.map (·.2)) value.participationAggregateSignature)
  let proofHash ← orFail .invalidRabbitVRFFinalizationV1 (rabbitVRFFinalizationProofHashWithParticipationV1 crypto
    value.requestID value.epoch value.round value.signature value.participationBitmap
    value.participationAggregateSignature)
  ensure (proofHash = value.proofHash) .invalidRabbitVRFFinalizationV1

end Validation

/-! ### One randomness -/

def RabbitVRFKeysetCertificateV1.keysetItem (crypto : Crypto) (bls : Bls) (context : RabbitVRFDKGSessionContextV1)
    (certificate : RabbitVRFKeysetCertificateV1) : Rlp.Item :=
  keysetRootItem context certificate.thresholdPublicKey certificate.transcriptRoot
    ((certificateShares crypto context bls certificate).getD [])

theorem thresholdPublicKey_of_keysetRootItem {leftKey rightKey : VrfPublicKey} {leftTranscript rightTranscript : Hash}
    {leftShares rightShares : List RabbitVRFVerificationShareV1}
    (same : keysetRootItem context leftKey leftTranscript leftShares =
        keysetRootItem context rightKey rightTranscript rightShares) : leftKey = rightKey := by
  simp only [keysetRootItem, Rlp.Item.list.injEq, List.cons.injEq, toItem_inj, and_true, true_and] at same
  exact same.1

theorem rabbitVRFKeysetRootV1_some {thresholdPublicKey : VrfPublicKey} {transcriptRoot root : Hash}
    (rooted : rabbitVRFKeysetRootV1 crypto bls context thresholdPublicKey transcriptRoot shares = some root) :
    ∃ canonical, canonicalRabbitVRFVerificationSharesV1 bls context.committeeSize shares = some canonical ∧
      crypto.keccak256 (Rlp.encode (keysetRootItem context thresholdPublicKey transcriptRoot canonical)) = root := by
  unfold rabbitVRFKeysetRootV1 at rooted
  obtain ⟨canonical, sorted, rooted⟩ := Option.bind_eq_some_iff.mp rooted
  dsimp only at rooted
  split at rooted
  · exact ⟨canonical, sorted, Option.some.inj rooted⟩
  · cases rooted

theorem keysetRoot_eq (given : certificateShares crypto context bls certificate = some shares) :
    crypto.keccak256 (Rlp.encode (certificate.keysetItem crypto bls context)) = certificate.keysetRoot := by
  unfold RabbitVRFKeysetCertificateV1.keysetItem
  rw [given, Option.getD_some]
  unfold certificateShares at given
  split at given
  · rename_i checked
    obtain ⟨all, rebuilt, sorted⟩ := Option.bind_eq_some_iff.mp given
    simp only [certificateSharesOk, rebuilt, Bool.and_eq_true, decide_eq_true_eq] at checked
    obtain ⟨canonical, again, root⟩ := rabbitVRFKeysetRootV1_some checked.2.2
    obtain rfl := Option.some.inj (sorted.symm.trans again)
    exact root
  · cases given

/-- What a finalization that passes its proof check shows. -/
structure FinalizationProved (curve : VrfCurve G1 G2 GT) (crypto : Crypto) (context : RabbitVRFDKGSessionContextV1)
    (certificate : RabbitVRFKeysetCertificateV1) (value : RabbitVRFFinalizationV1) : Prop where
  root : value.keysetRoot = certificate.keysetRoot
  shares : ∃ shares, certificateShares crypto context curve.bls certificate = some shares
  derived : ∃ message, rabbitVRFThresholdMessageV1 crypto context value.keysetRoot value.requestID = some message ∧
    curve.verifyAndDeriveRandomness crypto certificate.thresholdPublicKey message.1 value.signature =
      .ok value.randomness

theorem validateRabbitVRFFinalizationProofV1_ok {curve : VrfCurve G1 G2 GT}
    {members : List RabbitVRFCommitteeMemberV1} {value : RabbitVRFFinalizationV1} {u : Unit}
    (run : validateRabbitVRFFinalizationProofV1 curve crypto context members certificate value = .ok u) :
    FinalizationProved curve crypto context certificate value := by
  simp only [validateRabbitVRFFinalizationProofV1, bind_ok_iff, exists_unit, ensure_ok_iff, orFail_ok_iff,
    failAs_ok_iff] at run
  obtain ⟨_, _, _, ⟨root, _⟩, message, written, randomness, derived, rfl, _, _, _, shares, rebuilt, _⟩ := run
  exact ⟨root, ⟨shares, rebuilt⟩, message, written, derived⟩

/-- All finalizations of one request under one keyset root carry the same randomness, whoever took part, in
whichever round, and whichever certificates of the session they were checked against. -/
theorem randomness_unique (curve : VrfCurve G1 G2 GT) (crypto : Crypto) (context : RabbitVRFDKGSessionContextV1)
    (members : List RabbitVRFCommitteeMemberV1) (keysetRoot requestID : Hash)
    (leftCertificate rightCertificate : RabbitVRFKeysetCertificateV1) (left right : RabbitVRFFinalizationV1)
    (leftOf : left.keysetRoot = keysetRoot ∧ left.requestID = requestID)
    (rightOf : right.keysetRoot = keysetRoot ∧ right.requestID = requestID)
    (leftOk : validateRabbitVRFFinalizationProofV1 curve crypto context members leftCertificate left = .ok ())
    (rightOk : validateRabbitVRFFinalizationProofV1 curve crypto context members rightCertificate right = .ok ())
    (separated : Rlp.Separated crypto.keccak256 (leftCertificate.keysetItem crypto curve.bls context)
      (rightCertificate.keysetItem crypto curve.bls context)) : left.randomness = right.randomness := by
  obtain ⟨leftRoot, ⟨_, leftShares⟩, leftMessage, leftWritten, leftDerived⟩ :=
    validateRabbitVRFFinalizationProofV1_ok leftOk
  obtain ⟨rightRoot, ⟨_, rightShares⟩, rightMessage, rightWritten, rightDerived⟩ :=
    validateRabbitVRFFinalizationProofV1_ok rightOk
  -- the root fixes the key
  have roots : leftCertificate.keysetRoot = rightCertificate.keysetRoot := by
    rw [← leftRoot, ← rightRoot, leftOf.1, rightOf.1]
  have keys : leftCertificate.thresholdPublicKey = rightCertificate.thresholdPublicKey := by
    apply thresholdPublicKey_of_keysetRootItem
    apply separated.eq
    rw [keysetRoot_eq leftShares, keysetRoot_eq rightShares, roots]
  -- the session and the request fix the message
  rw [leftOf.1, leftOf.2] at leftWritten
  rw [rightOf.1, rightOf.2, leftWritten] at rightWritten
  obtain rfl := Option.some.inj rightWritten
  rw [← keys] at rightDerived
  obtain ⟨_, leftValid, leftRandomness⟩ := bind_ok leftDerived
  obtain ⟨_, rightValid, rightRandomness⟩ := bind_ok rightDerived
  rw [VrfCurve.verify_unique leftValid rightValid] at leftRandomness
  exact Except.ok.inj (leftRandomness.symm.trans rightRandomness)

/-! ### A committee of four -/

def fourMembers : List RabbitVRFCommitteeMemberV1 :=
  [1, 2, 3, 4].map fun id => ⟨UInt64.ofNat id, 1, BitVec.ofNat 160 id⟩

def quadraticRoot : Hash :=
  (rabbitVRFKeysetRootV1 plainCrypto plainCurve.bls fourContext (quadraticKey.publicKey plainCurve) 1
    ([1, 2, 3, 4].map (quadraticKey.wireShare plainCurve))).getD 0

def quadraticCertificate : RabbitVRFKeysetCertificateV1 where
  version := 1
  sessionID := 1
  keysetRoot := quadraticRoot
  thresholdPublicKey := quadraticKey.publicKey plainCurve
  transcriptRoot := 1
  verificationShareSamples := [1, 2, 3].map (quadraticKey.wireShare plainCurve)
  signatures := List.replicate 4 []

/-- The members one, three and four take part. -/
def quadraticBitmap : BitVec 128 := BitVec.ofNat 128 (13 * 2 ^ 120)

def quadraticSignature : VrfSignature := plainCurve.encodeG2 (quadraticKey.point 0)

def quadraticParts : VrfSignature :=
  plainCurve.encodeG2 (quadraticKey.point 1 + quadraticKey.point 3 + quadraticKey.point 4)

def quadraticRandomness : Option Hash := do
  let message ← rabbitVRFThresholdMessageV1 plainCrypto fourContext quadraticRoot 1
  (plainCurve.verifyAndDeriveRandomness plainCrypto (quadraticKey.publicKey plainCurve) message.1
    quadraticSignature).toOption

def quadraticFinalization (round : UInt64) : RabbitVRFFinalizationV1 where
  version := 1
  requestID := 1
  keysetRoot := quadraticRoot
  epoch := 1
  round
  randomness := quadraticRandomness.getD 0
  proofHash := (rabbitVRFFinalizationProofHashWithParticipationV1 plainCrypto 1 1 round quadraticSignature
    quadraticBitmap quadraticParts).getD 0
  signature := quadraticSignature
  participationBitmap := quadraticBitmap
  participationAggregateSignature := quadraticParts

theorem quadraticFinalization_request (round : UInt64) :
    (quadraticFinalization round).keysetRoot = quadraticRoot ∧ (quadraticFinalization round).requestID = 1 := by
  simp only [quadraticFinalization, and_self]

/-- Two rounds of one request. -/
theorem randomness_unique_rounds : ∃ first second : RabbitVRFFinalizationV1, first.round ≠ second.round ∧
    validateRabbitVRFFinalizationProofV1 plainCurve plainCrypto fourContext fourMembers quadraticCertificate first =
      .ok () ∧
    validateRabbitVRFFinalizationProofV1 plainCurve plainCrypto fourContext fourMembers quadraticCertificate second =
      .ok () ∧
    first.randomness = second.randomness := by
  have valid : (validateRabbitVRFFinalizationProofV1 plainCurve plainCrypto fourContext fourMembers quadraticCertificate
        (quadraticFinalization 1) = .ok ()) ∧
      validateRabbitVRFFinalizationProofV1 plainCurve plainCrypto fourContext fourMembers quadraticCertificate
        (quadraticFinalization 2) = .ok () := by
    decide +kernel
  refine ⟨_, _, (by decide : (1 : UInt64) ≠ 2), valid.1, valid.2, ?_⟩
  exact randomness_unique plainCurve plainCrypto fourContext fourMembers quadraticRoot 1 _ _
    (quadraticFinalization 1) (quadraticFinalization 2) (quadraticFinalization_request 1)
    (quadraticFinalization_request 2) valid.1 valid.2 (Rlp.Separated.refl (by decide +kernel))

end RabbitLqc
