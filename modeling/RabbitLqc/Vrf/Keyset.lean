import RabbitLqc.Header.RegistryExtra
import RabbitLqc.Lib.Words

/-!
# Randomness keysets

A committee that finished its key generation certifies the keyset in a header: a threshold key,
enough verification shares to rebuild the others, and one signature slot per member. The curve
arithmetic behind the shares is a parameter.
-/

namespace RabbitLqc
open Lib RlpCodec

abbrev VrfPublicKey := BitVec 384

abbrev VrfSignature := BitVec 768

/-- The pairing-curve operations of the randomness protocol. -/
structure Bls where
  /-- `decodePublicKey` accepts the bytes. -/
  publicKeyOk : VrfPublicKey → Bool
  /-- `interpolateVerificationPublicKeyAtV1`: the key at a target, from keys at other points. -/
  interpolate : Nat → List (Nat × VrfPublicKey) → Option VrfPublicKey

/-! ### Sessions -/

structure RabbitVRFDKGSessionContextV1 where
  version : UInt8
  chainID : Nat
  targetVRFEpoch : Nat
  committeeRoot : Hash
  committeeSize : Nat
  threshold : Nat
  maxFaults : Nat

def rabbitVRFThresholdPolicyV1 (committeeSize : Nat) : Option (Nat × Nat) :=
  let maxFaults := (committeeSize - 1) / 3
  let threshold := committeeSize - maxFaults
  if committeeSize = 0 ∨ threshold = 0 ∨ committeeSize < threshold ∨ threshold ≤ maxFaults then none
  else some (threshold, maxFaults)

def RabbitVRFDKGSessionContextV1.valid (context : RabbitVRFDKGSessionContextV1) : Bool :=
  context.version = 1 ∧ context.chainID ≠ 0 ∧ context.targetVRFEpoch ≠ 0 ∧
    context.committeeRoot ≠ 0 ∧ context.committeeSize ≠ 0 ∧
    rabbitVRFThresholdPolicyV1 context.committeeSize = some (context.threshold, context.maxFaults)

def rabbitVRFDKGSessionIDV1 (crypto : Crypto) (context : RabbitVRFDKGSessionContextV1) :
    Option Hash :=
  let sessionID := crypto.keccak256 <| Rlp.encode <| .list [textItem "RABBIT-VRF-DKG-SESSION-V1",
    toItem context.version, natItem context.chainID, natItem context.targetVRFEpoch,
    toItem context.committeeRoot, natItem context.committeeSize, natItem context.threshold,
    natItem context.maxFaults]
  if context.valid ∧ sessionID ≠ 0 then some sessionID else none

/-! ### Keysets -/

structure RabbitVRFVerificationShareV1 where
  shareID : UInt64
  publicKey : VrfPublicKey
  deriving DecidableEq, Repr

instance : RlpCodec RabbitVRFVerificationShareV1 where
  toItem share := .list [toItem share.shareID, toItem share.publicKey]
  ofItem
    | .list [shareID, publicKey] => do some ⟨← ofItem shareID, ← ofItem publicKey⟩
    | _ => none
  ofItem_toItem share := by simp

def canonicalRabbitVRFVerificationSharesV1 (bls : Bls) (committeeSize : Nat)
    (input : List RabbitVRFVerificationShareV1) : Option (List RabbitVRFVerificationShareV1) :=
  if committeeSize ≠ 0 ∧ input ≠ [] ∧ input.length ≤ committeeSize ∧
      (input.map (·.shareID)).Nodup ∧
      (∀ share ∈ input, share.shareID ≠ 0 ∧ share.shareID.toNat ≤ committeeSize ∧
        bls.publicKeyOk share.publicKey) then
    some (sortOn (·.shareID.toNat) input)
  else none

def keysetRootItem (context : RabbitVRFDKGSessionContextV1) (thresholdPublicKey : VrfPublicKey) (transcriptRoot : Hash)
    (shares : List RabbitVRFVerificationShareV1) : Rlp.Item :=
  .list [textItem "RABBIT-VRF-KEYSET-ROOT-V1", natItem 1, natItem context.chainID, natItem context.targetVRFEpoch,
    toItem context.committeeRoot, natItem context.committeeSize, natItem context.threshold,
    toItem thresholdPublicKey, toItem transcriptRoot, toItem shares]

def rabbitVRFKeysetRootV1 (crypto : Crypto) (bls : Bls) (context : RabbitVRFDKGSessionContextV1)
    (thresholdPublicKey : VrfPublicKey) (transcriptRoot : Hash)
    (verificationShares : List RabbitVRFVerificationShareV1) : Option Hash := do
  let canonical ← canonicalRabbitVRFVerificationSharesV1 bls context.committeeSize verificationShares
  let root := crypto.keccak256 <| Rlp.encode <| keysetRootItem context thresholdPublicKey transcriptRoot canonical
  if context.chainID ≠ 0 ∧ context.targetVRFEpoch ≠ 0 ∧ context.committeeRoot ≠ 0 ∧
      context.committeeSize ≠ 0 ∧ context.threshold ≠ 0 ∧ transcriptRoot ≠ 0 ∧
      bls.publicKeyOk thresholdPublicKey ∧ context.threshold ≤ canonical.length ∧ root ≠ 0 then
    some root
  else none

/-- `ReconstructVerificationSharesV1`: the share of every member from a threshold of them. -/
def reconstructVerificationSharesV1 (bls : Bls) (committeeSize threshold : Nat)
    (thresholdPublicKey : VrfPublicKey) (samples : List RabbitVRFVerificationShareV1) :
    Option (List RabbitVRFVerificationShareV1) :=
  let points := (sortOn (·.shareID.toNat) samples).map fun share => (share.shareID.toNat, share.publicKey)
  if committeeSize ≠ 0 ∧ 0 < threshold ∧ threshold ≤ committeeSize ∧ samples.length = threshold ∧
      bls.publicKeyOk thresholdPublicKey ∧ (samples.map (·.shareID)).Nodup ∧
      (∀ share ∈ samples, share.shareID ≠ 0 ∧ share.shareID.toNat ≤ committeeSize ∧
        bls.publicKeyOk share.publicKey) ∧
      bls.interpolate 0 points = some thresholdPublicKey then
    (List.range committeeSize).mapM fun index => do
      let publicKey ← bls.interpolate (index + 1) points
      if bls.publicKeyOk publicKey then some ⟨UInt64.ofNat (index + 1), publicKey⟩ else none
  else none

/-! ### Certificates -/

structure RabbitVRFKeysetCertificateV1 where
  version : UInt8
  sessionID : Hash
  keysetRoot : Hash
  thresholdPublicKey : VrfPublicKey
  transcriptRoot : Hash
  verificationShareSamples : List RabbitVRFVerificationShareV1
  signatures : List Bytes
  deriving DecidableEq

instance : RlpCodec RabbitVRFKeysetCertificateV1 where
  toItem certificate := .list [toItem certificate.version, toItem certificate.sessionID,
    toItem certificate.keysetRoot, toItem certificate.thresholdPublicKey,
    toItem certificate.transcriptRoot, toItem certificate.verificationShareSamples,
    toItem certificate.signatures]
  ofItem
    | .list [version, sessionID, keysetRoot, thresholdPublicKey, transcriptRoot, samples,
        signatures] => do
      some ⟨← ofItem version, ← ofItem sessionID, ← ofItem keysetRoot, ← ofItem thresholdPublicKey,
        ← ofItem transcriptRoot, ← ofItem samples, ← ofItem signatures⟩
    | _ => none
  ofItem_toItem certificate := by simp

structure RabbitVRFCommitteeMemberV1 where
  shareID : UInt64
  ticketHash : Hash
  participant : Address
  deriving DecidableEq, Repr

def samplesInOrder (bls : Bls) (samples : List RabbitVRFVerificationShareV1) : Bool :=
  decide (samples.map (·.shareID.toNat) = List.range' 1 samples.length) &&
    samples.all fun sample => bls.publicKeyOk sample.publicKey

def signatureSlotOk (signature : Bytes) : Bool :=
  signature.length = 0 ∨ signature.length = signatureLength

def validateRabbitVRFKeysetCertificateShapeV1 (bls : Bls)
    (certificate : RabbitVRFKeysetCertificateV1) : Except LqcError Unit :=
  ensure (certificate.version = 1 ∧ certificate.sessionID ≠ 0 ∧ certificate.keysetRoot ≠ 0 ∧
    certificate.transcriptRoot ≠ 0 ∧ certificate.verificationShareSamples ≠ [] ∧
    certificate.signatures ≠ [] ∧ bls.publicKeyOk certificate.thresholdPublicKey ∧
    samplesInOrder bls certificate.verificationShareSamples ∧
    certificate.signatures.all signatureSlotOk) .invalidRabbitVRFKeysetCertificateV1

/-- The part of a certificate its signatures are over. -/
structure KeysetCertificatePayload where
  version : UInt8
  sessionID : Hash
  keysetRoot : Hash
  thresholdPublicKey : VrfPublicKey
  transcriptRoot : Hash
  verificationShareSamples : List RabbitVRFVerificationShareV1
  deriving DecidableEq

def KeysetCertificatePayload.item (payload : KeysetCertificatePayload) : Rlp.Item :=
  .list [textItem "RABBIT-VRF-KEYSET-CERTIFICATE-V1", toItem payload.version, toItem payload.sessionID,
    toItem payload.keysetRoot, toItem payload.thresholdPublicKey, toItem payload.transcriptRoot,
    toItem payload.verificationShareSamples]

def RabbitVRFKeysetCertificateV1.payload (certificate : RabbitVRFKeysetCertificateV1) : KeysetCertificatePayload :=
  ⟨certificate.version, certificate.sessionID, certificate.keysetRoot, certificate.thresholdPublicKey,
    certificate.transcriptRoot, certificate.verificationShareSamples⟩

def rabbitVRFKeysetCertificatePayloadHashV1 (crypto : Crypto) (bls : Bls)
    (context : RabbitVRFDKGSessionContextV1) (certificate : RabbitVRFKeysetCertificateV1) :
    Option Hash := do
  let sessionID ← rabbitVRFDKGSessionIDV1 crypto context
  let hash := crypto.keccak256 (Rlp.encode certificate.payload.item)
  if certificate.version = 1 ∧ certificate.sessionID = sessionID ∧ certificate.keysetRoot ≠ 0 ∧
      certificate.transcriptRoot ≠ 0 ∧ bls.publicKeyOk certificate.thresholdPublicKey ∧ hash ≠ 0 then
    some hash
  else none

/-- The certificate's samples rebuild the shares its keyset root commits to. -/
def certificateSharesOk (crypto : Crypto) (bls : Bls) (context : RabbitVRFDKGSessionContextV1)
    (certificate : RabbitVRFKeysetCertificateV1) : Bool :=
  let samples := certificate.verificationShareSamples
  decide (context.valid ∧ certificate.version = 1 ∧ certificate.keysetRoot ≠ 0 ∧
    certificate.transcriptRoot ≠ 0 ∧ context.threshold ≠ 0 ∧ samples.length = context.threshold ∧
    samplesInOrder bls samples ∧
    ∀ sample ∈ samples, sample.shareID.toNat ≤ context.committeeSize) &&
  match reconstructVerificationSharesV1 bls context.committeeSize context.threshold
      certificate.thresholdPublicKey samples with
  | none => false
  | some shares => shares.length = context.committeeSize ∧
      rabbitVRFKeysetRootV1 crypto bls context certificate.thresholdPublicKey
        certificate.transcriptRoot shares = some certificate.keysetRoot

/-- What a member signs to certify a keyset: a session envelope of the certificate message type. -/
def certificateSigningHash (crypto : Crypto) (sessionID : Hash) (shareID : Nat)
    (participant : Address) (payloadHash : Hash) : Hash :=
  crypto.keccak256 <| Rlp.encode <| .list [textItem "RABBIT-VRF-DKG-ENVELOPE-SIGN-V1", natItem 1,
    toItem sessionID, natItem 4, natItem shareID, toItem participant, toItem payloadHash]

/-- The slot of the member at `index`: empty, or signed by that member. -/
def certificateSlotOk (crypto : Crypto) (context : RabbitVRFDKGSessionContextV1) (sessionID payloadHash : Hash)
    (index : Nat) (member : RabbitVRFCommitteeMemberV1) (signature : Bytes) : Bool :=
  decide (member.shareID.toNat = index + 1 ∧ member.ticketHash ≠ 0 ∧ member.participant ≠ 0) &&
    (signature.isEmpty || decide (index + 1 ≤ context.committeeSize ∧
      crypto.recoverChecked (certificateSigningHash crypto sessionID (index + 1) member.participant
        payloadHash) signature = some member.participant))

def validateRabbitVRFKeysetCertificateV1 (crypto : Crypto) (bls : Bls)
    (context : RabbitVRFDKGSessionContextV1) (members : List RabbitVRFCommitteeMemberV1)
    (certificate : RabbitVRFKeysetCertificateV1) : Except LqcError Unit := do
  let invalid := LqcError.invalidRabbitVRFKeysetCertificateV1
  ensure (members.length = context.committeeSize ∧
    certificate.signatures.length = context.committeeSize) invalid
  ensure (certificateSharesOk crypto bls context certificate) invalid
  match rabbitVRFKeysetCertificatePayloadHashV1 crypto bls context certificate with
  | none => .error invalid
  | some payloadHash =>
    ensure ((members.zip certificate.signatures).zipIdx.all fun ((member, signature), index) =>
      certificateSlotOk crypto context certificate.sessionID payloadHash index member signature) invalid
    ensure (context.threshold ≤ certificate.signatures.countP (·.length ≠ 0)) invalid

/-! ### The shares of a whole committee -/

def numberedShares (count : Nat) (publicKey : Nat → VrfPublicKey) : List RabbitVRFVerificationShareV1 :=
  (List.range count).map fun index => ⟨UInt64.ofNat (index + 1), publicKey (index + 1)⟩

section Numbered

variable {count : Nat} {publicKey : Nat → VrfPublicKey}

@[simp] theorem numberedShares_length : (numberedShares count publicKey).length = count := by
  rw [numberedShares, List.length_map, List.length_range]

theorem numberedShares_ids (small : count < 2 ^ 64) :
    (numberedShares count publicKey).map (·.shareID.toNat) = List.range' 1 count := by
  unfold numberedShares
  rw [List.map_map, List.range'_eq_map_range]
  refine List.map_congr_left fun index member => ?_
  have inside := List.mem_range.mp member
  show (UInt64.ofNat (index + 1)).toNat = 1 + index
  rw [UInt64.toNat_ofNat_of_lt' (show index + 1 < 2 ^ 64 by omega), Nat.add_comm]

theorem numberedShares_each (small : count < 2 ^ 64) {share : RabbitVRFVerificationShareV1}
    (member : share ∈ numberedShares count publicKey) :
    share.shareID ≠ 0 ∧ share.shareID.toNat ≤ count ∧
      ∃ id, 1 ≤ id ∧ id ≤ count ∧ share.publicKey = publicKey id := by
  have listed := List.mem_map_of_mem (f := fun share => share.shareID.toNat) member
  rw [numberedShares_ids small, List.mem_range'_1] at listed
  obtain ⟨index, inside, rfl⟩ := List.mem_map.mp member
  have below := List.mem_range.mp inside
  refine ⟨fun zero => ?_, by omega, index + 1, by omega, by omega, rfl⟩
  rw [zero] at listed
  exact absurd listed.1 (by decide)

theorem numberedShares_nodup (small : count < 2 ^ 64) :
    ((numberedShares count publicKey).map (·.shareID)).Nodup := by
  have distinct : (((numberedShares count publicKey).map (·.shareID)).map UInt64.toNat).Nodup := by
    rw [List.map_map]
    exact numberedShares_ids small ▸ List.nodup_range'
  exact distinct.of_map

theorem numberedShares_sorted (small : count < 2 ^ 64) :
    sortOn (·.shareID.toNat) (numberedShares count publicKey) = numberedShares count publicKey := by
  have ordered : ((numberedShares count publicKey).map (·.shareID.toNat)).Pairwise (· < ·) :=
    numberedShares_ids small ▸ List.pairwise_lt_range'
  exact sortOn_eq_self (List.pairwise_map.mp ordered)

theorem numberedShares_canonical {bls : Bls} (positive : count ≠ 0) (small : count < 2 ^ 64)
    (valid : ∀ id, 1 ≤ id → id ≤ count → bls.publicKeyOk (publicKey id) = true) :
    canonicalRabbitVRFVerificationSharesV1 bls count (numberedShares count publicKey) =
      some (numberedShares count publicKey) := by
  have some : numberedShares count publicKey ≠ [] := by
    apply List.ne_nil_of_length_pos
    rw [numberedShares_length]
    omega
  have each : ∀ share ∈ numberedShares count publicKey, share.shareID ≠ 0 ∧ share.shareID.toNat ≤ count ∧
      bls.publicKeyOk share.publicKey = true := by
    intro share member
    obtain ⟨nonzero, inside, id, low, high, same⟩ := numberedShares_each small member
    rw [same]
    exact ⟨nonzero, inside, valid id low high⟩
  unfold canonicalRabbitVRFVerificationSharesV1
  rw [if_pos ⟨positive, some, numberedShares_length.le, numberedShares_nodup small, each⟩, numberedShares_sorted small]

theorem numberedShares_root {bls : Bls} {context : RabbitVRFDKGSessionContextV1} (valid : context.valid = true)
    (small : context.committeeSize < 2 ^ 64)
    (keys : ∀ id, 1 ≤ id → id ≤ context.committeeSize → bls.publicKeyOk (publicKey id) = true)
    {crypto : Crypto} (hashes : ∀ bytes, crypto.keccak256 bytes ≠ 0) {thresholdPublicKey : VrfPublicKey}
    (key : bls.publicKeyOk thresholdPublicKey = true) {transcriptRoot : Hash} (transcript : transcriptRoot ≠ 0) :
    ∃ root, rabbitVRFKeysetRootV1 crypto bls context thresholdPublicKey transcriptRoot
      (numberedShares context.committeeSize publicKey) = some root ∧ root ≠ 0 := by
  simp only [RabbitVRFDKGSessionContextV1.valid, decide_eq_true_eq] at valid
  obtain ⟨_, chain, epoch, committee, positive, policy⟩ := valid
  obtain ⟨needed, enough⟩ : context.threshold ≠ 0 ∧ context.threshold ≤ context.committeeSize := by
    unfold rabbitVRFThresholdPolicyV1 at policy
    dsimp only at policy
    split at policy
    · cases policy
    · obtain ⟨threshold, _⟩ := Prod.mk.inj (Option.some.inj policy)
      omega
  unfold rabbitVRFKeysetRootV1
  rw [numberedShares_canonical positive small keys]
  simp only [Option.bind_eq_bind, Option.bind_some, numberedShares_length]
  exact ⟨_, if_pos ⟨chain, epoch, committee, positive, needed, transcript, key, enough, hashes _⟩, hashes _⟩

end Numbered

/-! ### A certificate of the largest committee -/

def plainBls : Bls where
  publicKeyOk key := key ≠ 0
  interpolate _ _ := some 1

def fullContext : RabbitVRFDKGSessionContextV1 := ⟨1, 1, 1, 1, 128, 86, 42⟩

def plainShares (count : Nat) : List RabbitVRFVerificationShareV1 := numberedShares count fun _ => 1

def fullMembers : List RabbitVRFCommitteeMemberV1 :=
  (List.range 128).map fun index => ⟨UInt64.ofNat (index + 1), 1, BitVec.ofNat 160 (index + 1)⟩

theorem plainBls_one : plainBls.publicKeyOk 1 = true := by
  simp only [plainBls, decide_eq_true_eq]
  intro zero
  have bit := congrArg (fun key : VrfPublicKey => key.getLsbD 0) zero
  simp at bit

theorem plainShares_length (count : Nat) : (plainShares count).length = count := numberedShares_length

theorem plainShares_each : ∀ share ∈ plainShares 86, share.shareID.toNat ≤ 128 := by
  decide +kernel

/-- A certificate over some transcript that the members at some positions have signed. -/
def signedCertificate (sessionID keysetRoot transcriptRoot : Hash) (signs : Nat → Bool) :
    RabbitVRFKeysetCertificateV1 where
  version := 1
  sessionID
  keysetRoot
  thresholdPublicKey := 1
  transcriptRoot
  verificationShareSamples := plainShares 86
  signatures := (List.range 128).map fun index => if signs index then plainSignature (index + 1) else []

section Signed

-- over any hash function, so that no hash is ever evaluated
variable {crypto : Crypto} {sessionID keysetRoot transcriptRoot : Hash} {signs : Nat → Bool}

theorem fullContext_session (nonzero : ∀ bytes, crypto.keccak256 bytes ≠ 0) :
    ∃ sessionID, rabbitVRFDKGSessionIDV1 crypto fullContext = some sessionID ∧ sessionID ≠ 0 := by
  unfold rabbitVRFDKGSessionIDV1
  dsimp only
  exact ⟨_, if_pos ⟨by decide, nonzero _⟩, nonzero _⟩

theorem plainShares_reconstruct :
    reconstructVerificationSharesV1 plainBls fullContext.committeeSize fullContext.threshold 1 (plainShares 86) =
      some (plainShares 128) := by
  decide +kernel

theorem signedCertificate_shares (rooted : keysetRoot ≠ 0) (transcript : transcriptRoot ≠ 0)
    (root : rabbitVRFKeysetRootV1 crypto plainBls fullContext 1 transcriptRoot (plainShares 128) = some keysetRoot) :
    certificateSharesOk crypto plainBls fullContext
      (signedCertificate sessionID keysetRoot transcriptRoot signs) = true := by
  have ordered : samplesInOrder plainBls (plainShares 86) = true := by decide +kernel
  unfold certificateSharesOk
  rw [Bool.and_eq_true, decide_eq_true_eq]
  refine ⟨⟨by decide, rfl, rooted, transcript, by decide, plainShares_length 86, ordered,
    plainShares_each⟩, ?_⟩
  simp only [signedCertificate, plainShares_reconstruct]
  exact decide_eq_true ⟨plainShares_length 128, root⟩

variable (recovers : ∀ signer hash, signer ≠ 0 → signer < 2 ^ 160 →
  crypto.recoverChecked hash (plainSignature signer) = some (BitVec.ofNat 160 signer))

include recovers

theorem signedCertificate_slot {index : Nat} (small : index < 128) (payloadHash : Hash) :
    certificateSlotOk crypto fullContext sessionID payloadHash index
      ⟨UInt64.ofNat (index + 1), 1, BitVec.ofNat 160 (index + 1)⟩
      (if signs index then plainSignature (index + 1) else []) = true := by
  have byte : index + 1 < 2 ^ 160 := (show index + 1 < 256 by omega).trans (by decide)
  have participant : (BitVec.ofNat 160 (index + 1) : Address) ≠ 0 :=
    Word.ofNat_ne_zero (Nat.succ_ne_zero index) byte
  unfold certificateSlotOk
  rw [Bool.and_eq_true, Bool.or_eq_true, decide_eq_true_eq, decide_eq_true_eq]
  refine ⟨⟨UInt64.toNat_ofNat_of_lt' (show index + 1 < 2 ^ 64 by omega), (by decide : (1 : Hash) ≠ 0), participant⟩, ?_⟩
  split
  · exact .inr ⟨small, recovers _ _ (Nat.succ_ne_zero index) byte⟩
  · exact .inl rfl

variable (transcriptRoot signs) in
/-- A threshold of members certifies a keyset over any transcript. -/
theorem exists_signedCertificate (nonzero : ∀ bytes, crypto.keccak256 bytes ≠ 0) (transcript : transcriptRoot ≠ 0)
    (enough : 86 ≤ (List.range 128).countP signs) :
    ∃ sessionID keysetRoot, validateRabbitVRFKeysetCertificateV1 crypto plainBls fullContext fullMembers
      (signedCertificate sessionID keysetRoot transcriptRoot signs) = .ok () := by
  obtain ⟨sessionID, session, _⟩ := fullContext_session nonzero
  obtain ⟨keysetRoot, root, rooted⟩ : ∃ root,
      rabbitVRFKeysetRootV1 crypto plainBls fullContext 1 transcriptRoot (plainShares 128) = some root ∧ root ≠ 0 :=
    numberedShares_root (show fullContext.valid = true by decide) (by decide) (fun _ _ _ => plainBls_one) nonzero
      plainBls_one transcript
  refine ⟨sessionID, keysetRoot, ?_⟩
  obtain ⟨payloadHash, hashed⟩ : ∃ payloadHash, rabbitVRFKeysetCertificatePayloadHashV1 crypto plainBls fullContext
      (signedCertificate sessionID keysetRoot transcriptRoot signs) = some payloadHash := by
    unfold rabbitVRFKeysetCertificatePayloadHashV1
    rw [session]
    exact ⟨_, if_pos ⟨rfl, rfl, rooted, transcript, plainBls_one, nonzero _⟩⟩
  unfold validateRabbitVRFKeysetCertificateV1
  rw [hashed]
  simp only [bind_ok_iff, exists_unit, ensure_ok_iff]
  refine ⟨⟨by simp [fullMembers, fullContext], by simp [signedCertificate, fullContext]⟩,
    signedCertificate_shares rooted transcript root, ?_, ?_⟩
  · refine List.all_eq_true.mpr fun entry member => ?_
    obtain ⟨⟨participant, signature⟩, index⟩ := entry
    have found := List.mk_mem_zipIdx_iff_getElem?.mp member
    rw [fullMembers, signedCertificate, List.zip_map', List.getElem?_map, Option.map_eq_some_iff] at found
    obtain ⟨position, inRange, same⟩ := found
    obtain ⟨inside, rfl⟩ := List.getElem?_eq_some_iff.mp inRange
    rw [List.length_range] at inside
    rw [List.getElem_range] at same
    obtain ⟨rfl, rfl⟩ := Prod.mk.inj same
    exact signedCertificate_slot recovers inside payloadHash
  · refine enough.trans ?_
    unfold signedCertificate
    rw [List.countP_map]
    refine List.countP_mono_left fun index _ signed => ?_
    rw [Function.comp_apply, if_pos signed]
    simp [plainSignature]

end Signed

end RabbitLqc
