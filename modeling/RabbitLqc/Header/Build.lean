import RabbitLqc.Header.Runtime

/-!
# When a header can be built

On content that is valid against the state of the parent, building fails for size only. The
finalizations are the one list the fifth version may shorten to fit.
-/

namespace RabbitLqc
open Lib RlpCodec

variable {blockNumber : UInt64} {operations : List RegistryOperation} {tickets : List SignedRandomXWorkTicketV1}
  {claims : List CommitteeParticipationClaimGroupV1} {finalizations : List RabbitVRFFinalizationV1}
  {certificates : List RabbitVRFKeysetCertificateV1}

theorem ValidV5Content.canonical (content : ValidV5Content blockNumber operations tickets claims finalizations) :
    ValidV5Content blockNumber operations (sortOn SignedRandomXWorkTicketV1.orderKey tickets)
      (canonicalGroups claims) (RabbitVRFFinalizationV1.sorted finalizations) where
  validOperations := content.validOperations
  operationCount := content.operationCount
  validTickets := content.validTickets.sorted
  validClaims := content.validClaims.canonical
  finalizationCount := by
    have same : (RabbitVRFFinalizationV1.sorted finalizations).length = finalizations.length :=
      length_sortOn
    rw [same]
    exact content.finalizationCount
  validFinalizations value member := content.validFinalizations value (mem_sortOn.mp member)

theorem headerV5BaseSize_canonical (blockNumber : UInt64) (operations : List RegistryOperation)
    (tickets : List SignedRandomXWorkTicketV1) (claims : List CommitteeParticipationClaimGroupV1)
    (certificates : List RabbitVRFKeysetCertificateV1) :
    headerV5BaseSize blockNumber operations (sortOn SignedRandomXWorkTicketV1.orderKey tickets)
        (canonicalGroups claims) certificates =
      headerV5BaseSize blockNumber operations tickets claims certificates := by
  have ticketSize : Rlp.size (toItem (sortOn SignedRandomXWorkTicketV1.orderKey tickets)) =
      Rlp.size (toItem tickets) := Rlp.size_list_perm sortOn_perm
  have claimSize := size_canonicalGroups claims
  unfold headerV5BaseSize framedSize
  change 4 + Rlp.size (.list _) + 65 = 4 + Rlp.size (.list _) + 65
  simp only [Rlp.size, Rlp.sizeAll, ticketSize, claimSize]

theorem fittingFinalizations_ok {registryRoot workStateRoot claimRoot : Hash} {extra : Bytes}
    (roots : blockNumber ≠ 0 ∧ registryRoot ≠ 0 ∧ workStateRoot ≠ 0 ∧ claimRoot ≠ 0)
    (content : ValidV5Content blockNumber operations tickets claims finalizations)
    (fitted : encodeLQCHeaderExtraV5FittingFinalizationsV1 blockNumber registryRoot workStateRoot
        claimRoot operations tickets claims certificates finalizations maxWorkTicketsPerBlockV1 =
        .ok extra) :
    ∃ kept, extra = appendEmptyProducerSeal (framedPayload (canonicalV5 blockNumber registryRoot
      workStateRoot claimRoot operations tickets claims certificates
      ((RabbitVRFFinalizationV1.sorted finalizations).take kept))) := by
  simp only [encodeLQCHeaderExtraV5FittingFinalizationsV1, bind_ok_iff, ensure_ok_iff, exists_unit,
    canonicalRabbitVRFFinalizationsV1_ok_iff] at fitted
  obtain ⟨_, _, ⟨valid, rfl⟩, fitted⟩ := fitted
  obtain ⟨kept, _, encoded, _⟩ := encodeFittingFrom_ok fitted
  exact ⟨kept, ((encodeLQCHeaderExtraV5_take_ok_iff roots content valid.requests).mp encoded).2⟩

section Build

variable {crypto : Crypto} {ctx : LQCHeaderV4RuntimeContextV1} {workRoot claimRoot : Hash}
  {operations : List RegistryOperation} {tickets : List SignedRandomXWorkTicketV1}
  {claims : List CommitteeParticipationClaimGroupV1}
  {certificates : List RabbitVRFKeysetCertificateV1} {finalizations : List RabbitVRFFinalizationV1}

variable {root : Hash}

theorem canonicalWorkRuntimeStateRootV1_ne_zero {chainID : Nat} {state : CanonicalWorkRuntimeStateV1}
    (nonzero : ∀ bytes, crypto.keccak256 bytes ≠ 0)
    (h : canonicalWorkRuntimeStateRootV1 crypto chainID state = .ok root) : root ≠ 0 := by
  simp only [canonicalWorkRuntimeStateRootV1, bind_ok_iff, Except.ok.injEq] at h
  obtain ⟨_, _, _, _, _, _, _, _, _, _, rfl⟩ := h
  exact nonzero _

theorem CommitteeClaimLedgerV1.root_ne_zero {ledger : CommitteeClaimLedgerV1}
    (nonzero : ∀ bytes, crypto.keccak256 bytes ≠ 0) (h : ledger.root crypto = .ok root) : root ≠ 0 := by
  simp only [CommitteeClaimLedgerV1.root, bind_ok_iff, Except.ok.injEq] at h
  obtain ⟨_, _, rfl⟩ := h
  exact nonzero _

theorem LQCHeaderV4RuntimeContextV1.postRoots_ne_zero
    (nonzero : ∀ bytes, crypto.keccak256 bytes ≠ 0)
    (post : ctx.postRoots crypto tickets claims = .ok (workRoot, claimRoot)) :
    workRoot ≠ 0 ∧ claimRoot ≠ 0 := by
  unfold postRoots at post
  obtain ⟨work, workOk, post⟩ := bind_ok post
  obtain ⟨⟨ledger, verified⟩, _, post⟩ := bind_ok post
  obtain ⟨claim, claimOk, post⟩ := bind_ok post
  obtain ⟨rfl, rfl⟩ := Prod.mk.inj (Except.ok.inj post)
  obtain ⟨_, _, root⟩ := bind_ok workOk
  exact ⟨canonicalWorkRuntimeStateRootV1_ne_zero nonzero root,
    CommitteeClaimLedgerV1.root_ne_zero nonzero claimOk⟩

theorem LQCHeaderV4RuntimeContextV1.validate_nonzero (valid : ctx.validate crypto = .ok ()) :
    ctx.work.blockNumber ≠ 0 ∧ ctx.work.registryRoot ≠ 0 := by
  unfold validate at valid
  obtain ⟨_, work, _⟩ := bind_ok valid
  unfold LQCHeaderWorkRuntimeContextV1.validate at work
  obtain ⟨_, fields, _⟩ := bind_ok work
  exact (ensure_ok_iff.mp fields).2

theorem canonicalV5_canonical (blockNumber : UInt64) (registryRoot : Hash)
    (kept : List RabbitVRFFinalizationV1) :
    canonicalV5 blockNumber registryRoot workRoot claimRoot operations
        (sortOn SignedRandomXWorkTicketV1.orderKey tickets) (canonicalGroups claims) certificates kept =
      canonicalV5 blockNumber registryRoot workRoot claimRoot operations tickets claims certificates
        kept := by
  simp only [canonicalV5, sortOn_sortOn, canonicalGroups_idem]

theorem buildLQCHeaderExtraV5_ok {result : Bytes × Hash × Hash}
    (built : buildLQCHeaderExtraV5WithCanonicalRuntimeV1 crypto ctx operations tickets claims
      certificates finalizations = .ok result) :
    ctx.validate crypto = .ok () ∧
      ctx.postRoots crypto (sortOn SignedRandomXWorkTicketV1.orderKey tickets) (canonicalGroups claims) =
        .ok result.2 ∧
      encodeLQCHeaderExtraV5FittingFinalizationsV1 ctx.work.blockNumber ctx.work.registryRoot
        result.2.1 result.2.2 operations (sortOn SignedRandomXWorkTicketV1.orderKey tickets)
        (canonicalGroups claims) certificates (RabbitVRFFinalizationV1.sorted finalizations)
        maxWorkTicketsPerBlockV1 = .ok result.1 := by
  simp only [buildLQCHeaderExtraV5WithCanonicalRuntimeV1, bind_ok_iff, Except.ok.injEq,
    canonicalWorkTicketsV3_ok_iff, canonicalClaimGroups_ok_iff,
    canonicalRabbitVRFFinalizationsV1_ok_iff] at built
  obtain ⟨_, valid, _, ⟨_, _, rfl⟩, _, ⟨_, rfl⟩, _, ⟨_, rfl⟩, _, post, extra, encoded, rfl⟩ := built
  exact ⟨valid, post, encoded⟩

/-- The build of a fifth-version header on content that is valid on the parent: it succeeds, without
dropping anything but a tail of the finalizations, exactly when no request is finalized twice and
the rest of the content fits by itself. -/
theorem buildLQCHeaderExtraV5_ok_iff (valid : ctx.validate crypto = .ok ())
    (content : ValidV5Content ctx.work.blockNumber operations tickets claims finalizations)
    (post : ctx.postRoots crypto (sortOn SignedRandomXWorkTicketV1.orderKey tickets)
      (canonicalGroups claims) = .ok (workRoot, claimRoot))
    (nonzero : workRoot ≠ 0 ∧ claimRoot ≠ 0) :
    (∃ kept, buildLQCHeaderExtraV5WithCanonicalRuntimeV1 crypto ctx operations tickets claims
        certificates finalizations =
      .ok (appendEmptyProducerSeal (framedPayload (canonicalV5 ctx.work.blockNumber
        ctx.work.registryRoot workRoot claimRoot operations tickets claims certificates
        ((RabbitVRFFinalizationV1.sorted finalizations).take kept))), workRoot, claimRoot)) ↔
      (finalizations.map (·.requestID)).Nodup ∧
        headerV5BaseSize ctx.work.blockNumber operations tickets claims certificates ≤
          maxRegistryHeaderExtraSize := by
  have roots : ctx.work.blockNumber ≠ 0 ∧ ctx.work.registryRoot ≠ 0 ∧ workRoot ≠ 0 ∧ claimRoot ≠ 0 :=
    let context := ctx.validate_nonzero valid
    ⟨context.1, context.2, nonzero⟩
  have sortedContent := content.canonical
  have requests : ((RabbitVRFFinalizationV1.sorted finalizations).map (·.requestID)).Nodup ↔
      (finalizations.map (·.requestID)).Nodup := (sortOn_perm.map _).nodup_iff
  have resort : RabbitVRFFinalizationV1.sorted (RabbitVRFFinalizationV1.sorted finalizations) =
      RabbitVRFFinalizationV1.sorted finalizations := sortOn_sortOn
  have fits : (∃ extra, encodeLQCHeaderExtraV5FittingFinalizationsV1 ctx.work.blockNumber
      ctx.work.registryRoot workRoot claimRoot operations
      (sortOn SignedRandomXWorkTicketV1.orderKey tickets) (canonicalGroups claims) certificates
      (RabbitVRFFinalizationV1.sorted finalizations) maxWorkTicketsPerBlockV1 = .ok extra) ↔
      (finalizations.map (·.requestID)).Nodup ∧
        headerV5BaseSize ctx.work.blockNumber operations tickets claims certificates ≤
          maxRegistryHeaderExtraSize := by
    rw [fittingFinalizations_ok_iff roots sortedContent, headerV5BaseSize_canonical, requests]
  rw [← fits]
  simp only [buildLQCHeaderExtraV5WithCanonicalRuntimeV1, bind_ok_iff, Except.ok.injEq,
    canonicalWorkTicketsV3_ok_iff, canonicalClaimGroups_ok_iff,
    canonicalRabbitVRFFinalizationsV1_ok_iff]
  constructor
  · intro given
    obtain ⟨kept, _, _, _, ⟨_, _, rfl⟩, _, ⟨_, rfl⟩, _, ⟨_, rfl⟩, _, same, extra, encoded, _⟩ := given
    obtain rfl := Except.ok.inj (post.symm.trans same)
    exact ⟨extra, encoded⟩
  · intro given
    obtain ⟨extra, encoded⟩ := given
    obtain ⟨kept, written⟩ := fittingFinalizations_ok roots sortedContent encoded
    rw [canonicalV5_canonical, resort] at written
    have distinct := (fits.mp ⟨extra, encoded⟩).1
    refine ⟨kept, (), valid, _, ⟨by decide, content.validTickets, rfl⟩, _, ⟨content.validClaims, rfl⟩,
      _, ⟨⟨content.validFinalizations, distinct⟩, rfl⟩, _, post, extra, encoded, ?_⟩
    rw [written]

end Build

/-! ### Content at the limit -/

def numberedParticipations (count : Nat) : List CompactCommitteeParticipationV1 :=
  (List.range count).map fun index => ⟨UInt8.ofNat index, plainSignature (index + 1)⟩

/-- A claim of each of the first members of the committee of block 1. -/
def manyClaims (count : Nat) : List CommitteeParticipationClaimGroupV1 :=
  [⟨1, numberedParticipations count⟩]

def secondBlock : LQCHeaderV4RuntimeContextV1 where
  work := ⟨1, ⟨⟨1, 1, 128, none, none⟩, ⟨1, 1, 2, 1⟩⟩, 2, 1, 0, 0⟩
  parentClaims := newCommitteeClaimLedgerV1
  resolveClaims _ := .ok ⟨1, 1, 1, 1,
    (List.range 128).map fun index => ⟨BitVec.ofNat 256 (index + 1), BitVec.ofNat 160 (index + 1)⟩⟩

def secondBlockRoots : Hash × Hash :=
  match secondBlock.postRoots plainCrypto [] [] with
  | .ok roots => roots
  | .error _ => (0, 0)

theorem secondBlock_evaluates : secondBlock.validate plainCrypto = .ok () ∧
    secondBlock.postRoots plainCrypto [] [] = .ok (secondBlockRoots.1, secondBlockRoots.2) := by
  decide +kernel

theorem manyClaims_evaluates : (canonicalCommitteeParticipationClaimGroupsV1 2 (manyClaims 90)).isOk = true ∧
    (secondBlock.postRoots plainCrypto [] (manyClaims 90)).isOk = true := by
  decide +kernel

theorem validV5Content_plain {claims : List CommitteeParticipationClaimGroupV1}
    {finalizations : List RabbitVRFFinalizationV1} (claimed : ValidClaimGroups 2 claims)
    (few : finalizations.length ≤ maxRabbitVRFFinalizationsPerBlockV1)
    (valid : ∀ value ∈ finalizations, value.validate = .ok ()) : ValidV5Content 2 [] [] claims finalizations where
  validOperations := ⟨by decide, by simp [canonicalRegistryOperations, sortOn], by decide⟩
  operationCount := by decide
  validTickets := ⟨by decide, by simp, by simp⟩
  validClaims := claimed
  finalizationCount := few
  validFinalizations := valid

theorem manyClaims_content : ValidV5Content 2 [] [] (manyClaims 90) [] := by
  obtain ⟨canonical, sorted⟩ := exists_ok_of_isOk manyClaims_evaluates.1
  exact validV5Content_plain (canonicalClaimGroups_ok_iff.mp sorted).1 (by decide) (by simp)

theorem size_publicKey (key : VrfPublicKey) : Rlp.size (toItem key) = 49 := by
  exact Rlp.size_fixedBytes (@toNat_lt_bytes 48 key) (by omega)

theorem size_manyClaims : Rlp.size (toItem (manyClaims 90)) = 6310 := by
  decide +kernel

/-- A certificate with the signatures a node collects, the threshold of them. -/
theorem size_signedCertificate (sessionID keysetRoot : Hash) :
    Rlp.size (toItem (signedCertificate sessionID keysetRoot 1 (· < 86))) = 10348 := by
  have samples : Rlp.size (toItem (plainShares 86)) = 4389 := by decide +kernel
  have signatures : Rlp.size (toItem (signedCertificate 0 0 1 (· < 86)).signatures) = 5807 := by decide +kernel
  have one : Rlp.size (toItem (1 : UInt8)) = 1 := Rlp.size_uint8_small (by decide)
  change Rlp.size (.list [toItem (1 : UInt8), toItem sessionID, toItem keysetRoot, toItem (1 : VrfPublicKey),
    toItem (1 : Hash), toItem (plainShares 86), toItem (signedCertificate 0 0 1 (· < 86)).signatures]) = 10348
  rw [Rlp.size]
  simp only [Rlp.sizeAll, one, size_hash, size_publicKey, samples, signatures]
  decide

theorem size_numberedFinalizations : Rlp.size (toItem (numberedFinalizations 32)) = 11235 := by
  decide +kernel

theorem framedSize_V5_eq (registryRoot workStateRoot claimRoot : Hash)
    {claimSize certificateSize finalizationSize : Nat}
    (claimed : Rlp.size (toItem claims) = claimSize) (certified : Rlp.size (toItem certificates) = certificateSize)
    (finalized : Rlp.size (toItem finalizations) = finalizationSize) :
    framedSize (⟨5, 2, registryRoot, workStateRoot, claimRoot, [], [], claims, certificates, finalizations⟩ :
        LQCHeaderEnvelopeV5) =
      4 + (Rlp.prefixSize (103 + claimSize + certificateSize + finalizationSize) +
        (103 + claimSize + certificateSize + finalizationSize)) + 65 := by
  have five : Rlp.size (toItem (5 : UInt8)) = 1 := Rlp.size_uint8_small (by decide)
  have two : Rlp.size (toItem (2 : UInt64)) = 1 := Rlp.size_uint64_small (by decide)
  have noOperations : Rlp.size (toItem ([] : List RegistryOperation)) = 1 := rfl
  have noTickets : Rlp.size (toItem ([] : List SignedRandomXWorkTicketV1)) = 1 := rfl
  have total : Rlp.sizeAll [toItem (5 : UInt8), toItem (2 : UInt64), toItem registryRoot, toItem workStateRoot,
      toItem claimRoot, toItem ([] : List RegistryOperation), toItem ([] : List SignedRandomXWorkTicketV1),
      toItem claims, toItem certificates, toItem finalizations] =
        103 + claimSize + certificateSize + finalizationSize := by
    simp only [Rlp.sizeAll, five, two, noOperations, noTickets, size_hash, claimed, certified, finalized]
    omega
  rw [← total]
  rfl

theorem size_single_certificate {certificate : RabbitVRFKeysetCertificateV1}
    (size : Rlp.size (toItem certificate) = 10348) : Rlp.size (toItem [certificate]) = 10351 := by
  change Rlp.size (.list [toItem certificate]) = 10351
  rw [Rlp.size, Rlp.sizeAll_singleton, size]
  decide

theorem plainCrypto_certificate : ∃ certificate,
    validateRabbitVRFKeysetCertificateV1 plainCrypto plainBls fullContext fullMembers certificate = .ok () ∧
      certificate.signatures.countP (·.length ≠ 0) = fullContext.threshold ∧
      Rlp.size (toItem [certificate]) = 10351 := by
  obtain ⟨sessionID, keysetRoot, valid⟩ := exists_signedCertificate 1 (· < 86)
    (fun signer hash signs small => @plainCrypto_recoverChecked signer signs small hash)
    plainCrypto_keccak256_ne_zero (by decide) (by decide +kernel)
  have signed : (signedCertificate 0 0 1 (· < 86)).signatures.countP (·.length ≠ 0) = 86 := by decide +kernel
  exact ⟨_, valid, signed, size_single_certificate (size_signedCertificate sessionID keysetRoot)⟩

/-- Thirty-two finalizations next to a certificate do not all fit; a tail of them is dropped. -/
theorem buildLQCHeaderExtraV5_dropping : ∃ certificate kept,
    validateRabbitVRFKeysetCertificateV1 plainCrypto plainBls fullContext fullMembers certificate = .ok () ∧
    maxRegistryHeaderExtraSize < framedSize
      (canonicalV5 2 1 secondBlockRoots.1 secondBlockRoots.2 [] [] [] [certificate] (numberedFinalizations 32)) ∧
    buildLQCHeaderExtraV5WithCanonicalRuntimeV1 plainCrypto secondBlock [] [] [] [certificate]
        (numberedFinalizations 32) =
      .ok (appendEmptyProducerSeal (framedPayload (canonicalV5 2 1 secondBlockRoots.1 secondBlockRoots.2 [] [] []
        [certificate] ((RabbitVRFFinalizationV1.sorted (numberedFinalizations 32)).take kept))),
        secondBlockRoots.1, secondBlockRoots.2) := by
  obtain ⟨certificate, valid, _, size⟩ := plainCrypto_certificate
  have finalized := @numberedFinalizations_valid 32 (by decide)
  have unclaimed : ValidClaimGroups 2 [] := (canonicalClaimGroups_ok_iff.mp
    (rfl : canonicalCommitteeParticipationClaimGroupsV1 2 [] = .ok [])).1
  have content := validV5Content_plain unclaimed (by simp [numberedFinalizations, maxRabbitVRFFinalizationsPerBlockV1])
    finalized.each
  have base : headerV5BaseSize 2 [] [] [] [certificate] ≤ maxRegistryHeaderExtraSize := by
    rw [headerV5BaseSize, framedSize_V5_eq 0 0 0 rfl size rfl]
    decide
  have full : maxRegistryHeaderExtraSize < framedSize (canonicalV5 2 1 secondBlockRoots.1 secondBlockRoots.2 [] [] []
      [certificate] (numberedFinalizations 32)) := by
    refine lt_of_lt_of_eq ?_ (framedSize_V5_eq 1 secondBlockRoots.1 secondBlockRoots.2 rfl size
      size_numberedFinalizations).symm
    decide
  obtain ⟨kept, built⟩ := (buildLQCHeaderExtraV5_ok_iff secondBlock_evaluates.1 content secondBlock_evaluates.2
    (secondBlock.postRoots_ne_zero plainCrypto_keccak256_ne_zero secondBlock_evaluates.2)).mpr
      ⟨finalized.requests, base⟩
  exact ⟨certificate, kept, valid, full, built⟩

/-- Claims that verify and a certificate with the signatures a node collects, within every count the code allows:
there is nothing to drop, and no header. -/
theorem buildLQCHeaderExtraV5_claimsAndCertificate_fails :
    secondBlock.validate plainCrypto = .ok () ∧
    (∃ roots, secondBlock.postRoots plainCrypto [] (manyClaims 90) = .ok roots) ∧
    ValidV5Content 2 [] [] (manyClaims 90) [] ∧ fullContext.committeeSize = 128 ∧
    ∃ certificate,
      validateRabbitVRFKeysetCertificateV1 plainCrypto plainBls fullContext fullMembers certificate = .ok () ∧
      certificate.signatures.countP (·.length ≠ 0) = fullContext.threshold ∧
      ∀ result, buildLQCHeaderExtraV5WithCanonicalRuntimeV1 plainCrypto secondBlock [] [] (manyClaims 90) [certificate]
        [] ≠ .ok result := by
  obtain ⟨certificate, valid, threshold, size⟩ := plainCrypto_certificate
  refine ⟨secondBlock_evaluates.1, exists_ok_of_isOk manyClaims_evaluates.2, manyClaims_content, rfl, certificate,
    valid, threshold, ?_⟩
  intro result built
  obtain ⟨parent, post, encoded⟩ := buildLQCHeaderExtraV5_ok built
  have context := secondBlock.validate_nonzero parent
  have roots := secondBlock.postRoots_ne_zero plainCrypto_keccak256_ne_zero post
  have fits := ((fittingFinalizations_ok_iff ⟨context.1, context.2, roots⟩
    manyClaims_content.canonical).mp ⟨_, encoded⟩).2
  rw [headerV5BaseSize_canonical] at fits
  have total := framedSize_V5_eq 0 0 0 size_manyClaims size (rfl : Rlp.size (toItem []) = 1)
  exact absurd (total.symm.trans_le fits) (by decide)

end RabbitLqc
