import RabbitLqc.Header.Canonical
import RabbitLqc.Header.Capacity

/-!
# Fitting finalizations into a header

The fitting encoder shortens the list of finalizations until the header fits. It retries after any
error, so that it keeps as many as fit rests on two facts: dropping finalizations never grows the
envelope, and no check other than the size depends on how many are kept.
-/

namespace RabbitLqc
open Lib RlpCodec

namespace HeaderContent

variable (content : HeaderContent)

def fitV5 (maxWorkTickets : Nat) : Except LqcError Bytes :=
  encodeLQCHeaderExtraV5FittingFinalizationsV1 content.blockNumber content.registryRoot
    content.workStateRoot content.committeeClaimRoot content.registryOperations content.workTickets
    content.committeeClaims content.vrfKeysetCertificates content.vrfFinalizations maxWorkTickets

/-- The content with the first finalizations of the canonical order only. -/
def keeping (kept : Nat) : HeaderContent :=
  { content with vrfFinalizations := (RabbitVRFFinalizationV1.sorted content.vrfFinalizations).take kept }

/-- The envelope with the first finalizations of the canonical order only. -/
def keepingV5 (kept : Nat) : LQCHeaderEnvelopeV5 :=
  { content.formV5 with
    rabbitVRFFinalizations := (RabbitVRFFinalizationV1.sorted content.vrfFinalizations).take kept }

theorem formV5_keeping (kept : Nat) : (content.keeping kept).formV5 = content.keepingV5 kept := by
  unfold formV5 keeping keepingV5
  rw [sorted_take_sorted]
  rfl

variable {content} {maxWorkTickets kept : Nat} {extra : Bytes}

theorem encodeV5_keeping_ok_iff {base : Bytes}
    (few : content.vrfFinalizations.length ≤ maxRabbitVRFFinalizationsPerBlockV1)
    (valid : FinalizationList content.vrfFinalizations)
    (encodes : (content.keeping 0).encodeV5 maxWorkTickets = .ok base) :
    (content.keeping kept).encodeV5 maxWorkTickets = .ok extra ↔
      framedSize (content.keepingV5 kept) ≤ maxRegistryHeaderExtraSize ∧
        extra = appendEmptyProducerSeal (framedPayload (content.keepingV5 kept)) := by
  obtain ⟨roots, _, operations, tickets, groups, room, _, _⟩ := encodeLQCHeaderExtraV5_ok_iff.mp encodes
  have count : (content.keeping kept).vrfFinalizations.length ≤ maxRabbitVRFFinalizationsPerBlockV1 := by
    have sortedLength : (RabbitVRFFinalizationV1.sorted content.vrfFinalizations).length =
        content.vrfFinalizations.length := length_sortOn
    exact (List.length_take_le' _ _).trans (sortedLength.trans_le few)
  rw [← formV5_keeping]
  constructor
  · intro encoded
    obtain ⟨_, _, _, _, _, _, _, framed⟩ := encodeLQCHeaderExtraV5_ok_iff.mp encoded
    exact framed
  · intro framed
    exact encodeLQCHeaderExtraV5_ok_iff.mpr
      ⟨roots, count, operations, tickets, groups, room, valid.sorted_take kept, framed⟩

theorem decodeV5_keeping_ok_iff {bls : Bls} {envelope : LQCHeaderEnvelopeV5}
    (encoded : (content.keeping kept).encodeV5 maxWorkTickets = .ok extra) :
    decodeLQCHeaderExtraV5 bls extra maxWorkTickets = .ok envelope ↔
      content.OneCertificate bls ∧ envelope = content.keepingV5 kept := by
  constructor
  · intro decoded
    obtain ⟨⟨_, _, _, _, positive⟩, _, _, _, _, _, _, fits, same⟩ :=
      encodeLQCHeaderExtraV5_ok_iff.mp encoded
    obtain ⟨valid, mark, length, framed⟩ := (decodeLQCHeaderExtraV5_ok_iff positive).mp decoded
    -- both records are read back from the same bytes
    have written := @openExtra_framed LQCHeaderEnvelopeV5 _ .invalidLQCHeaderExtraV5 _ _
      (List.length_replicate : (List.replicate producerSealLength (0 : UInt8)).length = _) fits
    have read := @openExtra_framed LQCHeaderEnvelopeV5 _ .invalidLQCHeaderExtraV5 _ _ length valid.fits
    rw [← framed, same] at read
    obtain rfl : envelope = (content.keeping kept).formV5 :=
      congrArg Prod.snd (Except.ok.inj (read.symm.trans written))
    exact ⟨⟨valid.certificateCount, valid.certificates⟩, content.formV5_keeping kept⟩
  · intro given
    obtain ⟨passed, rfl⟩ := given
    rw [← formV5_keeping]
    exact (canonicalCodecV5 bls maxWorkTickets).round_trip (content.keeping kept) extra passed encoded

theorem encodeV5_keeping_zero (encoded : (content.keeping kept).encodeV5 maxWorkTickets = .ok extra) :
    ∃ base, (content.keeping 0).encodeV5 maxWorkTickets = .ok base := by
  obtain ⟨roots, _, operations, tickets, groups, room, _, fits, _⟩ :=
    encodeLQCHeaderExtraV5_ok_iff.mp encoded
  refine ⟨_, encodeLQCHeaderExtraV5_ok_iff.mpr
    ⟨roots, Nat.zero_le _, operations, tickets, groups, room, ⟨by simp [keeping], by simp [keeping]⟩, ?_, rfl⟩⟩
  exact (framedSize_canonicalV5_take _ 0).trans fits

theorem fitV5_ok_iff :
    content.fitV5 maxWorkTickets = .ok extra ↔
      content.vrfFinalizations.length ≤ maxRabbitVRFFinalizationsPerBlockV1 ∧
        FinalizationList content.vrfFinalizations ∧
        encodeFittingFrom (fun kept => ({ content with vrfFinalizations := kept }).encodeV5 maxWorkTickets)
          (RabbitVRFFinalizationV1.sorted content.vrfFinalizations)
          content.vrfFinalizations.length = .ok extra := by
  have sortedLength : (RabbitVRFFinalizationV1.sorted content.vrfFinalizations).length =
      content.vrfFinalizations.length := length_sortOn
  simp only [fitV5, encodeLQCHeaderExtraV5FittingFinalizationsV1, bind_ok_iff, ensure_ok_iff, exists_unit,
    canonicalRabbitVRFFinalizationsV1_ok_iff]
  refine and_congr_right fun _ => ?_
  constructor
  · intro given
    obtain ⟨_, ⟨valid, rfl⟩, fitted⟩ := given
    rw [sortedLength] at fitted
    exact ⟨valid, fitted⟩
  · intro given
    obtain ⟨valid, fitted⟩ := given
    refine ⟨_, ⟨valid, rfl⟩, ?_⟩
    rw [sortedLength]
    exact fitted

end HeaderContent

/-- The fitting encoder succeeds exactly on at most the allowed number of valid finalizations of
distinct requests beside content that encodes without any. It then writes the longest run of them,
in canonical order, that is within the size limit. The decoder reads back exactly that run, if the
certificates pass its own checks. -/
theorem fittingFinalizations_longest (bls : Bls) (content : HeaderContent) (maxWorkTickets : Nat) :
    ((∃ extra, content.fitV5 maxWorkTickets = .ok extra) ↔
      content.vrfFinalizations.length ≤ maxRabbitVRFFinalizationsPerBlockV1 ∧
        (∀ value ∈ content.vrfFinalizations, value.validate = .ok ()) ∧
        (content.vrfFinalizations.map (·.requestID)).Nodup ∧
        ∃ base, (content.keeping 0).encodeV5 maxWorkTickets = .ok base) ∧
    ∀ extra, content.fitV5 maxWorkTickets = .ok extra →
      ∃ kept ≤ content.vrfFinalizations.length,
        (content.keeping kept).encodeV5 maxWorkTickets = .ok extra ∧
        extra.length ≤ maxRegistryHeaderExtraSize ∧
        (∀ more, kept < more → more ≤ content.vrfFinalizations.length →
          maxRegistryHeaderExtraSize <
            (appendEmptyProducerSeal (framedPayload (content.keepingV5 more))).length) ∧
        ∀ envelope, decodeLQCHeaderExtraV5 bls extra maxWorkTickets = .ok envelope ↔
          content.OneCertificate bls ∧ envelope = content.keepingV5 kept := by
  have size : ∀ envelope : LQCHeaderEnvelopeV5,
      (appendEmptyProducerSeal (framedPayload envelope)).length = framedSize envelope := by
    intro envelope
    rw [appendEmptyProducerSeal, List.length_append, List.length_replicate, length_framedPayload]
  constructor
  · constructor
    · intro given
      obtain ⟨extra, fitted⟩ := given
      obtain ⟨few, valid, fitted⟩ := HeaderContent.fitV5_ok_iff.mp fitted
      obtain ⟨kept, _, encoded, _⟩ := encodeFittingFrom_ok fitted
      exact ⟨few, valid.each, valid.requests, HeaderContent.encodeV5_keeping_zero encoded⟩
    · intro given
      obtain ⟨few, each, requests, base, encodes⟩ := given
      obtain ⟨extra, fitted⟩ := encodeFittingFrom_exists
        (fun kept => ({ content with vrfFinalizations := kept }).encodeV5 maxWorkTickets) encodes
        (RabbitVRFFinalizationV1.sorted content.vrfFinalizations) content.vrfFinalizations.length
      exact ⟨extra, HeaderContent.fitV5_ok_iff.mpr ⟨few, ⟨each, requests⟩, fitted⟩⟩
  · intro extra fitted
    obtain ⟨few, valid, fitted⟩ := HeaderContent.fitV5_ok_iff.mp fitted
    obtain ⟨kept, le, encoded, maximal⟩ := encodeFittingFrom_ok fitted
    obtain ⟨base, encodes⟩ := HeaderContent.encodeV5_keeping_zero encoded
    obtain ⟨fits, same⟩ := (HeaderContent.encodeV5_keeping_ok_iff few valid encodes).mp encoded
    refine ⟨kept, le, encoded, ?_, ?_, fun envelope => HeaderContent.decodeV5_keeping_ok_iff encoded⟩
    · rw [same, size]
      exact fits
    · intro more above within
      rw [size]
      by_contra small
      exact maximal more above within
        ⟨_, (HeaderContent.encodeV5_keeping_ok_iff few valid encodes).mpr ⟨not_lt.mp small, rfl⟩⟩

/-- One finalization too many makes the encoder fail, though each is valid, no two are of one
request, and the rest of the header encodes. -/
theorem fittingFinalizations_tooMany :
    (∀ value ∈ (numberedFinalizations 33), value.validate = .ok ()) ∧
    ((numberedFinalizations 33).map (·.requestID)).Nodup ∧
    (∃ base, encodeLQCHeaderExtraV5 2 1 1 1 [] [] [] [] [] 1 = .ok base) ∧
    ∀ extra, encodeLQCHeaderExtraV5FittingFinalizationsV1 2 1 1 1 [] [] [] [] (numberedFinalizations 33) 1 ≠
      .ok extra := by
  refine ⟨(@numberedFinalizations_valid 33 (by decide)).each, (@numberedFinalizations_valid 33 (by decide)).requests,
    ?_, ?_⟩
  · have groups : ValidClaimGroups (2 : UInt64).toNat [] := (canonicalClaimGroups_ok_iff.mp
      (rfl : canonicalCommitteeParticipationClaimGroupsV1 2 [] = .ok [])).1
    have operations : HeaderOperations (canonicalRegistryOperations []) :=
      ⟨by decide, by simp [canonicalRegistryOperations, sortOn], by decide⟩
    refine ⟨_, encodeLQCHeaderExtraV5_ok_iff.mpr ⟨by decide, by decide, operations,
      ⟨by decide, by simp, by simp⟩, groups, by simp, ⟨by simp, by simp⟩, ?_, rfl⟩⟩
    decide
  · intro extra fitted
    have few := ensure_ok_iff.mp (bind_ok fitted).choose_spec.1
    revert few
    decide

end RabbitLqc
