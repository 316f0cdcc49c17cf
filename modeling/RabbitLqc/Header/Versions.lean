import RabbitLqc.Header.RoundTrip

/-!
# Envelope versions

All versions share the magic and write the envelope as one RLP list, but no two of them a list of
the same number of fields: at most one decoder accepts some extra data. Replay and the pools do not
know the version of a header; they try the decoders, the newest first.
-/

namespace RabbitLqc
open Lib RlpCodec

inductive EnvelopeVersion where
  | v2
  | v3
  | v4
  | v5
  deriving DecidableEq, Repr

namespace EnvelopeVersion

def fields : EnvelopeVersion → Nat
  | v2 => 4
  | v3 => 6
  | v4 => 8
  | v5 => 10

theorem fields_injective : Function.Injective fields := by
  intro left right same
  cases left <;> cases right <;> first | rfl | cases same

def accepts (bls : Bls) (extra : Bytes) (maxWorkTickets : Nat) : EnvelopeVersion → Prop
  | v2 => ∃ envelope, decodeRegistryHeaderExtra extra = .ok envelope
  | v3 => ∃ envelope, decodeLQCHeaderExtraV3 extra maxWorkTickets = .ok envelope
  | v4 => ∃ envelope, decodeLQCHeaderExtraV4 extra maxWorkTickets = .ok envelope
  | v5 => ∃ envelope, decodeLQCHeaderExtraV5 bls extra maxWorkTickets = .ok envelope

end EnvelopeVersion

/-! ### At most one decoder accepts -/

def envelopeItem (extra : Bytes) : Option Rlp.Item :=
  match splitProducerSeal extra with
  | none => none
  | some (payload, _) => Rlp.decode (payload.drop registryHeaderMagic.length)

/-- Extra data framed with the magic that holds a list of `count` fields. -/
def FramedFields (extra : Bytes) (count : Nat) : Prop :=
  (∃ payload mark, mark.length = producerSealLength ∧ extra = payload ++ mark ∧ isRegistryHeaderExtra payload) ∧
    ∃ fields, envelopeItem extra = some (.list fields) ∧ fields.length = count

theorem openExtra_fields {α : Type} [RlpCodec α] {invalid : LqcError} {extra payload : Bytes} {envelope : α}
    {count : Nat} (opened : openExtra invalid extra = .ok (payload, envelope))
    (record : ∀ item, ofItem item = some envelope → ∃ fields, item = .list fields ∧ fields.length = count) :
    FramedFields extra count := by
  obtain ⟨mark, length, same⟩ := openExtra_ok opened
  simp only [openExtra, same, splitProducerSeal_append length, ensure_bind_ok_iff] at opened
  obtain ⟨_, magic, opened⟩ := opened
  refine ⟨⟨payload, mark, length, same, magic⟩, ?_⟩
  split at opened
  · cases opened
  · rename_i found
    obtain ⟨_, rfl⟩ := Prod.mk.inj (Except.ok.inj opened)
    obtain ⟨item, decoded, read⟩ := Option.bind_eq_some_iff.mp found
    obtain ⟨fields, rfl, size⟩ := record item read
    refine ⟨fields, ?_, size⟩
    rw [envelopeItem, same, splitProducerSeal_append length]
    exact decoded

theorem RegistryHeaderEnvelope.item_fields {item : Rlp.Item} {envelope : RegistryHeaderEnvelope}
    (read : ofItem item = some envelope) : ∃ fields, item = .list fields ∧ fields.length = 4 := by
  simp only [ofItem] at read
  split at read
  · exact ⟨_, rfl, rfl⟩
  · cases read

theorem LQCHeaderEnvelopeV3.item_fields {item : Rlp.Item} {envelope : LQCHeaderEnvelopeV3}
    (read : ofItem item = some envelope) : ∃ fields, item = .list fields ∧ fields.length = 6 := by
  simp only [ofItem] at read
  split at read
  · exact ⟨_, rfl, rfl⟩
  · cases read

theorem LQCHeaderEnvelopeV4.item_fields {item : Rlp.Item} {envelope : LQCHeaderEnvelopeV4}
    (read : ofItem item = some envelope) : ∃ fields, item = .list fields ∧ fields.length = 8 := by
  simp only [ofItem] at read
  split at read
  · exact ⟨_, rfl, rfl⟩
  · cases read

theorem LQCHeaderEnvelopeV5.item_fields {item : Rlp.Item} {envelope : LQCHeaderEnvelopeV5}
    (read : ofItem item = some envelope) : ∃ fields, item = .list fields ∧ fields.length = 10 := by
  simp only [ofItem] at read
  split at read
  · exact ⟨_, rfl, rfl⟩
  · cases read

namespace EnvelopeVersion

variable {bls : Bls} {extra : Bytes} {limit other : Nat} {version left right : EnvelopeVersion}

theorem accepts_framed (accepted : version.accepts bls extra limit) : FramedFields extra version.fields := by
  cases version with
  | v2 =>
    obtain ⟨envelope, run⟩ := accepted
    obtain ⟨⟨payload, read⟩, opened, _⟩ := bind_ok run
    exact openExtra_fields opened fun _ => RegistryHeaderEnvelope.item_fields
  | v3 =>
    obtain ⟨envelope, run⟩ := accepted
    obtain ⟨_, _, run⟩ := bind_ok run
    obtain ⟨⟨payload, read⟩, opened, _⟩ := bind_ok run
    exact openExtra_fields opened fun _ => LQCHeaderEnvelopeV3.item_fields
  | v4 =>
    obtain ⟨envelope, run⟩ := accepted
    obtain ⟨_, _, run⟩ := bind_ok run
    obtain ⟨⟨payload, read⟩, opened, _⟩ := bind_ok run
    exact openExtra_fields opened fun _ => LQCHeaderEnvelopeV4.item_fields
  | v5 =>
    obtain ⟨envelope, run⟩ := accepted
    obtain ⟨_, _, run⟩ := bind_ok run
    obtain ⟨⟨payload, read⟩, opened, _⟩ := bind_ok run
    exact openExtra_fields opened fun _ => LQCHeaderEnvelopeV5.item_fields

theorem accepts_unique (first : left.accepts bls extra limit) (second : right.accepts bls extra other) :
    left = right := by
  obtain ⟨_, fields, found, count⟩ := accepts_framed first
  obtain ⟨_, again, foundAgain, countAgain⟩ := accepts_framed second
  rw [found] at foundAgain
  obtain rfl := Rlp.Item.list.inj (Option.some.inj foundAgain)
  exact fields_injective (count.symm.trans countAgain)

theorem accepts.rejects (accepted : left.accepts bls extra limit) (differs : left ≠ right) :
    ¬ right.accepts bls extra limit :=
  fun second => differs (accepts_unique accepted second)

end EnvelopeVersion

/-! ### Readers that try the decoders in turn -/

section Readers

variable (bls : Bls) (extra : Bytes)

/-- What the replay of the registry takes from a header with a work envelope. -/
structure ReplayEnvelope where
  blockNumber : UInt64
  registryRoot : Hash
  operations : List RegistryOperation
  blockMismatch : LqcError
  deriving DecidableEq

/-- The decoders as `applyRegistrySnapshotHeaderMaybeV3` tries them. -/
def replayEnvelope : Option ReplayEnvelope :=
  match decodeLQCHeaderExtraV5 bls extra maxWorkTicketsPerBlockV1 with
  | .ok envelope => some ⟨envelope.blockNumber, envelope.registryRoot, envelope.registryOperations,
      .lqcHeaderBlockMismatchV5⟩
  | .error _ => match decodeLQCHeaderExtraV4 extra maxWorkTicketsPerBlockV1 with
    | .ok envelope => some ⟨envelope.blockNumber, envelope.registryRoot, envelope.registryOperations,
        .lqcHeaderBlockMismatchV4⟩
    | .error _ => match decodeLQCHeaderExtraV3 extra maxWorkTicketsPerBlockV1 with
      | .ok envelope => some ⟨envelope.blockNumber, envelope.registryRoot, envelope.registryOperations,
          .lqcHeaderBlockMismatchV3⟩
      | .error _ => none

def workV1EnginePoolHeaderTicketsLab : Option (List SignedRandomXWorkTicketV1) :=
  match decodeLQCHeaderExtraV5 bls extra maxWorkTicketsPerBlockV1 with
  | .ok envelope => some envelope.workTickets
  | .error _ => match decodeLQCHeaderExtraV4 extra maxWorkTicketsPerBlockV1 with
    | .ok envelope => some envelope.workTickets
    | .error _ => match decodeLQCHeaderExtraV3 extra maxWorkTicketsPerBlockV1 with
      | .ok envelope => some envelope.workTickets
      | .error _ => none

def lqcCommitteeClaimGroupsFromExtraLab : Option (List CommitteeParticipationClaimGroupV1) :=
  match decodeLQCHeaderExtraV5 bls extra maxWorkTicketsPerBlockV1 with
  | .ok envelope => some envelope.committeeParticipationClaims
  | .error _ => match decodeLQCHeaderExtraV4 extra maxWorkTicketsPerBlockV1 with
    | .ok envelope => some envelope.committeeParticipationClaims
    | .error _ => none

variable {bls extra}

theorem readers_v5 {envelope : LQCHeaderEnvelopeV5}
    (decoded : decodeLQCHeaderExtraV5 bls extra maxWorkTicketsPerBlockV1 = .ok envelope) :
    replayEnvelope bls extra = some ⟨envelope.blockNumber, envelope.registryRoot, envelope.registryOperations,
        .lqcHeaderBlockMismatchV5⟩ ∧
      workV1EnginePoolHeaderTicketsLab bls extra = some envelope.workTickets ∧
      lqcCommitteeClaimGroupsFromExtraLab bls extra = some envelope.committeeParticipationClaims := by
  simp only [replayEnvelope, workV1EnginePoolHeaderTicketsLab, lqcCommitteeClaimGroupsFromExtraLab, decoded,
    and_self]

theorem readers_v4 (bls : Bls) {envelope : LQCHeaderEnvelopeV4}
    (decoded : decodeLQCHeaderExtraV4 extra maxWorkTicketsPerBlockV1 = .ok envelope) :
    replayEnvelope bls extra = some ⟨envelope.blockNumber, envelope.registryRoot, envelope.registryOperations,
        .lqcHeaderBlockMismatchV4⟩ ∧
      workV1EnginePoolHeaderTicketsLab bls extra = some envelope.workTickets ∧
      lqcCommitteeClaimGroupsFromExtraLab bls extra = some envelope.committeeParticipationClaims := by
  have accepted : EnvelopeVersion.v4.accepts bls extra maxWorkTicketsPerBlockV1 := ⟨envelope, decoded⟩
  obtain ⟨_, newer⟩ := exists_error_iff.mpr (accepted.rejects (by decide : _ ≠ EnvelopeVersion.v5))
  simp only [replayEnvelope, workV1EnginePoolHeaderTicketsLab, lqcCommitteeClaimGroupsFromExtraLab, newer, decoded,
    and_self]

theorem readers_v3 (bls : Bls) {envelope : LQCHeaderEnvelopeV3}
    (decoded : decodeLQCHeaderExtraV3 extra maxWorkTicketsPerBlockV1 = .ok envelope) :
    replayEnvelope bls extra = some ⟨envelope.blockNumber, envelope.registryRoot, envelope.registryOperations,
        .lqcHeaderBlockMismatchV3⟩ ∧
      workV1EnginePoolHeaderTicketsLab bls extra = some envelope.workTickets ∧
      lqcCommitteeClaimGroupsFromExtraLab bls extra = none := by
  have accepted : EnvelopeVersion.v3.accepts bls extra maxWorkTicketsPerBlockV1 := ⟨envelope, decoded⟩
  obtain ⟨_, newest⟩ := exists_error_iff.mpr (accepted.rejects (by decide : _ ≠ EnvelopeVersion.v5))
  obtain ⟨_, newer⟩ := exists_error_iff.mpr (accepted.rejects (by decide : _ ≠ EnvelopeVersion.v4))
  simp only [replayEnvelope, workV1EnginePoolHeaderTicketsLab, lqcCommitteeClaimGroupsFromExtraLab, newest, newer,
    decoded, and_self]

theorem readers_none (rejected : ∀ version : EnvelopeVersion, version ≠ .v2 →
      ¬ version.accepts bls extra maxWorkTicketsPerBlockV1) :
    replayEnvelope bls extra = none ∧ workV1EnginePoolHeaderTicketsLab bls extra = none ∧
      lqcCommitteeClaimGroupsFromExtraLab bls extra = none := by
  obtain ⟨_, newest⟩ := exists_error_iff.mpr (rejected .v5 (by decide))
  obtain ⟨_, newer⟩ := exists_error_iff.mpr (rejected .v4 (by decide))
  obtain ⟨_, new⟩ := exists_error_iff.mpr (rejected .v3 (by decide))
  simp only [replayEnvelope, workV1EnginePoolHeaderTicketsLab, lqcCommitteeClaimGroupsFromExtraLab, newest, newer,
    new,
    and_self]

end Readers

end RabbitLqc
