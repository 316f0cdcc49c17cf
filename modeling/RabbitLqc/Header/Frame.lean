import RabbitLqc.Registry.Operation
import RabbitLqc.Lib.RlpSize

/-!
# Header extra data

Every envelope version is framed alike: the protocol magic, the RLP of the envelope, and room for
the producer seal, all within a fixed size.
-/

namespace RabbitLqc
open Lib RlpCodec

def producerSealLength : Nat := signatureLength

def registryHeaderMagic : Bytes := [0x4c, 0x51, 0x43, 0]

def maxRegistryHeaderExtraSize : Nat := 16 * 1024

def isRegistryHeaderExtra (extra : Bytes) : Bool :=
  extra.take registryHeaderMagic.length = registryHeaderMagic

/-- The envelope and the seal after it. -/
def splitProducerSeal (extra : Bytes) : Option (Bytes × Bytes) :=
  if extra.length < producerSealLength then none
  else
    let payloadLength := extra.length - producerSealLength
    some (extra.take payloadLength, extra.drop payloadLength)

def appendEmptyProducerSeal (extra : Bytes) : Bytes := extra ++ List.replicate producerSealLength 0

def framedPayload {α : Type} [RlpCodec α] (envelope : α) : Bytes :=
  registryHeaderMagic ++ Rlp.encode (toItem envelope)

/-- The envelope behind its magic bytes, with room for the seal, within the size limit. -/
def frameExtra {α : Type} [RlpCodec α] (invalid : LqcError) (envelope : α) : Except LqcError Bytes := do
  let extra := appendEmptyProducerSeal (framedPayload envelope)
  ensure (extra.length ≤ maxRegistryHeaderExtraSize) invalid
  .ok extra

/-- The record framed in some extra data, with the envelope bytes it was read from. -/
def openExtra {α : Type} [RlpCodec α] (invalid : LqcError) (extra : Bytes) :
    Except LqcError (Bytes × α) := do
  ensure (extra.length ≤ maxRegistryHeaderExtraSize) invalid
  match splitProducerSeal extra with
  | none => .error invalid
  | some (payloadExtra, _) =>
    ensure (isRegistryHeaderExtra payloadExtra) invalid
    match (Rlp.decode (payloadExtra.drop registryHeaderMagic.length)).bind ofItem with
    | none => .error invalid
    | some envelope => .ok (payloadExtra, envelope)

def sameEnvelope (invalid : LqcError) (reencoded payloadExtra : Bytes) : Except LqcError Unit :=
  match splitProducerSeal reencoded with
  | none => .error invalid
  | some (reencodedPayload, _) => ensure (reencodedPayload = payloadExtra) invalid

section Lemmas

variable {α : Type} [RlpCodec α]

theorem splitProducerSeal_append {payload mark : Bytes} (length : mark.length = producerSealLength) :
    splitProducerSeal (payload ++ mark) = some (payload, mark) := by
  unfold splitProducerSeal
  have size : (payload ++ mark).length = payload.length + producerSealLength := by
    rw [List.length_append, length]
  rw [if_neg (by omega), size, Nat.add_sub_cancel]
  simp

theorem splitProducerSeal_empty (payload : Bytes) :
    splitProducerSeal (appendEmptyProducerSeal payload) =
      some (payload, List.replicate producerSealLength 0) :=
  splitProducerSeal_append List.length_replicate

def framedSize (envelope : α) : Nat :=
  registryHeaderMagic.length + Rlp.size (toItem envelope) + producerSealLength

theorem length_framedPayload (envelope : α) :
    (framedPayload envelope).length + producerSealLength = framedSize envelope := by
  rw [framedPayload, List.length_append, Rlp.length_encode, framedSize]

theorem frameExtra_ok_iff {invalid : LqcError} {envelope : α} {extra : Bytes} :
    frameExtra invalid envelope = .ok extra ↔
      framedSize envelope ≤ maxRegistryHeaderExtraSize ∧
        extra = appendEmptyProducerSeal (framedPayload envelope) := by
  have size : (appendEmptyProducerSeal (framedPayload envelope)).length = framedSize envelope := by
    rw [appendEmptyProducerSeal, List.length_append, List.length_replicate, length_framedPayload]
  simp only [frameExtra, ensure_bind_ok_iff, size, Except.ok.injEq, eq_comm (a := extra)]

theorem sameEnvelope_ok_iff {invalid : LqcError} {envelope : α} {payloadExtra : Bytes} {u : Unit} :
    sameEnvelope invalid (appendEmptyProducerSeal (framedPayload envelope)) payloadExtra = .ok u ↔
      payloadExtra = framedPayload envelope := by
  simp only [sameEnvelope, splitProducerSeal_empty, ensure_ok_iff, eq_comm (a := payloadExtra)]

/-- What was framed is read back, whatever seal was put on it. -/
theorem openExtra_framed {invalid : LqcError} {envelope : α} {mark : Bytes}
    (length : mark.length = producerSealLength)
    (fits : framedSize envelope ≤ maxRegistryHeaderExtraSize) :
    openExtra invalid (framedPayload envelope ++ mark) = .ok (framedPayload envelope, envelope) := by
  have size : (framedPayload envelope ++ mark).length ≤ maxRegistryHeaderExtraSize := by
    rw [List.length_append, length, length_framedPayload]
    exact fits
  have short : (Rlp.encode (toItem envelope)).length < 2 ^ 64 := by
    rw [Rlp.length_encode]
    unfold framedSize at fits
    have : maxRegistryHeaderExtraSize < 2 ^ 64 := by decide
    omega
  have magic : isRegistryHeaderExtra (framedPayload envelope) = true := by
    simp [isRegistryHeaderExtra, framedPayload]
  have body : (Rlp.decode ((framedPayload envelope).drop registryHeaderMagic.length)).bind ofItem =
      some envelope := by
    rw [framedPayload, List.drop_left, Rlp.decode_encode short, Option.bind_some, ofItem_toItem]
  simp only [openExtra, splitProducerSeal_append length, body, magic]
  rw [(ensure_ok_iff (u := ())).mpr size, (ensure_ok_iff (u := ())).mpr trivial]
  rfl

theorem splitProducerSeal_some {extra payload mark : Bytes}
    (cut : splitProducerSeal extra = some (payload, mark)) :
    mark.length = producerSealLength ∧ extra = payload ++ mark := by
  unfold splitProducerSeal at cut
  split at cut
  · cases cut
  · obtain ⟨rfl, rfl⟩ := Prod.mk.inj (Option.some.inj cut)
    refine ⟨?_, (List.take_append_drop _ _).symm⟩
    rw [List.length_drop]
    omega

theorem openExtra_ok {invalid : LqcError} {extra payload : Bytes} {envelope : α}
    (opened : openExtra invalid extra = .ok (payload, envelope)) :
    ∃ mark, mark.length = producerSealLength ∧ extra = payload ++ mark := by
  simp only [openExtra, ensure_bind_ok_iff] at opened
  obtain ⟨_, opened⟩ := opened
  split at opened
  · cases opened
  · rename_i parts found mark cut
    simp only [ensure_bind_ok_iff] at opened
    obtain ⟨_, opened⟩ := opened
    split at opened
    · cases opened
    · obtain ⟨rfl, rfl⟩ := Prod.mk.inj (Except.ok.inj opened)
      exact ⟨mark, splitProducerSeal_some cut⟩

end Lemmas

end RabbitLqc
