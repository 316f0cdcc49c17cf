import RabbitLqc.Header.Frame

/-!
# The registry envelope

The second envelope version: the registry root after the block and the signed operations of the
block in canonical order.
-/

namespace RabbitLqc
open Lib RlpCodec

variable {operation : RegistryOperation} {u : Unit} {operations : List RegistryOperation} {blockNumber : UInt64}
  {registryRoot : Hash} {extra : Bytes}

def registryHeaderEnvelopeVersion : UInt8 := 2

def maxRegistryOperationsPerBlock : Nat := 64

structure RegistryHeaderEnvelope where
  version : UInt8
  blockNumber : UInt64
  registryRoot : Hash
  operations : List RegistryOperation
  deriving DecidableEq

instance : RlpCodec RegistryHeaderEnvelope where
  toItem envelope := .list [toItem envelope.version, toItem envelope.blockNumber,
    toItem envelope.registryRoot, toItem envelope.operations]
  ofItem
    | .list [version, blockNumber, registryRoot, operations] => do
      some ⟨← ofItem version, ← ofItem blockNumber, ← ofItem registryRoot, ← ofItem operations⟩
    | _ => none
  ofItem_toItem envelope := by simp

/-! ### Canonical operations -/

/-- Operations sort by address and sequence first; the other fields make the order total. -/
def RegistryOperation.orderKey (operation : RegistryOperation) : List Nat :=
  [operation.address.toNat, operation.sequence.toNat, operation.action.toNat,
    operation.validUntil.toNat, operation.proofNonce.toNat] ++ operation.signature.map UInt8.toNat

def canonicalRegistryOperations (operations : List RegistryOperation) : List RegistryOperation :=
  sortOn RegistryOperation.orderKey operations

def RegistryOperation.slot (operation : RegistryOperation) : Address × UInt64 :=
  (operation.address, operation.sequence)

def validateHeaderOperation (operation : RegistryOperation) : Except LqcError Unit := do
  ensure (operation.version = registryProtocolVersion) .invalidRegistryVersion
  ensure (operation.kind ≠ none) .invalidRegistryAction
  ensure (operation.address ≠ 0) .invalidRegistryAddress
  ensure (operation.sequence ≠ 0) .invalidRegistrySequence
  ensure (operation.signature.length = signatureLength) .invalidRegistrySignature

def validateHeaderOperationsAfter : Option RegistryOperation → List RegistryOperation →
    Except LqcError Unit
  | _, [] => .ok ()
  | previous, operation :: rest => do
    validateHeaderOperation operation
    ensure (∀ before ∈ previous, before.slot ≠ operation.slot) .duplicateRegistryOperation
    validateHeaderOperationsAfter (some operation) rest

def validateRegistryHeaderOperations (operations : List RegistryOperation) : Except LqcError Unit := do
  ensure (operations.length ≤ maxRegistryOperationsPerBlock) .tooManyRegistryOperations
  validateHeaderOperationsAfter none operations

/-! ### Codec -/

def encodeRegistryHeaderExtra (blockNumber : UInt64) (registryRoot : Hash)
    (operations : List RegistryOperation) : Except LqcError Bytes := do
  ensure (registryRoot ≠ 0) .invalidRegistryRoot
  let canonical := canonicalRegistryOperations operations
  validateRegistryHeaderOperations canonical
  frameExtra .invalidRegistryHeaderExtra
    ({ version := registryHeaderEnvelopeVersion, blockNumber, registryRoot, operations := canonical }
      : RegistryHeaderEnvelope)

def decodeRegistryHeaderExtra (extra : Bytes) : Except LqcError RegistryHeaderEnvelope := do
  let (payloadExtra, envelope) ←
    openExtra (α := RegistryHeaderEnvelope) .invalidRegistryHeaderExtra extra
  ensure (envelope.version = registryHeaderEnvelopeVersion) .unsupportedRegistryHeader
  ensure (envelope.registryRoot ≠ 0) .invalidRegistryRoot
  validateRegistryHeaderOperations envelope.operations
  ensure (canonicalRegistryOperations envelope.operations = envelope.operations)
    .nonCanonicalRegistryOperations
  let reencoded ←
    encodeRegistryHeaderExtra envelope.blockNumber envelope.registryRoot envelope.operations
  sameEnvelope .invalidRegistryHeaderExtra reencoded payloadExtra
  .ok envelope

def validateRegistryHeaderExtra (crypto : Crypto) (chainID blockNumber proofDifficulty : Nat)
    (extra : Bytes) : Except LqcError RegistryHeaderEnvelope := do
  let envelope ← decodeRegistryHeaderExtra extra
  ensure (envelope.blockNumber.toNat = blockNumber) .registryHeaderBlockMismatch
  envelope.operations.forM (validateRegistryOperation crypto chainID blockNumber proofDifficulty)
  .ok envelope

/-! ### What validation establishes -/

/-- The checks on one operation that need no context. -/
structure HeaderOperation (operation : RegistryOperation) : Prop where
  version : operation.version = registryProtocolVersion
  kind : operation.kind ≠ none
  address : operation.address ≠ 0
  sequence : operation.sequence ≠ 0
  signature : operation.signature.length = signatureLength

theorem validateHeaderOperation_ok_iff : validateHeaderOperation operation = .ok u ↔ HeaderOperation operation := by
  simp only [validateHeaderOperation, bind_ok_iff, ensure_ok_iff, exists_unit]
  refine ⟨fun checks => ?_, fun valid =>
    ⟨valid.version, valid.kind, valid.address, valid.sequence, valid.signature⟩⟩
  obtain ⟨version, kind, address, sequence, signature⟩ := checks
  exact ⟨version, kind, address, sequence, signature⟩

/-- A header lists operations that pass their own checks, neighbours in different slots. -/
structure HeaderOperations (operations : List RegistryOperation) : Prop where
  capacity : operations.length ≤ maxRegistryOperationsPerBlock
  each : ∀ operation ∈ operations, HeaderOperation operation
  slots : operations.IsChain fun before operation => before.slot ≠ operation.slot

theorem validateHeaderOperationsAfter_ok_iff {previous : Option RegistryOperation} :
    validateHeaderOperationsAfter previous operations = .ok u ↔
      (∀ operation ∈ operations, HeaderOperation operation) ∧
        (previous.toList ++ operations).IsChain fun before operation => before.slot ≠ operation.slot := by
  induction operations generalizing previous with
  | nil => cases previous <;> simp [validateHeaderOperationsAfter]
  | cons operation rest ih =>
    simp only [validateHeaderOperationsAfter, bind_ok_iff, ensure_ok_iff, exists_unit,
      validateHeaderOperation_ok_iff, ih, List.forall_mem_cons]
    cases previous with
    | none => simp [and_assoc]
    | some before => simp [and_assoc, and_left_comm]

theorem validateRegistryHeaderOperations_ok_iff :
    validateRegistryHeaderOperations operations = .ok u ↔ HeaderOperations operations := by
  simp only [validateRegistryHeaderOperations, ensure_bind_ok_iff, validateHeaderOperationsAfter_ok_iff,
    Option.toList_none, List.nil_append]
  refine ⟨fun checks => ?_, fun valid => ⟨valid.capacity, valid.each, valid.slots⟩⟩
  obtain ⟨capacity, each, slots⟩ := checks
  exact ⟨capacity, each, slots⟩

/-! ### Size -/

theorem size_signature {signature : Bytes} (length : signature.length = signatureLength) :
    Rlp.size (toItem signature) = 67 := by
  change Rlp.bytesSize signature = 67
  rw [Rlp.bytesSize_eq (by rw [length]; decide), length]
  decide +kernel

theorem size_hash (hash : Hash) : Rlp.size (toItem hash) = 33 := by
  exact Rlp.size_fixedBytes (@toNat_lt_bytes 32 hash) (by omega)

theorem size_address (address : Address) : Rlp.size (toItem address) = 21 := by
  exact Rlp.size_fixedBytes (@toNat_lt_bytes 20 address) (by omega)

theorem RegistryOperation.action_small (kind : operation.kind ≠ none) : operation.action.toNat < 128 := by
  unfold RegistryOperation.kind RegistryAction.ofCode at kind
  split at kind
  · simp_all
  · split at kind
    · simp_all
    · split at kind
      · simp_all
      · exact absurd rfl kind

theorem HeaderOperation.size_le (valid : HeaderOperation operation) : Rlp.size (toItem operation) ≤ 119 := by
  have version : Rlp.size (toItem operation.version) = 1 := by
    rw [valid.version]
    exact Rlp.size_uint8_small (by decide)
  have action := Rlp.size_uint8_small (RegistryOperation.action_small valid.kind)
  have sequence := Rlp.size_uint64_le operation.sequence
  have validUntil := Rlp.size_uint64_le operation.validUntil
  have proofNonce := Rlp.size_uint64_le operation.proofNonce
  have address := size_address operation.address
  have signature := size_signature valid.signature
  refine Rlp.size_list_le 117 1 ?_ (by decide)
  simp only [Rlp.sizeAll]
  omega

theorem size_operations_le (each : ∀ operation ∈ operations, HeaderOperation operation)
    (few : operations.length ≤ maxRegistryOperationsPerBlock) :
    Rlp.size (toItem operations) ≤ 3 + operations.length * 119 := by
  have total := Rlp.sizeAll_map_le fun operation member => (each operation member).size_le
  refine Rlp.size_list_le _ 2 total ?_
  unfold maxRegistryOperationsPerBlock at few
  omega

/-! ### Round trip -/

def registryEnvelope (blockNumber : UInt64) (registryRoot : Hash) (operations : List RegistryOperation) :
    RegistryHeaderEnvelope :=
  { version := registryHeaderEnvelopeVersion, blockNumber, registryRoot, operations }

theorem size_registryEnvelope_le (valid : HeaderOperations operations) :
    framedSize (registryEnvelope blockNumber registryRoot operations) ≤ maxRegistryHeaderExtraSize := by
  have version := Rlp.size_uint8_le registryHeaderEnvelopeVersion
  have number := Rlp.size_uint64_le blockNumber
  have root := size_hash registryRoot
  have content := size_operations_le valid.each valid.capacity
  have few := valid.capacity
  unfold maxRegistryOperationsPerBlock at few
  have total : Rlp.size (toItem (registryEnvelope blockNumber registryRoot operations)) ≤ 3 + 7663 := by
    refine Rlp.size_list_le 7663 2 ?_ (by decide)
    simp only [Rlp.sizeAll, registryEnvelope]
    omega
  exact Nat.add_le_add_right (Nat.add_le_add_left total 4) 65 |>.trans (by decide)

theorem encodeRegistryHeaderExtra_ok_iff :
    encodeRegistryHeaderExtra blockNumber registryRoot operations = .ok extra ↔
      registryRoot ≠ 0 ∧ HeaderOperations (canonicalRegistryOperations operations) ∧
        extra = appendEmptyProducerSeal (framedPayload
          (registryEnvelope blockNumber registryRoot (canonicalRegistryOperations operations))) := by
  simp only [encodeRegistryHeaderExtra, bind_ok_iff, ensure_ok_iff, exists_unit,
    validateRegistryHeaderOperations_ok_iff, frameExtra_ok_iff]
  refine and_congr_right fun _ => and_congr_right fun valid => ?_
  exact and_iff_right (size_registryEnvelope_le valid)

@[simp] theorem canonicalRegistryOperations_idem (operations : List RegistryOperation) :
    canonicalRegistryOperations (canonicalRegistryOperations operations) =
      canonicalRegistryOperations operations :=
  sortOn_sortOn

theorem decodeRegistryHeaderExtra_sealed {mark : Bytes} (length : mark.length = producerSealLength)
    (nonzero : registryRoot ≠ 0) (valid : HeaderOperations operations)
    (sorted : canonicalRegistryOperations operations = operations) :
    decodeRegistryHeaderExtra (framedPayload (registryEnvelope blockNumber registryRoot operations) ++ mark) =
      .ok (registryEnvelope blockNumber registryRoot operations) := by
  have opened : openExtra .invalidRegistryHeaderExtra
      (framedPayload (registryEnvelope blockNumber registryRoot operations) ++ mark) = .ok _ :=
    openExtra_framed length (size_registryEnvelope_le valid)
  have again : encodeRegistryHeaderExtra blockNumber registryRoot operations = .ok (appendEmptyProducerSeal
      (framedPayload (registryEnvelope blockNumber registryRoot operations))) :=
    encodeRegistryHeaderExtra_ok_iff.mpr ⟨nonzero, sorted.symm ▸ valid, by rw [sorted]⟩
  simp only [decodeRegistryHeaderExtra, bind_ok_iff, ensure_ok_iff, exists_unit,
    validateRegistryHeaderOperations_ok_iff]
  refine ⟨_, opened, rfl, nonzero, valid, sorted, _, again, ?_, rfl⟩
  exact sameEnvelope_ok_iff.mpr rfl

theorem decodeRegistryHeaderExtra_encode
    (encoded : encodeRegistryHeaderExtra blockNumber registryRoot operations = .ok extra) :
    decodeRegistryHeaderExtra extra =
      .ok (registryEnvelope blockNumber registryRoot (canonicalRegistryOperations operations)) := by
  obtain ⟨nonzero, valid, rfl⟩ := encodeRegistryHeaderExtra_ok_iff.mp encoded
  exact decodeRegistryHeaderExtra_sealed List.length_replicate nonzero valid (canonicalRegistryOperations_idem _)

end RabbitLqc
