import RabbitLqc.Header.Frame
import RabbitLqc.Lib.RlpCommit
import RabbitLqc.Lib.RlpOptional
import RabbitLqc.Lib.RlpRecord

/-!
# The producer seal of a whole header

The header as the execution layer has it, all its fields included, its encoding with the optional trailing fields, and
what a producer signs: everything but the seal at the end of the extra data.
-/

namespace RabbitLqc
open Lib RlpCodec

variable {item : Rlp.Item} {left right : Option Hash}

instance bloomCodec : RlpCodec (BitVec 2048) := wordCodec 256

instance nonceCodec : RlpCodec (BitVec 64) := wordCodec 8

/-- `types.Header`; a pointer is optional. -/
structure BlockHeader where
  parentHash : Hash
  uncleHash : Hash
  coinbase : Address
  root : Hash
  txHash : Hash
  receiptHash : Hash
  bloom : BitVec 2048
  difficulty : Option Int
  number : Option Int
  gasLimit : UInt64
  gasUsed : UInt64
  time : UInt64
  extra : Bytes
  mixDigest : Hash
  nonce : BitVec 64
  baseFee : Option Int := none
  withdrawalsHash : Option Hash := none
  blobGasUsed : Option UInt64 := none
  excessBlobGas : Option UInt64 := none
  parentBeaconRoot : Option Hash := none
  requestsHash : Option Hash := none
  blockAccessListHash : Option Hash := none
  slotNumber : Option UInt64 := none
  deriving DecidableEq

/-- A big integer that may be nil, which is written as the empty string; a negative one is an error. -/
def bigIntItem : Option Int → Option Rlp.Item
  | none => some (.bytes [])
  | some n => if n < 0 then none else some (natItem n.toNat)

def pointerItem {α : Type} [RlpCodec α] : Option α → Rlp.Item
  | none => .bytes []
  | some value => toItem value

namespace BlockHeader

variable (header : BlockHeader)

def requiredItems (difficulty number : Rlp.Item) : List Rlp.Item :=
  [toItem header.parentHash, toItem header.uncleHash, toItem header.coinbase, toItem header.root, toItem header.txHash,
    toItem header.receiptHash, toItem header.bloom, difficulty, number, toItem header.gasLimit, toItem header.gasUsed,
    toItem header.time, .bytes header.extra, toItem header.mixDigest, toItem header.nonce]

def optionalFields (baseFee : Rlp.Item) : List Rlp.OptionalField :=
  [⟨header.baseFee.isSome, baseFee⟩, ⟨header.withdrawalsHash.isSome, pointerItem header.withdrawalsHash⟩,
    ⟨header.blobGasUsed.isSome, pointerItem header.blobGasUsed⟩,
    ⟨header.excessBlobGas.isSome, pointerItem header.excessBlobGas⟩,
    ⟨header.parentBeaconRoot.isSome, pointerItem header.parentBeaconRoot⟩,
    ⟨header.requestsHash.isSome, pointerItem header.requestsHash⟩,
    ⟨header.blockAccessListHash.isSome, pointerItem header.blockAccessListHash⟩,
    ⟨header.slotNumber.isSome, pointerItem header.slotNumber⟩]

/-- `Header.EncodeRLP`. -/
def encodeRLP : Option Rlp.Item := do
  let difficulty ← bigIntItem header.difficulty
  let number ← bigIntItem header.number
  let baseFee ← bigIntItem header.baseFee
  some (.list (header.requiredItems difficulty number ++ Rlp.writeOptional (header.optionalFields baseFee)))

/-- `CopyHeader` leaves no nil in the two integers every header has. -/
def copyHeader : BlockHeader :=
  { header with difficulty := some (header.difficulty.getD 0), number := some (header.number.getD 0) }

/-! ### The seal -/

def producerSealPayload (chainID : Int) (extra : Bytes) : Option Bytes := do
  let unsigned ← { header.copyHeader with extra := extra }.encodeRLP
  Rlp.encodeToBytes (.list [textItem "RABBIT-LQC-BLOCK-SEAL-V1", natItem chainID.toNat, unsigned])

def producerSealData (chainID : Option Int) : Except LqcError Bytes := do
  ensure (0 < chainID.getD 0) .missingSealChainID
  ensure (0 < header.number.getD 0) .invalidSealHeader
  let (extra, _) ← orFail .missingProducerSeal (splitProducerSeal header.extra)
  orFail .encodeProducerSeal (header.producerSealPayload (chainID.getD 0) extra)

def recoverProducerSeal (crypto : Crypto) (chainID : Option Int) : Except LqcError Address := do
  let (_, signature) ← orFail .missingProducerSeal (splitProducerSeal header.extra)
  ensure (signature ≠ List.replicate producerSealLength 0) .missingProducerSeal
  ensure (signatureShapeOk signature) .invalidProducerSeal
  let payload ← header.producerSealData chainID
  orFail .invalidProducerSeal (crypto.recover (crypto.keccak256 payload) signature)

def verifyProducerSeal (crypto : Crypto) (chainID : Option Int) : Except LqcError Unit := do
  ensure (header.coinbase ≠ 0) .unauthorizedProducerSeal
  let signer ← header.recoverProducerSeal crypto chainID
  ensure (signer = header.coinbase) .unauthorizedProducerSeal

/-- `SealHeader`: the signer is given the coinbase and the payload, and answers with some bytes or fails. -/
def sealHeader (crypto : Crypto) (chainID : Option Int) (sign : Option (Address → Bytes → Option Bytes)) :
    Except LqcError BlockHeader := do
  let sign ← orFail .missingHeaderSigner sign
  let payload ← header.producerSealData chainID
  let signature ← orFail .signHeader (sign header.coinbase payload)
  ensure (signature.length = producerSealLength) .invalidProducerSeal
  let (extra, _) ← orFail .missingProducerSeal (splitProducerSeal header.extra)
  let sealed := { header.copyHeader with extra := extra ++ signature }
  sealed.verifyProducerSeal crypto chainID
  .ok sealed

/-- The header as the seal sees it: without the seal, and with zero for a nil integer. -/
def unsealed : BlockHeader :=
  { header with
    difficulty := some (header.difficulty.getD 0)
    number := some (header.number.getD 0)
    extra := header.extra.take (header.extra.length - producerSealLength)
    baseFee := some (header.baseFee.getD 0)
    blobGasUsed := some (header.blobGasUsed.getD 0)
    excessBlobGas := some (header.excessBlobGas.getD 0)
    slotNumber := some (header.slotNumber.getD 0) }

end BlockHeader

/-! ### What an encoding determines -/

theorem bigIntItem_eq_some_iff {value : Option Int} :
    bigIntItem value = some item ↔ 0 ≤ value.getD 0 ∧ item = natItem (value.getD 0).toNat := by
  cases value with
  | none => simp [bigIntItem, natItem, eq_comm]
  | some n => simp [bigIntItem, eq_comm]

theorem bigIntItem_inj {left right : Option Int} (first : bigIntItem left = some item)
    (second : bigIntItem right = some item) : left.getD 0 = right.getD 0 := by
  obtain ⟨leftSign, rfl⟩ := bigIntItem_eq_some_iff.mp first
  obtain ⟨rightSign, same⟩ := bigIntItem_eq_some_iff.mp second
  rw [natItem_inj] at same
  omega

theorem pointerItem_uint64 (value : Option UInt64) : pointerItem value = natItem (value.getD 0).toNat := by
  cases value with
  | none => simp [pointerItem, natItem]
  | some n => rfl

theorem toItem_hash_ne_empty (hash : Hash) : toItem hash ≠ .bytes [] := by
  intro empty
  have length := congrArg List.length (Rlp.Item.bytes.inj empty)
  rw [length_fixedBytes hash.isLt] at length
  cases length

theorem pointerItem_hash_inj (same : pointerItem left = pointerItem right) : left = right := by
  cases left <;> cases right <;> simp only [pointerItem] at same
  case none.none => rfl
  case none.some hash => exact absurd same.symm (toItem_hash_ne_empty hash)
  case some.none hash => exact absurd same (toItem_hash_ne_empty hash)
  case some.some => rw [toItem_inj.mp same]

theorem optional_hash (same : pointerItem left = pointerItem right ∨ left.isSome = false ∧ right.isSome = false) :
    left = right := by
  obtain items | ⟨absent, absent'⟩ := same
  · exact pointerItem_hash_inj items
  · rw [Option.isSome_eq_false_iff, Option.isNone_iff_eq_none] at absent absent'
    rw [absent, absent']

theorem optional_uint64 {left right : Option UInt64}
    (same : pointerItem left = pointerItem right ∨ left.isSome = false ∧ right.isSome = false) :
    left.getD 0 = right.getD 0 := by
  obtain items | ⟨absent, absent'⟩ := same
  · rw [pointerItem_uint64, pointerItem_uint64, natItem_inj] at items
    exact UInt64.toNat_inj.mp items
  · rw [Option.isSome_eq_false_iff, Option.isNone_iff_eq_none] at absent absent'
    rw [absent, absent']

namespace BlockHeader

variable {left right : BlockHeader} {extra payload mark : Bytes}

theorem encodeRLP_eq_some_iff {header : BlockHeader} : header.encodeRLP = some item ↔
    ∃ difficulty number baseFee, bigIntItem header.difficulty = some difficulty ∧
      bigIntItem header.number = some number ∧ bigIntItem header.baseFee = some baseFee ∧
      item = .list (header.requiredItems difficulty number ++ Rlp.writeOptional (header.optionalFields baseFee)) := by
  simp only [encodeRLP, Option.bind_eq_bind, Option.bind_eq_some_iff, Option.some.injEq]
  constructor
  · rintro ⟨difficulty, first, number, second, baseFee, third, rfl⟩
    exact ⟨difficulty, number, baseFee, first, second, third, rfl⟩
  · rintro ⟨difficulty, number, baseFee, first, second, third, rfl⟩
    exact ⟨difficulty, first, number, second, baseFee, third, rfl⟩

/-- Two headers that agree in every field, a nil integer as good as zero. -/
structure Agree (left right : BlockHeader) : Prop where
  parentHash : left.parentHash = right.parentHash
  uncleHash : left.uncleHash = right.uncleHash
  coinbase : left.coinbase = right.coinbase
  root : left.root = right.root
  txHash : left.txHash = right.txHash
  receiptHash : left.receiptHash = right.receiptHash
  bloom : left.bloom = right.bloom
  difficulty : left.difficulty.getD 0 = right.difficulty.getD 0
  number : left.number.getD 0 = right.number.getD 0
  gasLimit : left.gasLimit = right.gasLimit
  gasUsed : left.gasUsed = right.gasUsed
  time : left.time = right.time
  extra : left.extra = right.extra
  mixDigest : left.mixDigest = right.mixDigest
  nonce : left.nonce = right.nonce
  baseFee : left.baseFee.getD 0 = right.baseFee.getD 0
  withdrawalsHash : left.withdrawalsHash = right.withdrawalsHash
  blobGasUsed : left.blobGasUsed.getD 0 = right.blobGasUsed.getD 0
  excessBlobGas : left.excessBlobGas.getD 0 = right.excessBlobGas.getD 0
  parentBeaconRoot : left.parentBeaconRoot = right.parentBeaconRoot
  requestsHash : left.requestsHash = right.requestsHash
  blockAccessListHash : left.blockAccessListHash = right.blockAccessListHash
  slotNumber : left.slotNumber.getD 0 = right.slotNumber.getD 0

theorem encodeRLP_inj (first : left.encodeRLP = some item) (second : right.encodeRLP = some item) :
    Agree left right := by
  obtain ⟨difficulty, number, baseFee, hd, hn, hb, rfl⟩ := encodeRLP_eq_some_iff.mp first
  obtain ⟨difficulty', number', baseFee', hd', hn', hb', same⟩ := encodeRLP_eq_some_iff.mp second
  obtain ⟨required, optional⟩ := List.append_inj (Rlp.Item.list.inj same) rfl
  simp only [requiredItems, List.cons.injEq, toItem_inj, Rlp.Item.bytes.injEq, and_true] at required
  obtain ⟨h1, h2, h3, h4, h5, h6, h7, rfl, rfl, h10, h11, h12, h13, h14, h15⟩ := required
  have fields := Rlp.writeOptional_inj (by rfl) optional
  simp only [optionalFields, List.forall₂_cons, List.forall₂_nil_right_iff, and_true] at fields
  obtain ⟨o1, o2, o3, o4, o5, o6, o7, o8⟩ := fields
  have fee : left.baseFee.getD 0 = right.baseFee.getD 0 := by
    obtain rfl | ⟨absent, absent'⟩ := o1
    · exact bigIntItem_inj hb hb'
    · rw [Option.isSome_eq_false_iff, Option.isNone_iff_eq_none] at absent absent'
      rw [absent, absent']
  exact ⟨h1, h2, h3, h4, h5, h6, h7, bigIntItem_inj hd hd', bigIntItem_inj hn hn', h10, h11, h12, h13, h14, h15, fee,
    optional_hash o2, optional_uint64 o3, optional_uint64 o4, optional_hash o5, optional_hash o6, optional_hash o7,
    optional_uint64 o8⟩

theorem Agree.unsealed {extra' : Bytes}
    (agree : Agree { left.copyHeader with extra := extra } { right.copyHeader with extra := extra' })
    (leftCut : left.extra.take (left.extra.length - producerSealLength) = extra)
    (rightCut : right.extra.take (right.extra.length - producerSealLength) = extra') :
    left.unsealed = right.unsealed := by
  have cut := agree.extra
  have difficulty := agree.difficulty
  have number := agree.number
  simp only [copyHeader, Option.getD_some] at difficulty number cut
  simp only [BlockHeader.unsealed, leftCut, rightCut, cut, difficulty, number, mk.injEq, true_and]
  exact ⟨agree.parentHash, agree.uncleHash, agree.coinbase, agree.root, agree.txHash, agree.receiptHash, agree.bloom,
    agree.gasLimit, agree.gasUsed, agree.time, agree.mixDigest, agree.nonce, congrArg some agree.baseFee,
    agree.withdrawalsHash, congrArg some agree.blobGasUsed, congrArg some agree.excessBlobGas, agree.parentBeaconRoot,
    agree.requestsHash, agree.blockAccessListHash, congrArg some agree.slotNumber⟩

/-! ### What a seal covers -/

variable {header : BlockHeader} {crypto : Crypto} {chainID : Option Int}

theorem producerSealData_ok_iff : header.producerSealData chainID = .ok payload ↔
    0 < chainID.getD 0 ∧ 0 < header.number.getD 0 ∧ ∃ extra mark, splitProducerSeal header.extra = some (extra, mark) ∧
      header.producerSealPayload (chainID.getD 0) extra = some payload := by
  simp only [producerSealData, bind_ok_iff, ensure_ok_iff, exists_unit, orFail_ok_iff, Prod.exists]

theorem producerSealPayload_eq_some_iff {id : Int} :
    header.producerSealPayload id extra = some payload ↔
      ∃ unsigned, { header.copyHeader with extra := extra }.encodeRLP = some unsigned ∧
        Rlp.encodeToBytes (.list [textItem "RABBIT-LQC-BLOCK-SEAL-V1", natItem id.toNat, unsigned]) = some payload := by
  simp only [producerSealPayload, Option.bind_eq_bind, Option.bind_eq_some_iff]

theorem take_of_split (cut : splitProducerSeal extra = some (payload, mark)) :
    extra.take (extra.length - producerSealLength) = payload := by
  obtain ⟨length, rfl⟩ := splitProducerSeal_some cut
  rw [List.length_append, length, Nat.add_sub_cancel, List.take_left]

theorem eq_of_getD {left right : Option Int} (positive : 0 < left.getD 0) (same : left.getD 0 = right.getD 0) :
    left = right := by
  cases left <;> cases right <;> simp_all

theorem producerSealData_inj {leftID rightID : Option Int} (first : left.producerSealData leftID = .ok payload)
    (second : right.producerSealData rightID = .ok payload) : leftID = rightID ∧ left.unsealed = right.unsealed := by
  obtain ⟨positive, _, extra, mark, cut, written⟩ := producerSealData_ok_iff.mp first
  obtain ⟨positive', _, extra', mark', cut', written'⟩ := producerSealData_ok_iff.mp second
  obtain ⟨unsigned, encoded, whole⟩ := producerSealPayload_eq_some_iff.mp written
  obtain ⟨unsigned', encoded', whole'⟩ := producerSealPayload_eq_some_iff.mp written'
  obtain ⟨fits, rfl⟩ := Rlp.encodeToBytes_eq_some_iff.mp whole
  obtain ⟨fits', same⟩ := Rlp.encodeToBytes_eq_some_iff.mp whole'
  have items := Rlp.Item.list.inj (Rlp.encode_inj fits' fits same)
  simp only [List.cons.injEq, true_and, and_true, natItem_inj] at items
  obtain ⟨ids, rfl⟩ := items
  refine ⟨eq_of_getD positive (by omega), ?_⟩
  exact (encodeRLP_inj encoded encoded').unsealed (take_of_split cut) (take_of_split cut')

theorem sealHeader_ok_iff {sign : Option (Address → Bytes → Option Bytes)} {sealed : BlockHeader} :
    header.sealHeader crypto chainID sign = .ok sealed ↔
      ∃ signer payload signature extra mark, sign = some signer ∧ header.producerSealData chainID = .ok payload ∧
        signer header.coinbase payload = some signature ∧ signature.length = producerSealLength ∧
        splitProducerSeal header.extra = some (extra, mark) ∧
        sealed = { header.copyHeader with extra := extra ++ signature } ∧
        sealed.verifyProducerSeal crypto chainID = .ok () := by
  simp only [sealHeader, bind_ok_iff, ensure_ok_iff, exists_unit, orFail_ok_iff, Prod.exists, Except.ok.injEq]
  constructor
  · rintro ⟨signer, given, payload, data, signature, signed, length, extra, mark, cut, verified, rfl⟩
    exact ⟨signer, payload, signature, extra, mark, given, data, signed, length, cut, rfl, verified⟩
  · rintro ⟨signer, payload, signature, extra, mark, given, data, signed, length, cut, rfl, verified⟩
    exact ⟨signer, given, payload, data, signature, signed, length, extra, mark, cut, verified, rfl⟩

theorem unsealed_of_split {signature : Bytes} (cut : splitProducerSeal header.extra = some (extra, mark))
    (length : signature.length = producerSealLength) :
    { header.copyHeader with extra := extra ++ signature }.unsealed = header.unsealed := by
  have before := take_of_split cut
  have after := take_of_split (splitProducerSeal_append length : splitProducerSeal (extra ++ signature) = _)
  simp only [unsealed, copyHeader, Option.getD_some, before, after]

end BlockHeader

/-- The seal covers the header: equal payloads are those of one chain and of headers that agree in everything but
their last 65 extra bytes, a nil integer as good as zero. Sealing changes nothing but those bytes, and what it returns
verifies, whoever signs. -/
theorem producer_seal_covers :
    (∀ (leftID rightID : Option Int) (left right : BlockHeader) (payload : Bytes),
      left.producerSealData leftID = .ok payload → right.producerSealData rightID = .ok payload →
      leftID = rightID ∧ left.unsealed = right.unsealed) ∧
    (∀ (crypto : Crypto) (chainID : Option Int) (header sealed : BlockHeader)
      (sign : Option (Address → Bytes → Option Bytes)), header.sealHeader crypto chainID sign = .ok sealed →
      sealed = { header.copyHeader with extra := sealed.extra } ∧ sealed.extra.length = header.extra.length ∧
        sealed.unsealed = header.unsealed ∧ sealed.verifyProducerSeal crypto chainID = .ok ()) := by
  refine ⟨?_, ?_⟩
  · intro leftID rightID left right payload first second
    exact BlockHeader.producerSealData_inj first second
  · intro crypto chainID header sealed sign done
    obtain ⟨_, _, signature, extra, mark, _, _, _, length, cut, rfl, verified⟩ := BlockHeader.sealHeader_ok_iff.mp done
    refine ⟨rfl, ?_, BlockHeader.unsealed_of_split cut length, verified⟩
    obtain ⟨markLength, whole⟩ := splitProducerSeal_some cut
    rw [whole, List.length_append, List.length_append, length, markLength]

end RabbitLqc
