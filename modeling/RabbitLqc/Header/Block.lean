import RabbitLqc.Header.Frame

/-!
# Block headers

The header fields the consensus rules read. The fields that only the execution layer reads are
kept together; they take part in the hash and in what a producer signs.
-/

namespace RabbitLqc
open Lib RlpCodec

/-- The number is any number here; verification refuses one that is not a 64-bit word. -/
structure Header where
  parentHash : Hash
  coinbase : Address
  difficulty : Nat := 0
  number : Nat
  time : Nat
  extra : Bytes
  mixDigest : Hash := 0
  nonce : UInt64 := 0
  execution : Bytes := []
  deriving DecidableEq, Repr

namespace Header

variable (crypto : Crypto) (header : Header)

def item : Rlp.Item :=
  .list [toItem header.parentHash, toItem header.coinbase, natItem header.difficulty,
    natItem header.number, natItem header.time, .bytes header.extra, toItem header.mixDigest,
    toItem header.nonce, .bytes header.execution]

def hash : Hash := crypto.keccak256 (Rlp.encode header.item)

end Header

/-! ### Producer seal -/

/-- What the producer signs: the header without its seal, and the chain it is for. -/
def producerSealHash (crypto : Crypto) (chainID : Nat) (header : Header) : Except LqcError Hash := do
  ensure (chainID ≠ 0) .missingSealChainID
  ensure (header.number ≠ 0) .invalidSealHeader
  match splitProducerSeal header.extra with
  | none => .error .missingProducerSeal
  | some (payload, _) =>
    .ok <| crypto.keccak256 <| Rlp.encode <| .list [textItem "RABBIT-LQC-BLOCK-SEAL-V1",
      natItem chainID, { header with extra := payload }.item]

def recoverProducerSeal (crypto : Crypto) (chainID : Nat) (header : Header) :
    Except LqcError Address :=
  match splitProducerSeal header.extra with
  | none => .error .missingProducerSeal
  | some (_, signature) => do
    ensure (signature ≠ List.replicate producerSealLength 0) .missingProducerSeal
    ensure (signatureShapeOk signature) .invalidProducerSeal
    let hash ← producerSealHash crypto chainID header
    match crypto.recover hash signature with
    | none => .error .invalidProducerSeal
    | some signer => .ok signer

def verifyProducerSeal (crypto : Crypto) (chainID : Nat) (header : Header) : Except LqcError Unit := do
  ensure (header.coinbase ≠ 0) .unauthorizedProducerSeal
  let signer ← recoverProducerSeal crypto chainID header
  ensure (signer = header.coinbase) .unauthorizedProducerSeal

theorem verifyProducerSeal_coinbase {crypto : Crypto} {chainID : Nat} {header : Header} {u : Unit}
    (h : verifyProducerSeal crypto chainID header = .ok u) : header.coinbase ≠ 0 := by
  unfold verifyProducerSeal at h
  obtain ⟨_, nonzero, _⟩ := bind_ok h
  exact ensure_ok_iff.mp nonzero

end RabbitLqc
