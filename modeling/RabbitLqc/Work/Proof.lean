import RabbitLqc.Work.Ticket

/-!
# Work proofs

What a ticket has RandomX compute, the target its result has to meet, and the signature that
ties it to its participant.
-/

namespace RabbitLqc
open Lib RlpCodec

/-- A ticket with the RandomX result that was recomputed for it. -/
structure VerifiedRandomXWorkTicketV1 where
  ticket : RandomXWorkTicketV1
  hash : Hash
  deriving DecidableEq, Repr

def randomXWorkDatasetKeyV1 (crypto : Crypto) (chainID epoch : Nat) (datasetAnchor : Hash) :
    Except LqcError Hash := do
  ensure (chainID ≠ 0) .invalidRandomXWorkChainID
  ensure (epoch ≠ 0) .invalidRandomXWorkTicket
  ensure (datasetAnchor ≠ 0) .invalidRandomXWorkAnchor
  .ok <| crypto.keccak256 <| Rlp.encode <| .list [textItem "RABBIT-LQC-RANDOMX-EPOCH-KEY-V1",
    toItem randomXWorkProtocolVersion, natItem chainID, natItem epoch, toItem datasetAnchor]

def validateRandomXWorkContextV1 (chainID : Nat) (anchor : Hash) (ticket : RandomXWorkTicketV1) :
    Except LqcError Unit := do
  ensure (chainID ≠ 0) .invalidRandomXWorkChainID
  ensure (anchor ≠ 0) .invalidRandomXWorkAnchor
  validateRandomXWorkTicketV1 ticket

/-- The fields both the challenge and the signature cover. -/
def ticketFields (chainID : Nat) (anchor : Hash) (ticket : RandomXWorkTicketV1) : List Rlp.Item :=
  [toItem ticket.version, natItem chainID, toItem ticket.epoch, toItem anchor,
    toItem ticket.participant, toItem ticket.nonce]

def randomXWorkChallengeInputV1 (chainID : Nat) (anchor : Hash) (ticket : RandomXWorkTicketV1) :
    Except LqcError Bytes := do
  validateRandomXWorkContextV1 chainID anchor ticket
  .ok <| Rlp.encode <| .list <| textItem "RABBIT-LQC-RANDOMX-INPUT-V1" ::
    ticketFields chainID anchor ticket

def randomXWorkSigningHashV1 (crypto : Crypto) (chainID : Nat) (anchor : Hash)
    (ticket : RandomXWorkTicketV1) (proofHash : Hash) : Except LqcError Hash := do
  validateRandomXWorkContextV1 chainID anchor ticket
  .ok <| crypto.keccak256 <| Rlp.encode <| .list <| textItem "RABBIT-LQC-RANDOMX-SIGN-V1" ::
    (ticketFields chainID anchor ticket ++ [toItem proofHash])

def verifyRandomXWorkSignatureV1 (crypto : Crypto) (chainID : Nat) (anchor : Hash)
    (signed : SignedRandomXWorkTicketV1) (proofHash : Hash) : Except LqcError Unit := do
  ensure (signatureShapeOk signed.signature) .invalidRandomXWorkSignature
  let hash ← randomXWorkSigningHashV1 crypto chainID anchor signed.ticket proofHash
  ensure (crypto.recover hash signed.signature = some signed.ticket.participant)
    .invalidRandomXWorkSignature

/-- The largest result that meets a difficulty. -/
def randomXWorkTargetV1 (difficulty : Nat) : Except LqcError Nat := do
  ensure (difficulty ≠ 0 ∧ (2 ^ 256 - 1) / difficulty ≠ 0) .invalidRandomXWorkDifficulty
  .ok ((2 ^ 256 - 1) / difficulty)

def validateRecomputedRandomXWorkV1 (crypto : Crypto) (chainID : Nat) (anchor : Hash)
    (difficulty : Nat) (signed : SignedRandomXWorkTicketV1) (proofHash : Hash) :
    Except LqcError VerifiedRandomXWorkTicketV1 := do
  let target ← randomXWorkTargetV1 difficulty
  ensure (proofHash.toNat ≤ target) .randomXWorkTargetNotMet
  verifyRandomXWorkSignatureV1 crypto chainID anchor signed proofHash
  .ok ⟨signed.ticket, proofHash⟩

def workV2AdmissionEligibility (address : Address) : Except LqcError Unit :=
  ensure (address ≠ 0) .workV2AdmissionParticipantInvalid

end RabbitLqc
