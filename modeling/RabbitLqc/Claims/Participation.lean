import RabbitLqc.Claims.Ledger
import RabbitLqc.Work.Epoch

/-!
# Committee participation proofs

A claim travels as a position and a signature. Verification rebuilds the proof from the committee
of the target block, recomputes its RandomX result and checks who signed that result.
-/

namespace RabbitLqc
open Lib RlpCodec

variable {crypto : Crypto} {proofHash parentHash selectionRoot : Hash} {selected : List WorkSeatV1}
  {blockNumber : Nat} {previous : Option Nat} {compact : List CompactCommitteeParticipationV1}

def committeeParticipationVersionV1 : UInt8 := 1

/-! ### Ledger root -/

def CommitteeClaimBitmapV1.item (window : CommitteeClaimBitmapV1) : Rlp.Item :=
  .list [natItem window.targetBlock, .bytes window.claimed.toList]

def CommitteeClaimLedgerV1.root (crypto : Crypto) (ledger : CommitteeClaimLedgerV1) :
    Except LqcError Hash := do
  ledger.validate
  .ok <| crypto.keccak256 <| Rlp.encode <| .list [textItem "RABBIT-LQC-COMMITTEE-CLAIM-LEDGER-V1",
    toItem committeeParticipationVersionV1, .list (ledger.windows.map CommitteeClaimBitmapV1.item)]

/-! ### Proofs -/

structure CommitteeParticipationV1 where
  version : UInt8
  blockNumber : Nat
  parentHash : Hash
  selectionRoot : Hash
  ticketHash : Hash
  participant : Address
  signature : Bytes
  deriving DecidableEq

variable {proof : CommitteeParticipationV1} {expanded : List (UInt8 × WorkSeatV1 × CommitteeParticipationV1)}

namespace CommitteeParticipationV1

def validateContext (chainID : Nat) (proof : CommitteeParticipationV1) : Except LqcError Unit :=
  ensure (chainID ≠ 0 ∧ proof.version = committeeParticipationVersionV1 ∧ proof.blockNumber ≠ 0 ∧
    proof.parentHash ≠ 0 ∧ proof.selectionRoot ≠ 0 ∧ proof.ticketHash ≠ 0 ∧ proof.participant ≠ 0)
    .invalidCommitteeParticipationV1

def fields (chainID : Nat) (proof : CommitteeParticipationV1) : List Rlp.Item :=
  [toItem proof.version, natItem chainID, natItem proof.blockNumber, toItem proof.parentHash,
    toItem proof.selectionRoot, toItem proof.ticketHash, toItem proof.participant]

end CommitteeParticipationV1

def committeeParticipationInputV1 (chainID : Nat) (proof : CommitteeParticipationV1) :
    Except LqcError Bytes := do
  proof.validateContext chainID
  .ok <| Rlp.encode <| .list <| textItem "RABBIT-LQC-COMMITTEE-PARTICIPATION-INPUT-V1" ::
    proof.fields chainID

/-- The bytes whose hash is signed. They name the chain. -/
def committeeParticipationSigningDataV1 (chainID : Nat) (proof : CommitteeParticipationV1) (proofHash : Hash) :
    Except LqcError Bytes := do
  proof.validateContext chainID
  ensure (proofHash ≠ 0) .invalidCommitteeParticipationV1
  .ok <| Rlp.encode <| .list <|
    textItem "RABBIT-LQC-COMMITTEE-PARTICIPATION-SIGN-V1" :: (proof.fields chainID ++ [toItem proofHash])

def committeeParticipationSigningHashV1 (crypto : Crypto) (chainID : Nat)
    (proof : CommitteeParticipationV1) (proofHash : Hash) : Except LqcError Hash := do
  let data ← committeeParticipationSigningDataV1 chainID proof proofHash
  .ok (crypto.keccak256 data)

def verifyCommitteeParticipationV1 (crypto : Crypto) (chainID : Nat) (selected : WorkSeatV1)
    (proof : CommitteeParticipationV1) (proofHash : Hash) : Except LqcError Unit := do
  ensure (selected.participant = proof.participant ∧ selected.ticketHash = proof.ticketHash)
    .committeeParticipantNotSelectedV1
  ensure (proof.signature.length = signatureLength) .invalidCommitteeSignatureV1
  let signingHash ← committeeParticipationSigningHashV1 crypto chainID proof proofHash
  ensure (crypto.recover signingHash proof.signature = some proof.participant)
    .invalidCommitteeSignatureV1

/-! ### Claim groups -/

structure CommitteeParticipationVerificationContextV1 where
  chainID : Nat
  datasetKey : Hash
  parentHash : Hash
  selectionRoot : Hash
  committee : List WorkSeatV1

variable {ctx : CommitteeParticipationVerificationContextV1}

/-- The expansion loop; `previous` is the position before. Each proof keeps the seat it is for. -/
def expandFrom (blockNumber : Nat) (parentHash selectionRoot : Hash) (selected : List WorkSeatV1) :
    Option Nat → List CompactCommitteeParticipationV1 →
    Except LqcError (List (UInt8 × WorkSeatV1 × CommitteeParticipationV1))
  | _, [] => .ok []
  | previous, item :: rest =>
    match selected[item.position.toNat]? with
    | none => .error .committeeParticipantNotSelectedV1
    | some seat => do
      ensure (∀ position ∈ previous, position < item.position.toNat)
        .nonCanonicalCommitteeParticipationV1
      ensure (item.signature.length = signatureLength) .invalidCompactCommitteeParticipationV1
      ensure (seat.participant ≠ 0 ∧ seat.ticketHash ≠ 0) .committeeParticipantNotSelectedV1
      let proofs ← expandFrom blockNumber parentHash selectionRoot selected
        (some item.position.toNat) rest
      .ok ((item.position, seat, ⟨committeeParticipationVersionV1, blockNumber, parentHash,
        selectionRoot, seat.ticketHash, seat.participant, item.signature⟩) :: proofs)

def expandCommitteeParticipationsV1 (blockNumber : Nat) (parentHash selectionRoot : Hash)
    (selected : List WorkSeatV1) (compact : List CompactCommitteeParticipationV1) :
    Except LqcError (List (UInt8 × WorkSeatV1 × CommitteeParticipationV1)) := do
  ensure (blockNumber ≠ 0 ∧ parentHash ≠ 0 ∧ selectionRoot ≠ 0 ∧
    selected.length ≤ maxCommitteeParticipationsV1 ∧
    compact.length ≤ maxCommitteeParticipationsV1 ∧ compact.length ≤ selected.length)
    .invalidCompactCommitteeParticipationV1
  expandFrom blockNumber parentHash selectionRoot selected none compact

structure VerifiedCommitteeParticipationV1 where
  targetBlock : Nat
  position : UInt8
  seat : WorkSeatV1
  proofHash : Hash
  deriving DecidableEq

def verifyExpanded (crypto : Crypto) (ctx : CommitteeParticipationVerificationContextV1)
    (targetBlock : Nat) (expanded : UInt8 × WorkSeatV1 × CommitteeParticipationV1) :
    Except LqcError VerifiedCommitteeParticipationV1 := do
  let (position, seat, proof) := expanded
  let input ← committeeParticipationInputV1 ctx.chainID proof
  match crypto.randomX ctx.datasetKey input with
  | none => .error .randomXUnavailable
  | some proofHash => do
    verifyCommitteeParticipationV1 crypto ctx.chainID seat proof proofHash
    .ok ⟨targetBlock, position, seat, proofHash⟩

def verifyCommitteeParticipationClaimGroupV1 (crypto : Crypto)
    (ctx : CommitteeParticipationVerificationContextV1) (group : CommitteeParticipationClaimGroupV1) :
    Except LqcError (List VerifiedCommitteeParticipationV1) := do
  ensure (ctx.chainID ≠ 0 ∧ ctx.datasetKey ≠ 0 ∧ ctx.parentHash ≠ 0 ∧ ctx.selectionRoot ≠ 0 ∧
    ctx.committee.length ≤ maxCommitteeParticipationsV1) .invalidCommitteeParticipationVerificationV1
  let expanded ← expandCommitteeParticipationsV1 group.target ctx.parentHash ctx.selectionRoot
    ctx.committee group.participations
  expanded.mapM (verifyExpanded crypto ctx group.target)

/-! ### What verification accepts -/

theorem verifyCommitteeParticipationV1_ok_iff {chainID : Nat} {selected : WorkSeatV1} :
    verifyCommitteeParticipationV1 crypto chainID selected proof proofHash = .ok () ↔
      (selected.participant = proof.participant ∧ selected.ticketHash = proof.ticketHash) ∧
        proof.signature.length = signatureLength ∧
        ∃ digest, committeeParticipationSigningHashV1 crypto chainID proof proofHash = .ok digest ∧
          crypto.recover digest proof.signature = some proof.participant := by
  simp only [verifyCommitteeParticipationV1, bind_ok_iff, ensure_ok_iff, exists_unit]

theorem verifyExpanded_eq_ok {target : Nat} {position : UInt8} {seat : WorkSeatV1} {input : Bytes}
    (made : committeeParticipationInputV1 ctx.chainID proof = .ok input)
    (computed : crypto.randomX ctx.datasetKey input = some proofHash)
    (verifies : verifyCommitteeParticipationV1 crypto ctx.chainID seat proof proofHash = .ok ()) :
    verifyExpanded crypto ctx target (position, seat, proof) = .ok ⟨target, position, seat, proofHash⟩ := by
  refine bind_ok_iff.mpr ⟨input, made, ?_⟩
  rw [computed]
  exact bind_ok_iff.mpr ⟨(), verifies, rfl⟩

/-! ### What expansion keeps -/

theorem expandFrom_ok (run : expandFrom blockNumber parentHash selectionRoot selected previous compact = .ok expanded) :
    (∀ claim ∈ expanded, selected[claim.1.toNat]? = some claim.2.1 ∧ ∀ last ∈ previous, last < claim.1.toNat) ∧
      expanded.Pairwise fun earlier later => earlier.1.toNat < later.1.toNat := by
  induction compact generalizing previous expanded with
  | nil =>
    obtain rfl := Except.ok.inj run
    exact ⟨by simp, .nil⟩
  | cons item rest ih =>
    unfold expandFrom at run
    split at run
    · cases run
    · next seat here =>
      obtain ⟨_, above, run⟩ := bind_ok run
      obtain ⟨_, _, run⟩ := bind_ok run
      obtain ⟨_, _, run⟩ := bind_ok run
      obtain ⟨proofs, others, run⟩ := bind_ok run
      obtain rfl := Except.ok.inj run
      obtain ⟨each, ascending⟩ := ih others
      have above := ensure_ok_iff.mp above
      have later : ∀ claim ∈ proofs, item.position.toNat < claim.1.toNat := fun claim member =>
        (each claim member).2 _ rfl
      refine ⟨List.forall_mem_cons.mpr ⟨⟨here, above⟩, fun claim member => ⟨(each claim member).1, ?_⟩⟩,
        List.pairwise_cons.mpr ⟨later, ascending⟩⟩
      exact fun last found => (above last found).trans (later claim member)

theorem expandFrom_positions
    (run : expandFrom blockNumber parentHash selectionRoot selected previous compact = .ok expanded) :
    expanded.map (·.1) = compact.map (·.position) := by
  induction compact generalizing previous expanded with
  | nil =>
    obtain rfl := Except.ok.inj run
    rfl
  | cons item rest ih =>
    unfold expandFrom at run
    split at run
    · cases run
    · obtain ⟨_, _, run⟩ := bind_ok run
      obtain ⟨_, _, run⟩ := bind_ok run
      obtain ⟨_, _, run⟩ := bind_ok run
      obtain ⟨proofs, others, run⟩ := bind_ok run
      obtain rfl := Except.ok.inj run
      rw [List.map_cons, List.map_cons, ih others]

theorem verifyCommitteeParticipationClaimGroupV1_distinct {group : CommitteeParticipationClaimGroupV1}
    {items : List VerifiedCommitteeParticipationV1}
    (run : verifyCommitteeParticipationClaimGroupV1 crypto ctx group = .ok items) :
    (group.participations.map (·.position)).Nodup := by
  obtain ⟨_, _, run⟩ := bind_ok run
  obtain ⟨expanded, expands, _⟩ := bind_ok run
  obtain ⟨_, _, expands⟩ := bind_ok expands
  rw [← expandFrom_positions expands]
  refine List.pairwise_map.mpr ((expandFrom_ok expands).2.imp ?_)
  intro earlier later below same
  exact absurd below (by rw [same]; exact lt_irrefl _)

end RabbitLqc
