import RabbitLqc.Lib.RlpCommit
import RabbitLqc.Work.Epoch

/-!
# Commit candidates

A ticket whose proof was recomputed waits for a block as a candidate. A producer orders the candidates it knows by a
hash of their proofs, which no choice of address can improve, and takes the first of them.
-/

namespace RabbitLqc
open Lib RlpCodec

def workTicketCommitCapacityPerEpochV1 : Nat := workProtocolEpochLengthV1 * maxWorkTicketsPerBlockV1

structure WorkCommitCandidateV1 where
  signed : SignedRandomXWorkTicketV1
  proofHash : Hash
  deriving DecidableEq, Repr

instance : RlpCodec WorkCommitCandidateV1 where
  toItem candidate := .list [toItem candidate.signed, toItem candidate.proofHash]
  ofItem
    | .list [signed, proofHash] => do some ⟨← ofItem signed, ← ofItem proofHash⟩
    | _ => none
  ofItem_toItem candidate := by simp

namespace WorkCommitCandidateV1

def epoch (candidate : WorkCommitCandidateV1) : UInt64 := candidate.signed.ticket.epoch

def participant (candidate : WorkCommitCandidateV1) : Address := candidate.signed.ticket.participant

def semanticKey (candidate : WorkCommitCandidateV1) : UInt64 × Address × UInt64 := candidate.signed.ticket.semanticKey

end WorkCommitCandidateV1

/-! ### Proofs -/

/-- What the candidates are ordered by: a hash of the epoch and the proof. -/
def workCommitPriority (crypto : Crypto) (epoch : UInt64) (proofHash : Hash) : Hash :=
  crypto.keccak256 (asciiBytes "RABBIT-LQC-WORK-COMMIT-PRIORITY-V1" ++ fixedBytes 8 epoch.toNat ++
    fixedBytes 32 proofHash.toNat)

def workCommitPriorityV1 (crypto : Crypto) (epoch : UInt64) (proofHash : Hash) : Except LqcError Hash := do
  ensure (epoch ≠ 0 ∧ proofHash ≠ 0) .invalidWorkCommitV1
  .ok (workCommitPriority crypto epoch proofHash)

def checkWorkCommitCandidatesAfter (epoch : UInt64) (seen : List WorkCommitCandidateV1) :
    List WorkCommitCandidateV1 → Except LqcError Unit
  | [] => .ok ()
  | candidate :: rest => do
    ensure (candidate.proofHash ≠ 0) .invalidWorkCommitV1
    validateWorkTicketHeaderShapeV3 candidate.signed
    ensure (candidate.epoch = epoch) .workCommitEpochMismatchV1
    ensure (∀ earlier ∈ seen, earlier.proofHash ≠ candidate.proofHash) .duplicateRandomXWorkHash
    ensure (∀ earlier ∈ seen, earlier.semanticKey ≠ candidate.semanticKey) .duplicateWorkTicketV3
    ensure (∀ earlier ∈ seen, earlier.participant ≠ candidate.participant) .duplicateWorkParticipantV1
    checkWorkCommitCandidatesAfter epoch (candidate :: seen) rest

def scoreWorkCommitCandidateV1 (crypto : Crypto) (commitEpoch : UInt64) (candidate : WorkCommitCandidateV1) :
    Except LqcError (WorkCommitCandidateV1 × Hash) := do
  let priority ← workCommitPriorityV1 crypto commitEpoch candidate.proofHash
  .ok (candidate, priority)

def scoredKey (scored : WorkCommitCandidateV1 × Hash) : List Nat :=
  [scored.2.toNat, scored.1.proofHash.toNat, scored.1.participant.toNat, scored.1.signed.ticket.nonce.toNat]

def canonicalWorkCommitCandidatesV1 (crypto : Crypto) (input : List WorkCommitCandidateV1) (commitEpoch : UInt64) :
    Except LqcError (List WorkCommitCandidateV1) := do
  ensure (commitEpoch ≠ 0) .invalidWorkCommitV1
  checkWorkCommitCandidatesAfter commitEpoch [] input
  -- a candidate that passed its checks has a priority
  let scored ← input.mapM (scoreWorkCommitCandidateV1 crypto commitEpoch)
  .ok ((sortOn scoredKey scored).map Prod.fst)

/-- The candidates first in that order, as many as a block takes. -/
def selectWorkCommitBatchV1 (crypto : Crypto) (input : List WorkCommitCandidateV1) (commitEpoch : UInt64) :
    Except LqcError (List WorkCommitCandidateV1) := do
  let canonical ← canonicalWorkCommitCandidatesV1 crypto input commitEpoch
  .ok (canonical.take maxWorkTicketsPerBlockV1)

/-! ### What the checks establish -/

/-- Candidates of one epoch, each of another participant and with another proof. -/
structure CandidateSet (epoch : UInt64) (candidates : List WorkCommitCandidateV1) : Prop where
  proofs : ∀ candidate ∈ candidates, candidate.proofHash ≠ 0
  shapes : ∀ candidate ∈ candidates, TicketShape candidate.signed
  epochs : ∀ candidate ∈ candidates, candidate.epoch = epoch
  distinctProofs : (candidates.map (·.proofHash)).Nodup
  distinctParticipants : (candidates.map (·.participant)).Nodup

theorem WorkCommitCandidateV1.participant_eq_of_semanticKey {left right : WorkCommitCandidateV1}
    (same : left.semanticKey = right.semanticKey) : left.participant = right.participant :=
  (Prod.mk.inj (Prod.mk.inj same).2).1

theorem checkWorkCommitCandidatesAfter_ok_iff {epoch : UInt64} {seen input : List WorkCommitCandidateV1} {u : Unit} :
    checkWorkCommitCandidatesAfter epoch seen input = .ok u ↔
      CandidateSet epoch input ∧ ∀ earlier ∈ seen, ∀ candidate ∈ input,
        earlier.proofHash ≠ candidate.proofHash ∧ earlier.participant ≠ candidate.participant := by
  induction input generalizing seen with
  | nil =>
    simp only [checkWorkCommitCandidatesAfter, List.not_mem_nil, IsEmpty.forall_iff, implies_true, and_true, true_iff]
    exact ⟨by simp, by simp, by simp, by simp, by simp⟩
  | cons candidate rest ih =>
    simp only [checkWorkCommitCandidatesAfter, bind_ok_iff, ensure_ok_iff, exists_unit,
      validateWorkTicketHeaderShapeV3_ok_iff, ih]
    constructor
    · intro given
      obtain ⟨proof, shape, sameEpoch, freshProof, _, freshParticipant, others, apart⟩ := given
      have first := fun other member => apart candidate List.mem_cons_self other member
      refine ⟨⟨?_, ?_, ?_, ?_, ?_⟩, ?_⟩
      · exact List.forall_mem_cons.mpr ⟨proof, others.proofs⟩
      · exact List.forall_mem_cons.mpr ⟨shape, others.shapes⟩
      · exact List.forall_mem_cons.mpr ⟨sameEpoch, others.epochs⟩
      · refine List.nodup_cons.mpr ⟨fun again => ?_, others.distinctProofs⟩
        obtain ⟨other, member, same⟩ := List.mem_map.mp again
        exact (first other member).1 same.symm
      · refine List.nodup_cons.mpr ⟨fun again => ?_, others.distinctParticipants⟩
        obtain ⟨other, member, same⟩ := List.mem_map.mp again
        exact (first other member).2 same.symm
      · intro earlier old
        refine List.forall_mem_cons.mpr ⟨⟨freshProof earlier old, freshParticipant earlier old⟩, fun other member => ?_⟩
        exact apart earlier (List.mem_cons_of_mem _ old) other member
    · intro given
      obtain ⟨all, apart⟩ := given
      obtain ⟨proof, proofs⟩ := List.forall_mem_cons.mp all.proofs
      obtain ⟨shape, shapes⟩ := List.forall_mem_cons.mp all.shapes
      obtain ⟨sameEpoch, epochs⟩ := List.forall_mem_cons.mp all.epochs
      obtain ⟨newProof, distinctProofs⟩ := List.nodup_cons.mp all.distinctProofs
      obtain ⟨newParticipant, distinctParticipants⟩ := List.nodup_cons.mp all.distinctParticipants
      have fresh := fun earlier old => (apart earlier old candidate List.mem_cons_self)
      refine ⟨proof, shape, sameEpoch, fun earlier old => (fresh earlier old).1, fun earlier old same => ?_,
        fun earlier old => (fresh earlier old).2, ⟨proofs, shapes, epochs, distinctProofs, distinctParticipants⟩, ?_⟩
      · -- equal semantic keys name one participant, which the last check refuses anyway
        exact (fresh earlier old).2 (WorkCommitCandidateV1.participant_eq_of_semanticKey same)
      · refine List.forall_mem_cons.mpr
          ⟨fun other member => ⟨fun same => ?_, fun same => ?_⟩, fun earlier old other member => ?_⟩
        · exact newProof (List.mem_map.mpr ⟨other, member, same.symm⟩)
        · exact newParticipant (List.mem_map.mpr ⟨other, member, same.symm⟩)
        · exact apart earlier old other (List.mem_cons_of_mem _ member)

section Canonical

variable {crypto : Crypto} {epoch : UInt64} {input canonical : List WorkCommitCandidateV1}

def commitOrderKey (crypto : Crypto) (epoch : UInt64) (candidate : WorkCommitCandidateV1) : List Nat :=
  scoredKey (candidate, workCommitPriority crypto epoch candidate.proofHash)

theorem canonicalWorkCommitCandidatesV1_eq (known : epoch ≠ 0) (valid : CandidateSet epoch input) :
    canonicalWorkCommitCandidatesV1 crypto input epoch = .ok (sortOn (commitOrderKey crypto epoch) input) := by
  have checked : checkWorkCommitCandidatesAfter epoch [] input = .ok () :=
    checkWorkCommitCandidatesAfter_ok_iff.mpr ⟨valid, by simp⟩
  have scored : input.mapM (scoreWorkCommitCandidateV1 crypto epoch) =
      .ok (input.map fun candidate => (candidate, workCommitPriority crypto epoch candidate.proofHash)) := by
    refine mapM_eq_map fun candidate member => ?_
    simp only [scoreWorkCommitCandidateV1, workCommitPriorityV1, bind_ok_iff, ensure_ok_iff, exists_unit,
      Except.ok.injEq]
    exact ⟨_, ⟨⟨known, valid.proofs candidate member⟩, rfl⟩, rfl⟩
  simp only [canonicalWorkCommitCandidatesV1, bind_ok_iff, ensure_ok_iff, exists_unit, checked, scored,
    Except.ok.injEq, exists_eq_left', true_and]
  refine ⟨known, ?_⟩
  rw [sortOn_map, List.map_map]
  exact List.map_id _

theorem canonicalWorkCommitCandidatesV1_ok (made : canonicalWorkCommitCandidatesV1 crypto input epoch = .ok canonical) :
    epoch ≠ 0 ∧ CandidateSet epoch input ∧ canonical.Perm input := by
  have steps := made
  simp only [canonicalWorkCommitCandidatesV1, bind_ok_iff, ensure_ok_iff, exists_unit,
    checkWorkCommitCandidatesAfter_ok_iff] at steps
  obtain ⟨known, ⟨valid, _⟩, _⟩ := steps
  rw [canonicalWorkCommitCandidatesV1_eq known valid] at made
  obtain rfl := Except.ok.inj made
  exact ⟨known, valid, sortOn_perm⟩

end Canonical

end RabbitLqc
