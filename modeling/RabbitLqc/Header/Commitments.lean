import RabbitLqc.Claims.Participation
import RabbitLqc.Registry.Stored
import RabbitLqc.Work.Stored

/-!
# What the roots of a header bind

A header commits to the work state, the claim ledger and the registry by their roots. No field of these states
is left out of its root, apart from the hash of the block, which the header itself determines.
-/

namespace RabbitLqc
open Lib RlpCodec

/-! ### The claim ledger -/

theorem CommitteeClaimBitmapV1.item_injective : Function.Injective CommitteeClaimBitmapV1.item := by
  intro left right same
  simp only [CommitteeClaimBitmapV1.item, Rlp.Item.list.injEq, List.cons.injEq, natItem_inj, Rlp.Item.bytes.injEq,
    and_true] at same
  obtain ⟨target, claimed⟩ := same
  cases left
  cases right
  simp only at target claimed
  rw [target, Vector.toList_inj.mp claimed]

def CommitteeClaimLedgerV1.rootItem (ledger : CommitteeClaimLedgerV1) : Rlp.Item :=
  .list [textItem "RABBIT-LQC-COMMITTEE-CLAIM-LEDGER-V1", toItem committeeParticipationVersionV1,
    .list (ledger.windows.map CommitteeClaimBitmapV1.item)]

theorem CommitteeClaimLedgerV1.eq_of_root {crypto : Crypto} {left right : CommitteeClaimLedgerV1} {root : Hash}
    (separated : Rlp.Separated crypto.keccak256 left.rootItem right.rootItem)
    (leftRoot : left.root crypto = .ok root) (rightRoot : right.root crypto = .ok root) : left = right := by
  obtain ⟨_, _, first⟩ := bind_ok leftRoot
  obtain ⟨_, _, second⟩ := bind_ok rightRoot
  have payload := separated.eq ((Except.ok.inj first).trans (Except.ok.inj second).symm)
  simp only [rootItem, Rlp.Item.list.injEq, List.cons.injEq, true_and, and_true] at payload
  have windows := CommitteeClaimBitmapV1.item_injective.list_map payload
  cases left
  cases right
  exact congrArg CommitteeClaimLedgerV1.mk windows

/-! ### The work state -/

def StoredWorkRuntimeStateV1.withoutHash (stored : StoredWorkRuntimeStateV1) : StoredWorkRuntimeStateV1 :=
  { stored with work := stored.work.map fun work => { work with hash := 0 } }

def CanonicalWorkRuntimeStateV1.atBlock (state : CanonicalWorkRuntimeStateV1) (hash : Hash) :
    CanonicalWorkRuntimeStateV1 :=
  { state with work := { state.work with hash } }

namespace CanonicalWorkRuntimeStateV1

variable {crypto : Crypto} {chainID : Nat} {state left right : CanonicalWorkRuntimeStateV1} {hash root : Hash}

theorem stored_atBlock_withoutHash :
    ((state.atBlock hash).stored crypto chainID).withoutHash = (state.stored crypto chainID).withoutHash := rfl

theorem atBlock_eq_of_root (separated : left.Separated crypto chainID right)
    (leftRoot : canonicalWorkRuntimeStateRootV1 crypto chainID left = .ok root)
    (rightRoot : canonicalWorkRuntimeStateRootV1 crypto chainID right = .ok root) :
    left = right.atBlock left.work.hash := by
  obtain ⟨leftValid, first⟩ := canonicalWorkRuntimeStateRootV1_eq leftRoot
  obtain ⟨rightValid, second⟩ := canonicalWorkRuntimeStateRootV1_eq rightRoot
  have moved : (right.atBlock left.work.hash).Valid crypto chainID :=
    ⟨rightValid.work.move right.work.number leftValid.work.fields.2.1, rightValid.difficulty⟩
  -- no root payload has the hash of the block
  have apart : left.Separated crypto chainID (right.atBlock left.work.hash) :=
    ⟨separated.work, separated.difficulty, separated.whole⟩
  exact eq_of_rootItem apart leftValid moved rfl (separated.whole.eq (first.symm.trans second))

end CanonicalWorkRuntimeStateV1

/-- The roots bind all of the states they are of. Records of runtime states that validate under one chain and
have one root agree in every field but the hash of their block; ledgers with one root are equal, and so are
registries. -/
theorem state_roots_bind (crypto : Crypto) (chainID : Nat) :
    (∀ (left right : StoredWorkRuntimeStateV1) (leftState rightState : CanonicalWorkRuntimeStateV1),
      left.open crypto chainID = .ok leftState → right.open crypto chainID = .ok rightState →
      leftState.Separated crypto chainID rightState → left.stateRoot = right.stateRoot →
      left.withoutHash = right.withoutHash) ∧
    (∀ (left right : CommitteeClaimLedgerV1) (root : Hash), left.root crypto = .ok root → right.root crypto = .ok root →
      Rlp.Separated crypto.keccak256 left.rootItem right.rootItem → left = right) ∧
    (∀ left right : CanonicalRegistry, left.root crypto = right.root crypto →
      Rlp.Separated crypto.keccak256 left.rootItem right.rootItem → left.participants = right.participants) := by
  refine ⟨?_, ?_, ?_⟩
  · intro left right leftState rightState leftOpens rightOpens separated same
    obtain ⟨leftRoot, _⟩ := StoredWorkRuntimeStateV1.open_ok leftOpens
    obtain ⟨rightRoot, _⟩ := StoredWorkRuntimeStateV1.open_ok rightOpens
    obtain ⟨_, rfl⟩ := StoredWorkRuntimeStateV1.open_stored leftOpens
    obtain ⟨_, rfl⟩ := StoredWorkRuntimeStateV1.open_stored rightOpens
    rw [← same] at rightRoot
    have moved := CanonicalWorkRuntimeStateV1.atBlock_eq_of_root separated leftRoot rightRoot
    rw [moved, CanonicalWorkRuntimeStateV1.stored_atBlock_withoutHash]
  · intro left right root leftRoot rightRoot separated
    exact CommitteeClaimLedgerV1.eq_of_root separated leftRoot rightRoot
  · intro left right same separated
    rw [CanonicalRegistry.eq_of_root separated same]

/-- A state with two seats committed, at a block with some hash. -/
def committing (hash : Hash) : CanonicalWorkRuntimeStateV1 :=
  ⟨⟨200, hash, 128, some ⟨1, 5, 1, [⟨10, 1⟩, ⟨11, 2⟩]⟩, none⟩, ⟨1, 1, 2, 1⟩⟩

/-- Records of two blocks with one root. -/
theorem state_roots_bind_siblings : ∃ left right : StoredWorkRuntimeStateV1,
    left.open plainCrypto 1 = .ok (committing 1) ∧ right.open plainCrypto 1 = .ok (committing 2) ∧
    left.stateRoot = right.stateRoot ∧ left.withoutHash = right.withoutHash := by
  have opens : ((committing 1).stored plainCrypto 1).open plainCrypto 1 = .ok (committing 1) ∧
      ((committing 2).stored plainCrypto 1).open plainCrypto 1 = .ok (committing 2) ∧
      ((committing 1).stored plainCrypto 1).stateRoot = ((committing 2).stored plainCrypto 1).stateRoot := by
    decide +kernel
  have separated : (committing 1).Separated plainCrypto 1 (committing 2) :=
    ⟨.refl (by decide +kernel), .refl (by decide +kernel), ⟨by decide +kernel, fun _ => by decide +kernel⟩⟩
  exact ⟨_, _, opens.1, opens.2.1, opens.2.2,
    (state_roots_bind plainCrypto 1).1 _ _ _ _ opens.1 opens.2.1 separated opens.2.2⟩

end RabbitLqc
