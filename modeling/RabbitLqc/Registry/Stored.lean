import RabbitLqc.Lib.RlpCommit
import RabbitLqc.Registry.Snapshot

/-!
# Stored registry snapshots

A snapshot on disk is a record of its block, its root and its participants. It is only a cache: loading one
checks the record against its own root, and that its bytes are the ones the code would write.
-/

namespace RabbitLqc
open Lib RlpCodec

/-! ### What the root commits to -/

theorem CanonicalParticipant.item_injective : Function.Injective CanonicalParticipant.item := by
  intro left right same
  simp only [CanonicalParticipant.item, Rlp.Item.list.injEq, List.cons.injEq, toItem_inj, natItem_inj,
    and_true] at same
  obtain ⟨address, registeredAt, lastHeartbeat, missedTurns, jailedUntil, sequence, active⟩ := same
  cases left
  cases right
  simp only at address registeredAt lastHeartbeat missedTurns jailedUntil sequence active
  rw [address, registeredAt, lastHeartbeat, missedTurns, jailedUntil, sequence, active]

def CanonicalRegistry.rootItem (registry : CanonicalRegistry) : Rlp.Item :=
  .list [textItem "RABBIT-LQC-REGISTRY-ROOT-V1", .list (registry.participants.map CanonicalParticipant.item)]

theorem CanonicalRegistry.eq_of_root {crypto : Crypto} {left right : CanonicalRegistry}
    (separated : Rlp.Separated crypto.keccak256 (rootItem left) (rootItem right))
    (same : left.root crypto = right.root crypto) : left = right := by
  have payload := separated.eq same
  simp only [rootItem, Rlp.Item.list.injEq, List.cons.injEq, true_and, and_true] at payload
  have items : left.items = right.items := CanonicalParticipant.item_injective.list_map payload
  cases left
  cases right
  congr

/-! ### Records -/

/-- The layout of `RegistrySnapshot`. -/
structure StoredRegistrySnapshot where
  number : Nat
  hash : Hash
  registryRoot : Hash
  participants : List CanonicalParticipant

namespace StoredRegistrySnapshot

/-- `RegistrySnapshot.Registry`: the participants, in order and under their root. -/
def registry (crypto : Crypto) (stored : StoredRegistrySnapshot) : Except LqcError CanonicalRegistry := do
  ensure (stored.hash ≠ 0 ∧ stored.registryRoot ≠ 0) .invalidRegistrySnapshot
  let registry ← stored.participants.foldlM (fun (registry : CanonicalRegistry) participant => do
    ensure (participant.address ≠ 0) .invalidRegistryAddress
    ensure (registry.participant? participant.address = none) .duplicateRegistryOperation
    .ok (registry.put participant)) KeyedList.empty
  ensure (registry.participants = stored.participants) .invalidRegistrySnapshot
  ensure (registry.root crypto = stored.registryRoot) .registryRootMismatch
  .ok registry

end StoredRegistrySnapshot

/-! ### Loading -/

theorem foldlM_put_participants {rest : List CanonicalParticipant} {registry : CanonicalRegistry}
    (sorted : (registry.items ++ rest).Pairwise fun left right => left.address.toNat < right.address.toNat)
    (named : ∀ participant ∈ rest, participant.address ≠ 0) :
    rest.foldlM (fun (registry : CanonicalRegistry) participant => do
      ensure (participant.address ≠ 0) LqcError.invalidRegistryAddress
      ensure (registry.participant? participant.address = none) .duplicateRegistryOperation
      .ok (registry.put participant)) registry = .ok ⟨registry.items ++ rest, sorted⟩ := by
  induction rest generalizing registry with
  | nil =>
    rw [List.foldlM_nil, pure_ok_iff]
    cases registry
    simp
  | cons participant rest ih =>
    obtain ⟨address, others⟩ := List.forall_mem_cons.mp named
    have below : ∀ earlier ∈ registry.items, earlier.address.toNat < participant.address.toNat := fun earlier member =>
      (List.pairwise_append.mp sorted).2.2 earlier member participant List.mem_cons_self
    have absent : registry.participant? participant.address = none := by
      refine Option.eq_none_iff_forall_ne_some.mpr fun found present => ?_
      obtain ⟨member, same⟩ := CanonicalRegistry.participant?_eq_some.mp present
      exact absurd (same ▸ below found member) (Nat.lt_irrefl _)
    have items : (registry.put participant).items = registry.items ++ [participant] :=
      KeyedList.insert_last below
    rw [List.foldlM_cons]
    refine bind_ok_iff.mpr ⟨registry.put participant, ensure_bind_ok_iff.mpr ⟨address,
      ensure_bind_ok_iff.mpr ⟨absent, rfl⟩⟩, ?_⟩
    have moved : ((registry.put participant).items ++ rest).Pairwise
        fun left right => left.address.toNat < right.address.toNat := by
      rw [items, List.append_assoc]
      exact sorted
    rw [ih moved others]
    congr 2
    rw [items, List.append_assoc]
    rfl

def RegistrySnapshot.stored (crypto : Crypto) (snapshot : RegistrySnapshot) : StoredRegistrySnapshot :=
  ⟨snapshot.number, snapshot.hash, snapshot.registry.root crypto, snapshot.registry.participants⟩

end RabbitLqc
