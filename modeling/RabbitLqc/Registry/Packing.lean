import RabbitLqc.Header.RegistryExtra
import RabbitLqc.Registry.Sequence

/-!
# Packing registry operations

A producer takes the pending operations in canonical order, skips those that do not apply to its
registry, and stops when the header is full.
-/

namespace RabbitLqc
open Lib

/-- The packing loop with `room` operations left to take. -/
def packRegistryOperations (crypto : Crypto) (chainID blockNumber proofDifficulty : Nat) :
    Nat → CanonicalRegistry → List RegistryOperation → CanonicalRegistry × List RegistryOperation
  | _, registry, [] => (registry, [])
  | 0, registry, _ :: _ => (registry, [])
  | room + 1, registry, operation :: rest =>
    match registry.applyOperation crypto chainID blockNumber proofDifficulty operation with
    | .error _ => packRegistryOperations crypto chainID blockNumber proofDifficulty (room + 1) registry rest
    | .ok next =>
      let packed := packRegistryOperations crypto chainID blockNumber proofDifficulty room next rest
      (packed.1, operation :: packed.2)

def CanonicalRegistry.applies (crypto : Crypto) (chainID blockNumber proofDifficulty : Nat)
    (registry : CanonicalRegistry) (operation : RegistryOperation) : Bool :=
  (registry.applyOperation crypto chainID blockNumber proofDifficulty operation).isOk

section Packing

variable {crypto : Crypto} {chainID blockNumber proofDifficulty : Nat}
  {registry next : CanonicalRegistry} {operation other : RegistryOperation}

theorem applyOperation_participant? (address : Address) (different : address ≠ operation.address)
    (h : registry.applyOperation crypto chainID blockNumber proofDifficulty operation = .ok next) :
    next.participant? address = registry.participant? address := by
  unfold CanonicalRegistry.applyOperation at h
  obtain ⟨_, _, h⟩ := bind_ok h
  obtain ⟨_, _, h⟩ := bind_ok h
  obtain ⟨_, _, h⟩ := bind_ok h
  obtain ⟨participant, result, h⟩ := bind_ok h
  obtain rfl := Except.ok.inj h
  have own := (CanonicalRegistry.operationResult_ok
    (fun _ found => (CanonicalRegistry.participant?_eq_some.mp found).2) result).1
  rw [CanonicalRegistry.participant?_put, if_neg (own ▸ different)]

theorem applies_congr (same : next.participant? other.address = registry.participant? other.address) :
    next.applies crypto chainID blockNumber proofDifficulty other =
      registry.applies crypto chainID blockNumber proofDifficulty other := by
  unfold CanonicalRegistry.applies CanonicalRegistry.applyOperation
  rw [same]
  cases validateRegistryOperation crypto chainID blockNumber proofDifficulty other <;> try rfl
  simp only [bind, Except.bind]
  split <;> try rfl
  split <;> try rfl
  cases CanonicalRegistry.operationResult blockNumber other (registry.participant? other.address) <;> rfl

/-- With one operation per address, what is packed is the first of those that apply at the start:
no packed operation changes whether a later one applies. -/
theorem packRegistryOperations_eq (room : Nat) (registry : CanonicalRegistry)
    (pending : List RegistryOperation) (distinct : (pending.map (·.address)).Nodup) :
    (packRegistryOperations crypto chainID blockNumber proofDifficulty room registry pending).2 =
      (pending.filter (registry.applies crypto chainID blockNumber proofDifficulty)).take room := by
  induction pending generalizing room registry with
  | nil => cases room <;> simp [packRegistryOperations]
  | cons operation rest ih =>
    obtain ⟨fresh, distinct⟩ := List.nodup_cons.mp distinct
    cases room with
    | zero => simp [packRegistryOperations]
    | succ room =>
      unfold packRegistryOperations
      cases applied : registry.applyOperation crypto chainID blockNumber proofDifficulty operation with
      | error e =>
        have skipped : registry.applies crypto chainID blockNumber proofDifficulty operation = false := by
          unfold CanonicalRegistry.applies
          rw [applied]
          rfl
        rw [List.filter_cons_of_neg (by simp [skipped])]
        exact ih (room + 1) registry distinct
      | ok next =>
        have taken : registry.applies crypto chainID blockNumber proofDifficulty operation = true := by
          unfold CanonicalRegistry.applies
          rw [applied]
          rfl
        have later : rest.filter (next.applies crypto chainID blockNumber proofDifficulty) =
            rest.filter (registry.applies crypto chainID blockNumber proofDifficulty) := by
          refine List.filter_congr fun other member => applies_congr ?_
          refine applyOperation_participant? other.address (fun same => fresh ?_) applied
          exact List.mem_map.mpr ⟨other, member, same⟩
        rw [List.filter_cons_of_pos taken, List.take_succ_cons]
        exact congrArg _ ((ih room next distinct).trans (by rw [later]))

end Packing

end RabbitLqc
