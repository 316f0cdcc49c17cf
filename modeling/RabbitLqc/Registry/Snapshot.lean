import RabbitLqc.Header.Block
import RabbitLqc.Header.RegistryExtra
import RabbitLqc.Registry.Queue

/-!
# The registry after a block

A registry header moves the registry of its parent: first the turns of the queue or an open
activation, then the signed operations it carries. The header commits to the result.
-/

namespace RabbitLqc
open Lib

/-- The registry after a block. Its root is the one of its participants. -/
structure RegistrySnapshot where
  number : Nat
  hash : Hash
  registry : CanonicalRegistry

def RegistrySnapshot.open (crypto : Crypto) (snapshot : RegistrySnapshot) :
    Except LqcError CanonicalRegistry := do
  ensure (snapshot.hash ≠ 0 ∧ snapshot.registry.root crypto ≠ 0) .invalidRegistrySnapshot
  ensure (snapshot.registry.participant? 0 = none) .invalidRegistryAddress
  .ok snapshot.registry

theorem RegistrySnapshot.open_ok_iff {crypto : Crypto} {snapshot : RegistrySnapshot}
    {registry : CanonicalRegistry} :
    snapshot.open crypto = .ok registry ↔
      (snapshot.hash ≠ 0 ∧ snapshot.registry.root crypto ≠ 0) ∧ snapshot.registry.participant? 0 = none ∧
        registry = snapshot.registry := by
  simp only [RegistrySnapshot.open, ensure_bind_ok_iff, Except.ok.injEq, eq_comm (a := registry)]

def newBootstrapRegistrySnapshot (number : Nat) (hash : Hash) (participants : List Address) :
    Except LqcError RegistrySnapshot := do
  ensure (hash ≠ 0) .invalidRegistrySnapshot
  let registry ← participants.foldlM (fun (registry : CanonicalRegistry) address => do
    ensure (address ≠ 0) .invalidRegistryAddress
    ensure (registry.participant? address = none) .duplicateRegistryOperation
    .ok (registry.put { address, lastHeartbeat := number, active := true })) KeyedList.empty
  .ok ⟨number, hash, registry⟩

namespace CanonicalRegistry

/-- An open activation makes its producer a participant. It starts a registry of its own unless
the registry is to be preserved. -/
def openActivation (registry : CanonicalRegistry) (preserveRegistry : Bool) (coinbase : Address)
    (blockNumber : Nat) : Except LqcError CanonicalRegistry := do
  ensure (coinbase ≠ 0) .unauthorizedRegistryProducer
  if preserveRegistry then registry.recoverPermissionlessProducer coinbase blockNumber
  else activatePermissionlessProducer KeyedList.empty coinbase blockNumber

def queueTurns (crypto : Crypto) (rules : RegistrySnapshotRules) (registry : CanonicalRegistry)
    (parentHash : Hash) (coinbase : Address) (blockNumber : Nat) : Except LqcError CanonicalRegistry :=
  let ordered := registry.orderedParticipantsForBlock crypto parentHash blockNumber rules.activationDelay
  match HybridSelection.isAuthorAllowed { ordered } coinbase with
  | none => .error .unauthorizedRegistryProducer
  | some queuePos => do
    ensure (coinbase ≠ 0) .unauthorizedRegistryProducer
    let moved ← (ordered.take queuePos).foldlM (fun (registry : CanonicalRegistry) address =>
      registry.applyMissedTurn address blockNumber rules.maxMissedTurns rules.jailBlocks) registry
    CanonicalRegistry.markProducerHeartbeat moved coinbase blockNumber

def headerTurn (crypto : Crypto) (rules : RegistrySnapshotRules) (registry : CanonicalRegistry)
    (parentHash : Hash) (coinbase : Address) (blockNumber : Nat)
    (openActivation preserveRegistry : Bool) : Except LqcError CanonicalRegistry :=
  if openActivation then registry.openActivation preserveRegistry coinbase blockNumber
  else registry.queueTurns crypto rules parentHash coinbase blockNumber

end CanonicalRegistry

def RegistrySnapshot.applyHeaderWithOpenActivation (crypto : Crypto) (chainID : Nat)
    (rules : RegistrySnapshotRules) (snapshot : RegistrySnapshot) (header : Header)
    (openActivation preserveRegistry : Bool) : Except LqcError RegistrySnapshot := do
  let registry ← snapshot.open crypto
  ensure (snapshot.number ≠ maxUint64 ∧ header.number = snapshot.number + 1 ∧
    header.parentHash = snapshot.hash) .registrySnapshotChainMismatch
  ensure (rules.proofDifficulty ≠ 0) .invalidLightHashProof
  let envelope ← validateRegistryHeaderExtra crypto chainID header.number rules.proofDifficulty
    header.extra
  let moved ← registry.headerTurn crypto rules header.parentHash header.coinbase header.number
    openActivation preserveRegistry
  let next ← CanonicalRegistry.applyOperations crypto chainID header.number rules.proofDifficulty
    moved envelope.operations
  ensure (next.root crypto = envelope.registryRoot) .registryRootMismatch
  .ok ⟨header.number, header.hash crypto, next⟩

end RabbitLqc
