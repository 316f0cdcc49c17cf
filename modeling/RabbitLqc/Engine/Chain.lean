import RabbitLqc.Engine.Liveness
import RabbitLqc.Engine.Selection
import RabbitLqc.Header.Runtime

/-!
# Chains of verified headers

A branch is a chain of headers back to the genesis, newest first, each with the states that
follow from it: what the engine keeps in its caches under the hash of the block. A state that
cannot be rebuilt is the error that rebuilding it gives.
-/

namespace RabbitLqc
open Lib

/-! ### Time -/

def secondsOr (default milliseconds : Nat) : Nat :=
  if milliseconds = 0 then default else max 1 (milliseconds / 1000)

namespace LqcConfig

variable (config : LqcConfig)

def targetBlockSeconds : Nat := secondsOr 15 config.targetBlockTimeMs

def fallbackWindowSeconds : Nat := secondsOr 5 config.fallbackWindowMs

def futureBlockTimeTolerance (block : Nat) : Nat :=
  if forkActive config.consensusHardeningBlock block then 1 else 30

/-- The slot of a position, with the guard that keeps the product of position and window in range. -/
def minAllowedTimeChecked (parentTime queuePos : Nat) : Except LqcError Nat :=
  let window := config.fallbackWindowSeconds
  let minTime :=
    if queuePos = 0 then checkedRegistryBlockAdd [parentTime, config.targetBlockSeconds]
    else if window ≠ 0 ∧ maxUint64 / window < queuePos then none
    else checkedRegistryBlockAdd [parentTime, config.targetBlockSeconds, queuePos * window]
  orFail .blockTimeOverflow minTime

def recoveryTimeoutSeconds : Nat := (config.recoveryTimeoutMs + 999) / 1000

/-- A long halt reopens activation: the parent is older than the timeout. -/
def recoveryOpenAt (parent : Header) (candidateTime : Nat) : Bool :=
  config.recoveryTimeoutSeconds ≠ 0 && parent.number ≠ 0 &&
    (checkedRegistryBlockAdd [parent.time, config.recoveryTimeoutSeconds]).any (· ≤ candidateTime)

end LqcConfig

theorem fallbackWindowSeconds_pos (config : LqcConfig) : 0 < config.fallbackWindowSeconds := by
  unfold LqcConfig.fallbackWindowSeconds secondsOr
  split
  · decide
  · exact Nat.lt_of_lt_of_le Nat.zero_lt_one (Nat.le_max_left _ _)

theorem minAllowedTimeChecked_eq (config : LqcConfig) (parentTime queuePos : Nat) :
    config.minAllowedTimeChecked parentTime queuePos =
      if parentTime + config.targetBlockSeconds + queuePos * config.fallbackWindowSeconds ≤ maxUint64 then
        .ok (parentTime + config.targetBlockSeconds + queuePos * config.fallbackWindowSeconds)
      else .error .blockTimeOverflow := by
  have window := fallbackWindowSeconds_pos config
  unfold LqcConfig.minAllowedTimeChecked
  simp only [checkedRegistryBlockAdd_eq, List.sum_cons, List.sum_nil, Nat.add_zero, ← Nat.add_assoc,
    Nat.div_lt_iff_lt_mul window]
  by_cases first : queuePos = 0
  · rw [if_pos first, first, Nat.zero_mul, Nat.add_zero]
    by_cases fits : parentTime + config.targetBlockSeconds ≤ maxUint64
    · simp only [fits, if_true, orFail]
    · simp only [fits, if_false, orFail]
  · rw [if_neg first]
    by_cases guarded : maxUint64 < queuePos * config.fallbackWindowSeconds
    · rw [if_pos ⟨window.ne', guarded⟩, if_neg (by omega), orFail]
    · rw [if_neg fun both => guarded both.2]
      by_cases fits : parentTime + config.targetBlockSeconds + queuePos * config.fallbackWindowSeconds ≤ maxUint64
      · simp only [fits, if_true, orFail]
      · simp only [fits, if_false, orFail]

/-! ### Branches -/

structure Entry where
  header : Header
  runtime : Except LqcError CanonicalWorkRuntimeStateV1
  registry : Except LqcError RegistrySnapshot
  claims : Option CommitteeClaimLedgerV1

abbrev Branch := List Entry

/-- The ancestor of height `target`, looked up from height `fromNumber` down. -/
def Branch.ancestor? (branch : Branch) (fromNumber target : Nat) : Option Entry :=
  if target ≤ fromNumber then branch.find? (·.header.number = target) else none

/-- The engine with the primitives it calls. Gas and fee rules, the randomness artifacts of the
fifth envelope version and the participant table of the time before the registry are parameters:
none of them reads or writes the states of a branch. -/
structure LQC where
  crypto : Crypto
  bls : Bls
  config : LqcConfig
  chainID : Nat
  executionRules : Header → Header → Except LqcError Unit
  verifyArtifacts : Branch → Header → LQCHeaderEnvelopeV5 → Except LqcError Unit
  legacySelection : Branch → Header → HybridSelection

namespace LQC

variable (lqc : LQC) (branch : Branch) (header : Header)

def openActivationForHeader : Bool :=
  if header.number = 0 then false
  else if lqc.config.isConsensusStabilizationBlock header.number ||
      lqc.config.isConsensusFairnessBlock header.number then false
  else if header.number = 1 then lqc.config.bootstrapParticipants.isEmpty
  else branch.head?.any fun parent => lqc.config.recoveryOpenAt parent.header header.time

/-! ### States of the parent -/

def parentRuntime : Except LqcError CanonicalWorkRuntimeStateV1 :=
  match branch.head? with
  | none => .error .workV1EngineLabParentMissing
  | some parent => parent.runtime

def registryParentSnapshot : Except LqcError RegistrySnapshot :=
  if !lqc.config.registryProtocolEnabled header.number then .error .registryProtocolUnavailable
  else match branch.head? with
    | none => .error .unknownAncestor
    | some parent => parent.registry

def workV1EngineLabParentClaimLedger (blockNumber : Nat) : Except LqcError CommitteeClaimLedgerV1 := do
  ensure (lqc.config.consensusLivenessV3Active blockNumber) .invalidLQCHeaderRuntimeV4
  if blockNumber = lqc.config.consensusLivenessV3Block then .ok newCommitteeClaimLedgerV1
  else match branch.head?.bind (·.claims) with
    | none => .error .workV1EngineLabParentMissing
    | some ledger => .ok ledger

/-! ### States without a work envelope -/

/-- A header without a work envelope leaves the work state as it is, as long as no epoch is open
to commit to. -/
def replayRuntime (parent : Except LqcError CanonicalWorkRuntimeStateV1) :
    Except LqcError CanonicalWorkRuntimeStateV1 := do
  let runtime ← parent
  match ← workCommitTargetEpochV1 header.number runtime.work.epochLength with
  | some _ => .error .workV1EngineLabParentMissing
  | none =>
    runtime.applyVerifiedBlockV1 lqc.crypto lqc.chainID header.number (header.hash lqc.crypto)
      runtime.work.hash 0 []

/-- The registry at a block below the activation of the registry protocol: there is one only just
below it. -/
def registryBelowActivation : Except LqcError RegistrySnapshot :=
  if lqc.config.registryProtocolBlock = 0 then .error .registryProtocolUnavailable
  else if header.number + 1 = lqc.config.registryProtocolBlock then
    newBootstrapRegistrySnapshot header.number (header.hash lqc.crypto)
      lqc.config.bootstrapParticipants
  else .error .registrySnapshotChainMismatch

def genesisRuntime : Except LqcError CanonicalWorkRuntimeStateV1 := do
  ensure (lqc.config.proofDifficulty ≠ 0) .invalidWorkDifficultyV1
  newCanonicalWorkRuntimeStateV1 lqc.crypto lqc.chainID 0 (header.hash lqc.crypto)
    workProtocolEpochLengthV1 lqc.config.proofDifficulty

def genesisEntry : Entry where
  header
  runtime := lqc.genesisRuntime header
  registry := lqc.registryBelowActivation header
  claims := none

end LQC

end RabbitLqc
