import RabbitLqc.Engine.Branches
import RabbitLqc.Engine.Prepare

/-!
# A network to evaluate

Everything the engine does can be run: with simple stand-ins for hashing, signatures and proofs of work, small branches
are made block by block. A sample block names its signer, its operations and the registry it leaves; the hook of the
producer adds the work, the signer seals the header, and the verification of a node puts it on the branch.
-/

namespace RabbitLqc
open Lib

/-- A proof of work is the last byte of its input, the nonce of the ticket; it is never zero. -/
def nonceCrypto : Crypto :=
  { plainCrypto with randomX := fun _ input => some (BitVec.ofNat 256 (max 1 (input.getLastD 0).toNat)) }

theorem nonceCrypto_randomX (key : Hash) (input : Bytes) :
    nonceCrypto.randomX key input = some (BitVec.ofNat 256 (max 1 (input.getLastD 0).toNat)) := rfl

theorem nonceCrypto_keccak256_ne_zero (bytes : Bytes) : nonceCrypto.keccak256 bytes ≠ 0 :=
  plainCrypto_keccak256_ne_zero bytes

def plainLqc (config : LqcConfig) : LQC where
  crypto := nonceCrypto
  bls := plainBls
  config
  chainID := 1
  executionRules _ _ := .ok ()
  verifyArtifacts _ _ _ := .error .workV1EngineLabUnavailable
  legacySelection _ _ := {}

def plainGenesis : Header := ⟨0, 0, 0, 0, 0, [], 0, 0, []⟩

def openConfig : LqcConfig where
  proofDifficulty := 1
  registryProtocolBlock := 1

def openedRegistry (author : Address) : CanonicalRegistry :=
  KeyedList.empty.put { address := author, registeredAt := 1, lastHeartbeat := 1, active := true }

/-! ### Sample blocks -/

def idleHand : AtHand where
  pool := .empty
  pruneOrder := mapOrder
  pendingOrder := mapOrder
  tickets _ := .ok []
  claims := .ok []
  finalizations := .ok []
  keysetCertificate := .ok none

structure SampleBlock where
  signer : Nat
  registry : CanonicalRegistry
  operations : List RegistryOperation := []

namespace LQC

variable (lqc : LQC)

def sampleHeader (branch : Branch) (block : SampleBlock) : Except LqcError Header :=
  match branch with
  | [] => .error .unknownAncestor
  | parent :: _ => do
    let draft : Header := {
      parentHash := parent.header.hash lqc.crypto
      coinbase := BitVec.ofNat 160 block.signer
      number := parent.header.number + 1
      time := parent.header.time + 15
      extra := [] }
    let registered ← encodeRegistryHeaderExtra (UInt64.ofNat draft.number) (block.registry.root lqc.crypto)
      block.operations
    let extra ← lqc.prepareWorkV1EngineLabHook branch draft idleHand registered
    .ok { draft with extra := extra.take (extra.length - producerSealLength) ++ plainSignature block.signer }

/-- The branch of some blocks, newest first, each verified at its own time. -/
def sampleBranch : List SampleBlock → Except LqcError Branch
  | [] => .ok [lqc.genesisEntry plainGenesis]
  | block :: below => do
    let branch ← sampleBranch below
    let header ← lqc.sampleHeader branch block
    let entry ← lqc.verifyHeaderAt branch header header.time
    .ok (entry :: branch)

/-- What verification reads about the newest header of a branch. -/
structure Examined where
  envelope : WorkEnvelope
  runtime : CanonicalWorkRuntimeStateV1
  parent : RegistrySnapshot
  registry : CanonicalRegistry
  selected : HybridSelection × Bool

def examine (branch : Branch) (header : Header) : Except LqcError Examined := do
  let envelope ← orFail .workV1EngineLabUnavailable (← lqc.decodeWorkEnvelope header)
  let runtime ← parentRuntime branch
  let parent ← lqc.registryParentSnapshot branch header
  let registry ← parent.open lqc.crypto
  let selected ← lqc.workSelectionForHeader branch header runtime parent
  .ok { envelope, runtime, parent, registry, selected }

end LQC

section Sampled

variable {lqc : LQC} {blocks : List SampleBlock} {branch grown : Branch} {header : Header} {examined : LQC.Examined}

theorem examine_ok (run : lqc.examine branch header = .ok examined) :
    lqc.decodeWorkEnvelope header = .ok (some examined.envelope) ∧
      LQC.parentRuntime branch = .ok examined.runtime ∧
      lqc.registryParentSnapshot branch header = .ok examined.parent ∧
      examined.parent.open lqc.crypto = .ok examined.registry ∧
      lqc.workSelectionForHeader branch header examined.runtime examined.parent = .ok examined.selected := by
  obtain ⟨_, decoded, run⟩ := bind_ok run
  obtain ⟨envelope, found, run⟩ := bind_ok run
  rw [orFail_ok_iff.mp found] at decoded
  obtain ⟨runtime, had, run⟩ := bind_ok run
  obtain ⟨parent, snapshot, run⟩ := bind_ok run
  obtain ⟨registry, opened, run⟩ := bind_ok run
  obtain ⟨selected, selects, run⟩ := bind_ok run
  obtain rfl := Except.ok.inj run
  exact ⟨decoded, had, snapshot, opened, selects⟩

/-- A sample branch is a branch of accepted headers. -/
theorem sampleBranch_accepted (run : lqc.sampleBranch blocks = .ok branch) : Accepted lqc branch := by
  induction blocks generalizing branch with
  | nil =>
    obtain rfl := Except.ok.inj run
    exact .genesis plainGenesis rfl
  | cons block below ih =>
    obtain ⟨branch, made, run⟩ := bind_ok run
    obtain ⟨header, _, run⟩ := bind_ok run
    obtain ⟨entry, verified, run⟩ := bind_ok run
    obtain rfl := Except.ok.inj run
    exact .extend (ih made) verified

/-- A sample branch whose newest block passes some checks. -/
theorem LQC.exists_sample (lqc : LQC) (blocks : List SampleBlock) (check : Branch → Entry → LQC.Examined → Bool)
    (run : (do
      let block :: below := blocks | .error LqcError.unknownAncestor
      let branch ← lqc.sampleBranch below
      let header ← lqc.sampleHeader branch block
      let entry ← lqc.verifyHeaderAt branch header header.time
      let examined ← lqc.examine branch header
      ensure (check branch entry examined) LqcError.unknownAncestor).isOk = true) :
    ∃ branch entry examined, Accepted lqc branch ∧
      lqc.verifyHeaderAt branch entry.header entry.header.time = .ok entry ∧
      lqc.examine branch entry.header = .ok examined ∧ check branch entry examined = true := by
  obtain ⟨_, run⟩ := exists_ok_of_isOk run
  cases blocks with
  | nil => cases run
  | cons block below =>
    obtain ⟨branch, made, run⟩ := bind_ok run
    obtain ⟨header, _, run⟩ := bind_ok run
    obtain ⟨entry, verified, run⟩ := bind_ok run
    obtain ⟨examined, read, passes⟩ := bind_ok run
    obtain rfl := verifyHeaderAt_header verified
    exact ⟨branch, entry, examined, sampleBranch_accepted made, verified, read, ensure_ok_iff.mp passes⟩

end Sampled

end RabbitLqc
