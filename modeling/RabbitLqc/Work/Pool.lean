import RabbitLqc.Lib.KeyedList
import RabbitLqc.Lib.RlpRecord
import RabbitLqc.Lib.Store
import RabbitLqc.Work.Commit

/-!
# The pool of commit candidates

A node keeps the candidates of one commit epoch, found by proof and by ticket, and writes them to a journal after
every change. A change that cannot be written is undone in memory.
-/

namespace RabbitLqc
open Lib RlpCodec

/-! ### The journal -/

structure WorkV1PoolJournalRecord where
  version : UInt8
  genesis : Hash
  epoch : UInt64
  candidates : List WorkCommitCandidateV1

instance : RlpCodec WorkV1PoolJournalRecord where
  toItem record := .list [toItem record.version, toItem record.genesis, toItem record.epoch, toItem record.candidates]
  ofItem
    | .list [version, genesis, epoch, candidates] => do
      some ⟨← ofItem version, ← ofItem genesis, ← ofItem epoch, ← ofItem candidates⟩
    | _ => none
  ofItem_toItem record := by simp

/-- The journal of one genesis: what the database holds under its key. -/
structure WorkV1PoolJournal where
  genesis : Hash
  blob : Option Bytes

structure JournalFaults where
  has : Bool
  get : Bool
  /-- A failed write, with what it left under the key. -/
  put : Option (Option Bytes)
  /-- The write is there, but the call reports an error. -/
  sync : Bool

def JournalFaults.quiet : JournalFaults := ⟨false, false, none, false⟩

namespace WorkV1PoolJournal

def decodeRecord (blob : Bytes) : Except LqcError WorkV1PoolJournalRecord :=
  orFail .malformedRecord (Rlp.decode blob >>= ofItem)

def openRecord (journal : WorkV1PoolJournal) (epoch : UInt64) (blob : Bytes) :
    Except LqcError (List WorkCommitCandidateV1) := do
  let record ← decodeRecord blob
  ensure (record.version = 1 ∧ record.genesis = journal.genesis ∧ record.epoch ≠ 0) .lqcWorkV1PoolJournal
  .ok (if record.epoch = epoch then record.candidates else [])

def loadWorkCommitPoolV1 (journal : WorkV1PoolJournal) (faults : JournalFaults) (epoch : UInt64) :
    Except LqcError (List WorkCommitCandidateV1) := do
  ensure (epoch ≠ 0) .lqcWorkV1PoolJournal
  ensure (faults.has = false) .databaseFailure
  match journal.blob with
  | none => .ok []
  | some blob => do
    ensure (faults.get = false) .databaseFailure
    journal.openRecord epoch blob

def encodeRecord (journal : WorkV1PoolJournal) (epoch : UInt64) (candidates : List WorkCommitCandidateV1) :
    Except LqcError Bytes := do
  ensure (epoch ≠ 0) .lqcWorkV1PoolJournal
  orFail .malformedRecord (Rlp.encodeToBytes
    (toItem (⟨1, journal.genesis, epoch, candidates⟩ : WorkV1PoolJournalRecord)))

def storeWorkCommitPoolV1 (journal : WorkV1PoolJournal) (faults : JournalFaults) (epoch : UInt64)
    (candidates : List WorkCommitCandidateV1) : Except LqcError Unit × WorkV1PoolJournal :=
  match journal.encodeRecord epoch candidates with
  | .error error => (.error error, journal)
  | .ok blob =>
    match faults.put with
    | some left => (.error .databaseFailure, { journal with blob := left })
    | none => (ensure (faults.sync = false) .databaseFailure, { journal with blob := some blob })

theorem load_stored {journal stored : WorkV1PoolJournal} {faults : JournalFaults} {epoch : UInt64}
    {candidates : List WorkCommitCandidateV1}
    (done : journal.storeWorkCommitPoolV1 faults epoch candidates = (.ok (), stored)) :
    stored.loadWorkCommitPoolV1 .quiet epoch = .ok candidates := by
  unfold storeWorkCommitPoolV1 at done
  split at done
  · cases done
  · rename_i blob encoded
    split at done
    · cases done
    · obtain ⟨_, rfl⟩ := Prod.mk.inj done
      simp only [encodeRecord, bind_ok_iff, ensure_ok_iff, exists_unit, orFail_ok_iff] at encoded
      obtain ⟨known, written⟩ := encoded
      obtain ⟨small, rfl⟩ := Rlp.encodeToBytes_eq_some_iff.mp written
      simp only [loadWorkCommitPoolV1, openRecord, decodeRecord, JournalFaults.quiet, Rlp.decode_encode small,
        bind_ok_iff, ensure_ok_iff, exists_unit, orFail_ok_iff, Option.bind_eq_bind, Option.bind_some, ofItem_toItem,
        Option.some.injEq, exists_eq_left', Except.ok.injEq, if_pos, known, ne_eq, not_false_eq_true, and_self]

end WorkV1PoolJournal

/-! ### The pool -/

def defaultWorkCommitPoolCapacityV1 : Nat := workTicketCommitCapacityPerEpochV1 * 4

/-- The memory of the pool. Epoch zero is a pool that was never reset. -/
structure WorkCommitPoolV1 where
  epoch : UInt64
  capacity : Nat
  byProof : KeyedList WorkCommitCandidateV1 (·.proofHash.toNat)
  semantic : Store (UInt64 × Address × UInt64) Hash

structure PersistentWorkCommitPoolV1 where
  pool : WorkCommitPoolV1
  persistence : Option WorkV1PoolJournal

def emptyWorkCommitPool (epoch : UInt64) (capacity : Nat) : WorkCommitPoolV1 :=
  ⟨epoch, capacity, .empty, ⟨fun _ => none⟩⟩

def newPersistentWorkCommitPoolV1 (capacity : Nat) (persistence : Option WorkV1PoolJournal) :
    PersistentWorkCommitPoolV1 :=
  ⟨emptyWorkCommitPool 0 (if capacity = 0 then defaultWorkCommitPoolCapacityV1 else capacity), persistence⟩

namespace WorkCommitPoolV1

def candidates (pool : WorkCommitPoolV1) : List WorkCommitCandidateV1 := pool.byProof.items

def insert (pool : WorkCommitPoolV1) (candidate : WorkCommitCandidateV1) : WorkCommitPoolV1 :=
  { pool with
    byProof := pool.byProof.put candidate
    semantic := pool.semantic.put candidate.semanticKey candidate.proofHash }

def delete (pool : WorkCommitPoolV1) (candidate : WorkCommitCandidateV1) : WorkCommitPoolV1 :=
  { pool with
    byProof := pool.byProof.erase candidate.proofHash.toNat
    semantic := pool.semantic.erase candidate.semanticKey }

def buildWorkCommitPoolStateV1 (epoch : UInt64) (capacity : Nat) (candidates : List WorkCommitCandidateV1) :
    Except LqcError WorkCommitPoolV1 := do
  ensure (epoch ≠ 0) .invalidWorkCommitV1
  ensure (candidates.length ≤ capacity) .workCommitPoolFullV1
  checkWorkCommitCandidatesAfter epoch [] candidates
  .ok (candidates.foldl insert (emptyWorkCommitPool epoch capacity))

def checkAdmission (pool : WorkCommitPoolV1) (candidate : WorkCommitCandidateV1) : Except LqcError Unit := do
  ensure (candidate.proofHash ≠ 0) .invalidWorkCommitV1
  validateWorkTicketHeaderShapeV3 candidate.signed
  ensure (pool.epoch ≠ 0) .workCommitPoolUninitializedV1
  ensure (candidate.epoch = pool.epoch) .workCommitEpochMismatchV1
  ensure (pool.byProof.get? candidate.proofHash.toNat = none) .duplicateRandomXWorkHash
  ensure (¬ pool.semantic.has candidate.semanticKey) .duplicateWorkTicketV3
  ensure (∀ existing ∈ pool.candidates, existing.participant ≠ candidate.participant) .duplicateWorkParticipantV1
  ensure (pool.candidates.length < pool.capacity) .workCommitPoolFullV1

def pendingV1 (crypto : Crypto) (pool : WorkCommitPoolV1) : Except LqcError (List WorkCommitCandidateV1) := do
  ensure (pool.epoch ≠ 0) .workCommitPoolUninitializedV1
  selectWorkCommitBatchV1 crypto pool.candidates pool.epoch

/-- One proof hash of a removal: its candidate, if the pool has it, joins those taken out. -/
def takeOut (split : WorkCommitPoolV1 × List WorkCommitCandidateV1) (proofHash : Hash) :
    WorkCommitPoolV1 × List WorkCommitCandidateV1 :=
  match split.1.byProof.get? proofHash.toNat with
  | none => split
  | some candidate => (split.1.delete candidate, split.2 ++ [candidate])

end WorkCommitPoolV1

/-! ### Calls -/

def persistLockedV1 (crypto : Crypto) (faults : JournalFaults) (pool : WorkCommitPoolV1) :
    Option WorkV1PoolJournal → Except LqcError Unit × Option WorkV1PoolJournal
  | none => (.ok (), none)
  | some journal =>
    match canonicalWorkCommitCandidatesV1 crypto pool.candidates pool.epoch with
    | .error error => (.error error, some journal)
    | .ok canonical =>
      let stored := journal.storeWorkCommitPoolV1 faults pool.epoch canonical
      (stored.1, some stored.2)

namespace PersistentWorkCommitPoolV1

variable (crypto : Crypto) (faults : JournalFaults)

def loadRestored (epoch : UInt64) (state : PersistentWorkCommitPoolV1) : Except LqcError (List WorkCommitCandidateV1) :=
  match state.persistence with
  | none => .ok []
  | some journal => journal.loadWorkCommitPoolV1 faults epoch

def restoredPool (epoch : UInt64) (state : PersistentWorkCommitPoolV1) : Except LqcError WorkCommitPoolV1 := do
  ensure (epoch ≠ 0) .invalidWorkCommitV1
  if state.pool.epoch = epoch then .ok state.pool
  else do
    let restored ← state.loadRestored faults epoch
    WorkCommitPoolV1.buildWorkCommitPoolStateV1 epoch state.pool.capacity restored

def resetCommitEpochV1 (epoch : UInt64) (state : PersistentWorkCommitPoolV1) :
    Except LqcError Unit × PersistentWorkCommitPoolV1 :=
  match state.restoredPool faults epoch with
  | .error error => (.error error, state)
  | .ok pool => (.ok (), { state with pool })

def addVerifiedV1 (candidate : WorkCommitCandidateV1) (state : PersistentWorkCommitPoolV1) :
    Except LqcError Unit × PersistentWorkCommitPoolV1 :=
  match state.pool.checkAdmission candidate with
  | .error error => (.error error, state)
  | .ok _ =>
    let grown := state.pool.insert candidate
    let persisted := persistLockedV1 crypto faults grown state.persistence
    match persisted.1 with
    | .ok _ => (.ok (), ⟨grown, persisted.2⟩)
    | .error error => (.error error, ⟨grown.delete candidate, persisted.2⟩)

/-- The number of candidates removed; a removal that cannot be written removes none. -/
def removeIncludedV1 (proofHashes : List Hash) (state : PersistentWorkCommitPoolV1) :
    Nat × PersistentWorkCommitPoolV1 :=
  let split := proofHashes.foldl WorkCommitPoolV1.takeOut (state.pool, [])
  if split.2 = [] then (0, ⟨split.1, state.persistence⟩)
  else
    let persisted := persistLockedV1 crypto faults split.1 state.persistence
    match persisted.1 with
    | .ok _ => (split.2.length, ⟨split.1, persisted.2⟩)
    | .error _ => (0, ⟨split.2.foldl WorkCommitPoolV1.insert split.1, persisted.2⟩)

end PersistentWorkCommitPoolV1

end RabbitLqc
