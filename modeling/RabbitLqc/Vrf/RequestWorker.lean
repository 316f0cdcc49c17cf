import RabbitLqc.Vrf.RequestQueue
import RabbitLqc.Vrf.Coordinator

/-!
# Finding the requests of the chain

The request worker goes through the canonical blocks, tracks the requests they contain and saves how far it came. The
chain may change between any two of its reads, so each read has an answer of its own. Block hashes are not zero and
name one block.
-/

namespace RabbitLqc
open Lib

structure EventLog where
  address : Address
  topics : List Hash

structure RequestBlock where
  parentHash : Hash
  transactions : Nat
  receipts : List (List EventLog)
  executed : transactions = 0 → receipts = []

/-- The blocks by their hash, and the block from which requests are looked for. -/
structure RequestChain where
  crypto : Crypto
  blocks : Hash → RequestBlock
  activation : Nat

def rabbitVRFRandomnessRequestedTopicV1 (crypto : Crypto) : Hash :=
  crypto.keccak256 (asciiBytes "RandomnessRequested(bytes32,address,uint64,uint32,bytes32,uint256)")

def requestedID (crypto : Crypto) (event : EventLog) : Option Hash :=
  match event.topics with
  | [topic, requestID, _, _] =>
    if event.address = rabbitVRFCoordinatorV1Address ∧ topic = rabbitVRFRandomnessRequestedTopicV1 crypto ∧
      requestID ≠ 0 then some requestID
    else none
  | _ => none

def rabbitVRFRequestIDsFromReceiptsV1 (crypto : Crypto) (receipts : List (List EventLog)) : List Hash :=
  (receipts.flatten.filterMap (requestedID crypto)).eraseDups

/-- The requests made in a block. -/
def RequestChain.requests (chain : RequestChain) (hash : Hash) : List Hash :=
  rabbitVRFRequestIDsFromReceiptsV1 chain.crypto (chain.blocks hash).receipts

def RequestChain.parent (chain : RequestChain) (hash : Hash) : Hash := (chain.blocks hash).parentHash

def rabbitVRFRequestScanBatchBlocksV1 : Nat := 512

def rabbitVRFRequestScanEndV1 (next head : Nat) : Nat :=
  if next > head then head
  else if head - next ≥ rabbitVRFRequestScanBatchBlocksV1 then next + rabbitVRFRequestScanBatchBlocksV1 - 1
  else head

structure RabbitVRFRequestScanCursorV1 where
  pending : List Hash := []
  retry : RabbitVRFRequestRetryQueueV1 := {}
  next : Nat
  lastHash : Hash := 0

abbrev ScanOutcome (ε : Type) := RabbitVRFRequestScanCursorV1 × RequestAnswer ε

/-- The reads of one pass in the order they are made: each by the height or the request it is made for. -/
structure ScanReads (ε : Type) where
  previous : Option Hash
  head : Option Nat
  session : Hash
  members : Nat
  /-- The lookup of a saved request and the block at its height. -/
  restored : Hash → Except (RequestFailure ε) (Nat × Option Hash)
  scanned : Nat → Option {hash : Hash // hash ≠ 0}
  receipts : Nat → Bool
  rechecked : Nat → Option Hash
  secretReady : Bool
  /-- The block at the height of a request and its lookup. -/
  retired : Hash → Option Hash × Option (RequestFailure ε)
  transport : Bool
  now : Nat
  sessionKept : Hash → Bool
  before : Hash → Option Hash
  flow : Hash → Option (RequestFailure ε)
  after : Hash → Option Hash

variable {ε : Type}

/-- A lookup or the threshold flow found the request finalized. -/
def ScanReads.Finalized (reads : ScanReads ε) (id : Hash) : Prop :=
  reads.restored id = .error .requestNotPending ∨ (reads.retired id).2 = some .requestNotPending ∨
    reads.flow id = some .requestNotPending

def ScanReads.process (reads : ScanReads ε) (request : PendingRequest) : RequestAnswer ε :=
  if !reads.sessionKept request.id then some .artifactSessionMismatch
  else if reads.before request.id ≠ some request.hash then some .workerReorg
  else if reads.after request.id ≠ some request.hash then some .workerReorg
  else (reads.flow request.id).map (.processing request.id request.block)

namespace RabbitVRFRequestScanCursorV1

variable (chain : RequestChain) (reads : ScanReads ε) (cursor : RabbitVRFRequestScanCursorV1)

def resetV1 (activation : Nat) : RabbitVRFRequestScanCursorV1 := { next := activation }

def reconcilePreviousV1 (activation : Nat) (canonicalPreviousHash : Hash) : RabbitVRFRequestScanCursorV1 :=
  if cursor.next ≤ activation ∨ cursor.lastHash = 0 then cursor
  else if canonicalPreviousHash = cursor.lastHash then cursor
  else resetV1 activation

def restoreFrom : List Hash → RabbitVRFRequestRetryQueueV1 → RabbitVRFRequestRetryQueueV1 × RequestAnswer ε
  | [], retry => (retry, none)
  | id :: rest, retry =>
    if (retry.pending.get? id.toNat).isSome then restoreFrom rest retry
    else match reads.restored id with
      | .error .requestNotPending => restoreFrom rest retry
      | .error cause => (retry, some (.lookup cause))
      | .ok (_, none) => (retry, some .workerReorg)
      | .ok (block, some hash) => restoreFrom rest (retry.trackV1 id block hash)

def scanFrom : Nat → RabbitVRFRequestScanCursorV1 → ScanOutcome ε
  | 0, cursor => (cursor, none)
  | count + 1, cursor =>
    match reads.scanned cursor.next with
    | none => (cursor, some (.blockUnavailable cursor.next))
    | some hash =>
      let block := chain.blocks hash.1
      if cursor.lastHash ≠ 0 ∧ block.parentHash ≠ cursor.lastHash then
        (resetV1 chain.activation, some (.workerReorgAt cursor.next))
      else if block.transactions > 0 ∧ !reads.receipts cursor.next then
        (cursor, some (.receiptsUnavailable cursor.next))
      else if reads.rechecked cursor.next ≠ some hash.1 then
        (resetV1 chain.activation, some (.workerReorgScanning cursor.next))
      else
        let receipts := if reads.receipts cursor.next then block.receipts else []
        let retry := (rabbitVRFRequestIDsFromReceiptsV1 chain.crypto receipts).foldl
          (fun retry id => retry.trackV1 id cursor.next hash.1) cursor.retry
        scanFrom count { cursor with retry, next := cursor.next + 1, lastHash := hash.1 }

/-- The order in which the requests are retired does not matter: either all of them are looked up or the cursor is
reset. -/
def retire : ScanOutcome ε :=
  if cursor.retry.pending.items.all fun request => (reads.retired request.id).1 = some request.hash then
    let kept := cursor.retry.pending.filter fun request =>
      !((reads.retired request.id).2.map RequestWorkerError.lookup).any (·.isNotPending)
    ({ cursor with retry := { cursor.retry with pending := kept } }, none)
  else (resetV1 chain.activation, some .workerReorg)

def processTracked : ScanOutcome ε :=
  if reads.session = 0 ∨ reads.members = 0 ∨ !reads.secretReady then retire chain reads cursor
  else if !reads.transport then (cursor, some .transportUnavailable)
  else
    -- what the workers do in the end does not depend on their schedule
    let (retry, error) := cursor.retry.concurrentOutcome reads.now reads.session reads.process
    if error.isReorg then (resetV1 chain.activation, error) else ({ cursor with retry }, error)

def scan (head : Nat) : ScanOutcome ε :=
  let (cursor, error) := scanFrom chain reads
    (rabbitVRFRequestScanEndV1 cursor.next head + 1 - cursor.next) cursor
  if error.isSome then (cursor, error) else processTracked chain reads cursor

def listed : RabbitVRFRequestScanCursorV1 :=
  { cursor with pending := cursor.retry.pending.items.map (·.id) }

/-- A cursor before the activation starts there; one whose last block left the chain starts again. -/
def reconciled : RabbitVRFRequestScanCursorV1 :=
  let cursor := if cursor.next = 0 ∨ cursor.next < chain.activation then resetV1 chain.activation else cursor
  if cursor.next > chain.activation ∧ cursor.lastHash ≠ 0 then
    cursor.reconcilePreviousV1 chain.activation (reads.previous.getD 0)
  else cursor

def processCanonicalPendingRequestsV1 : ScanOutcome ε :=
  if chain.activation = 0 then (cursor, none)
  else
    let cursor := cursor.reconciled chain reads
    match reads.head with
    | none => (cursor, none)
    | some head =>
      match restoreFrom reads cursor.pending cursor.retry with
      | (retry, some error) => ({ cursor with retry }, some error)
      | (retry, none) =>
        let (cursor, error) := scan chain reads { cursor with retry } head
        (cursor.listed, error)

end RabbitVRFRequestScanCursorV1

/-! ### Checkpoints -/

structure RabbitVRFRequestCheckpointV1 where
  version : Nat := 1
  genesis : Hash
  next : Nat
  lastHash : Hash
  pending : List Hash

def RabbitVRFRequestCheckpointV1.cursor (checkpoint : RabbitVRFRequestCheckpointV1) : RabbitVRFRequestScanCursorV1 :=
  { pending := checkpoint.pending, next := checkpoint.next, lastHash := checkpoint.lastHash }

inductive CheckpointError where
  | invalidCheckpoint
  | missingCanonicalHash
  | invalidOrDuplicatePending

def rabbitVRFValidateCheckpointV1 (c : RabbitVRFRequestCheckpointV1) (activation : Nat) : Option CheckpointError :=
  if activation = 0 ∨ c.version ≠ 1 ∨ c.next < activation ∨ c.genesis = 0 then some .invalidCheckpoint
  else if c.next > activation ∧ c.lastHash = 0 then some .missingCanonicalHash
  else if 0 ∈ c.pending ∨ ¬c.pending.Nodup then some .invalidOrDuplicatePending
  else none

structure RequestNode where
  cursor : RabbitVRFRequestScanCursorV1
  stored : Option RabbitVRFRequestCheckpointV1 := none
  lastCheckpoint : Option RabbitVRFRequestCheckpointV1 := none

/-- One turn of the request lane with the head read after each pass and the reads of the save, or a new start. -/
inductive RequestEvent (ε : Type) where
  | processRequests (batches : List (ScanReads ε × Option Nat)) (previous : Option Hash) (genesis : Hash)
      (written : Bool)
  | restart (previous genesis : Option Hash)

def RequestEvent.Finalized (id : Hash) : RequestEvent ε → Prop
  | processRequests batches _ _ _ => ∃ batch ∈ batches, batch.1.Finalized id
  | restart _ _ => False

namespace RequestNode

variable (chain : RequestChain)

def runBatches : List (ScanReads ε × Option Nat) → RabbitVRFRequestScanCursorV1 → RabbitVRFRequestScanCursorV1
  | [], cursor => cursor
  | (reads, head) :: rest, cursor =>
    let (after, error) := cursor.processCanonicalPendingRequestsV1 chain reads
    if error.isSome ∨ after.next = cursor.next ∨ head.all (· < after.next) then after else runBatches rest after

def save (previous : Option Hash) (genesis : Hash) (written : Bool) (node : RequestNode) : RequestNode :=
  if node.cursor.next > chain.activation ∧ previous ≠ some node.cursor.lastHash then node
  else
    let checkpoint : RabbitVRFRequestCheckpointV1 :=
      { genesis, next := node.cursor.next, lastHash := node.cursor.lastHash, pending := node.cursor.pending }
    let unchanged := node.lastCheckpoint.any fun last =>
      last.next = checkpoint.next ∧ last.lastHash = checkpoint.lastHash ∧ last.pending = checkpoint.pending
    if unchanged ∨ (rabbitVRFValidateCheckpointV1 checkpoint chain.activation).isSome ∨ !written then node
    else { node with stored := some checkpoint, lastCheckpoint := some checkpoint }

def start (stored : Option RabbitVRFRequestCheckpointV1) (previous genesis : Option Hash) : RequestNode :=
  let loaded := stored.filter fun checkpoint => (rabbitVRFValidateCheckpointV1 checkpoint chain.activation).isNone ∧
    (checkpoint.next = chain.activation ∨ previous = some checkpoint.lastHash) ∧ genesis = some checkpoint.genesis
  match loaded with
  | some checkpoint => { cursor := checkpoint.cursor, stored }
  | none => { cursor := { next := chain.activation }, stored }

def step (node : RequestNode) : RequestEvent ε → RequestNode
  | .processRequests batches previous genesis written =>
    save chain previous genesis written
      { node with cursor := runBatches chain (batches.take 8) node.cursor }
  | .restart previous genesis => start chain node.stored previous genesis

def run (events : List (RequestEvent ε)) : RequestNode :=
  events.foldl (step chain) (start chain none none none)

end RequestNode

/-! ### No request is missed -/

namespace RequestScan
open RabbitVRFRequestRetryQueueV1 RabbitVRFRequestScanCursorV1

def Tracked (pending : PendingRequests) (id : Hash) : Prop := (pending.get? id.toNat).isSome

variable {chain : RequestChain} {next now : Nat} {lastHash session id : Hash}
  {reads : ScanReads ε} {known finalized : Hash → Prop} {cursor : RabbitVRFRequestScanCursorV1}
  {pending : PendingRequests} {retry : RabbitVRFRequestRetryQueueV1} {jobs : List PendingRequest}
  {process : PendingRequest → RequestAnswer ε} {firstErr : RequestAnswer ε}

theorem tracked_iff : Tracked pending id ↔ id ∈ pending.items.map (·.id) := by
  simp only [Tracked, Option.isSome_iff_exists, KeyedList.get?_eq_some, List.mem_map]
  exact exists_congr fun request => and_congr_right fun _ => ⟨BitVec.eq_of_toNat_eq, congrArg _⟩

theorem Tracked.put (tracked : Tracked pending id) (request : PendingRequest) : Tracked (pending.put request) id := by
  unfold Tracked
  rw [KeyedList.get?_put]
  split
  · rfl
  · exact tracked

theorem Tracked.settled (tracked : Tracked pending id) :
    Tracked ((jobs.map fun job => (job, process job)).foldl (settle session) (pending, firstErr)).1 id ∨
      ∃ job : PendingRequest, job.id = id ∧ (process job).any (·.isNotPending) = true := by
  induction jobs generalizing pending firstErr with
  | nil => exact .inl tracked
  | cons job rest ih =>
    rw [List.map_cons, List.foldl_cons]
    unfold settle
    cases answer : process job with
    | none => exact ih (tracked.put _)
    | some error =>
      dsimp only
      split
      · rename_i done
        by_cases same : job.id = id
        · exact .inr ⟨job, same, by rw [answer]; exact done⟩
        · refine ih ?_
          unfold Tracked
          rw [pending.get?_erase, if_neg fun equal => same (BitVec.eq_of_toNat_eq equal).symm]
          exact tracked
      · exact ih (tracked.put _)

theorem Tracked.concurrentOutcome (tracked : Tracked retry.pending id) :
    Tracked (retry.concurrentOutcome now session process).1.pending id ∨
      ∃ job : PendingRequest, job.id = id ∧ (process job).any (·.isNotPending) = true := by
  unfold RabbitVRFRequestRetryQueueV1.concurrentOutcome
  dsimp only
  split
  · exact .inl tracked
  split
  · exact .inl tracked
  · exact tracked.settled

theorem finalized_of_process {job : PendingRequest} (done : (reads.process job).any (·.isNotPending) = true) :
    reads.Finalized job.id := by
  unfold ScanReads.process at done
  split_ifs at done
  iterate 3 cases done
  · cases flow : reads.flow job.id with
    | none =>
      rw [flow] at done
      cases done
    | some cause =>
      rw [flow] at done
      cases cause with
      | requestNotPending => exact .inr (.inr flow)
      | other => cases done

theorem tracked_trackV1 {request hash : Hash} {block : Nat} :
    Tracked (retry.trackV1 request block hash).pending id ↔ id = request ∨ Tracked retry.pending id := by
  unfold Tracked trackV1
  split
  · rename_i found
    refine ⟨.inr, fun either => either.elim (fun same => ?_) fun tracked => tracked⟩
    rw [same, found]
    rfl
  · dsimp only
    rw [KeyedList.get?_put]
    split
    · rename_i same
      exact ⟨fun _ => .inl (BitVec.eq_of_toNat_eq same), fun _ => rfl⟩
    · rename_i apart
      exact ⟨.inr, fun either => either.resolve_left fun same => apart (congrArg _ same)⟩

theorem tracked_foldl {ids : List Hash} {block : Nat} {hash : Hash} :
    Tracked (ids.foldl (fun retry id => retry.trackV1 id block hash) retry).pending id ↔
      id ∈ ids ∨ Tracked retry.pending id := by
  induction ids generalizing retry with
  | nil => simp
  | cons first rest ih => rw [List.foldl_cons, ih, tracked_trackV1, List.mem_cons, or_left_comm, or_assoc]

theorem restoreFrom_tracked (ids : List Hash) :
    (Tracked (restoreFrom reads ids retry).1.pending id → id ∈ ids ∨ Tracked retry.pending id) ∧
      ((restoreFrom reads ids retry).2 = none → id ∈ ids ∨ Tracked retry.pending id →
        Tracked (restoreFrom reads ids retry).1.pending id ∨ reads.Finalized id) := by
  fun_induction restoreFrom reads ids retry with
  | case1 retry => exact ⟨.inr, fun _ either => .inl (either.resolve_left List.not_mem_nil)⟩
  | case2 retry first rest there ih =>
    rw [List.mem_cons, or_assoc, or_iff_right_of_imp fun same => .inr (same ▸ there)]
    exact ih
  | case3 retry first rest _ answered ih =>
    refine ⟨fun tracked => (ih.1 tracked).imp_left (List.mem_cons_of_mem _), fun done either => ?_⟩
    rw [List.mem_cons, or_assoc] at either
    rcases either with rfl | either
    · exact .inr (.inl answered)
    · exact ih.2 done either
  | case4 | case5 => exact ⟨.inr, fun done => by cases done⟩
  | case6 retry first rest _ block hash _ ih =>
    rw [List.mem_cons, or_assoc, or_left_comm, ← tracked_trackV1]
    exact ih

/-- The requests of the blocks below `next` are known: those of the block `lastHash` and of its ancestors. -/
def Covers (chain : RequestChain) (known : Hash → Prop) (next : Nat)
    (lastHash : Hash) : Prop :=
  (lastHash = 0 → next ≤ chain.activation) ∧ ∀ back, chain.activation + back < next →
    ∀ id ∈ chain.requests (chain.parent^[back] lastHash),
      known id

theorem covers_activation : Covers chain known chain.activation lastHash :=
  ⟨fun _ => le_rfl, fun back below => by omega⟩

theorem Covers.mono {wider : Hash → Prop} (covers : Covers chain known next lastHash)
    (more : ∀ id, known id → wider id) : Covers chain wider next lastHash :=
  ⟨covers.1, fun back below id member => more id (covers.2 back below id member)⟩

theorem Covers.extend (covers : Covers chain known next lastHash) {hash : Hash} (real : hash ≠ 0)
    (linked : lastHash ≠ 0 → chain.parent hash = lastHash)
    (found : ∀ id ∈ chain.requests hash, known id) :
    Covers chain known (next + 1) hash := by
  refine ⟨fun zero => absurd zero real, fun back below => ?_⟩
  cases back with
  | zero => exact found
  | succ back =>
    have below : chain.activation + back < next := by omega
    rw [Function.iterate_succ_apply, linked fun zero => by have := covers.1 zero; omega]
    exact covers.2 back below

def CoversTracked (chain : RequestChain) (finalized : Hash → Prop)
    (cursor : RabbitVRFRequestScanCursorV1) : Prop :=
  Covers chain (fun id => Tracked cursor.retry.pending id ∨ finalized id) cursor.next cursor.lastHash

theorem CoversTracked.scanFrom {count : Nat} (covers : CoversTracked chain finalized cursor) :
    CoversTracked chain finalized
      (RabbitVRFRequestScanCursorV1.scanFrom chain reads count cursor).1 := by
  induction count generalizing cursor with
  | zero => exact covers
  | succ count ih =>
    unfold RabbitVRFRequestScanCursorV1.scanFrom
    split
    · exact covers
    rename_i hash _
    dsimp only
    split
    · exact covers_activation
    rename_i linked
    split
    · exact covers
    rename_i available
    split
    · exact covers_activation
    refine ih ((covers.mono fun id either => ?_).extend hash.2 (fun known => ?_) fun id member => .inl ?_)
    · exact either.imp_left fun tracked => tracked_foldl.mpr (.inr tracked)
    · by_contra apart
      exact linked ⟨known, apart⟩
    · refine tracked_foldl.mpr (.inl ?_)
      split
      · exact member
      · rename_i unknown
        have empty : (chain.blocks hash.1).transactions = 0 :=
          Nat.eq_zero_of_not_pos fun some => available ⟨some, by simp [unknown]⟩
        rwa [RequestChain.requests, (chain.blocks hash.1).executed empty] at member

theorem CoversTracked.processTracked (covers : CoversTracked chain finalized cursor)
    (done : ∀ id, reads.Finalized id → finalized id) :
    CoversTracked chain finalized (cursor.processTracked chain reads).1 := by
  unfold RabbitVRFRequestScanCursorV1.processTracked
  split
  · unfold retire
    split
    · refine covers.mono fun id either => either.elim (fun tracked => ?_) .inr
      obtain ⟨request, member, rfl⟩ := List.mem_map.mp (tracked_iff.mp tracked)
      by_cases kept : (reads.retired request.id).2 = some .requestNotPending
      · exact .inr (done _ (.inr (.inl kept)))
      · refine .inl (tracked_iff.mpr (List.mem_map.mpr ⟨request, List.mem_filter.mpr ⟨member, ?_⟩, rfl⟩))
        cases answer : (reads.retired request.id).2 with
        | none => rfl
        | some cause =>
          cases cause with
          | requestNotPending => exact absurd answer kept
          | other => rfl
    · exact covers_activation
  split
  · exact covers
  dsimp only
  split
  · exact covers_activation
  · refine covers.mono fun id either => either.elim (fun tracked => tracked.concurrentOutcome.imp_right ?_) .inr
    rintro ⟨job, rfl, answered⟩
    exact done _ (finalized_of_process answered)

/-- What every pass keeps: a request of a scanned block is listed, unless it was found finalized. -/
structure Sound (chain : RequestChain) (finalized : Hash → Prop)
    (cursor : RabbitVRFRequestScanCursorV1) : Prop where
  covers : Covers chain (fun id => id ∈ cursor.pending ∨ finalized id) cursor.next cursor.lastHash
  listed : ∀ id, Tracked cursor.retry.pending id → id ∈ cursor.pending

theorem Sound.reset : Sound chain finalized (resetV1 chain.activation) :=
  ⟨covers_activation, fun id tracked => by cases tracked⟩

theorem Sound.reconciled (sound : Sound chain finalized cursor) :
    Sound chain finalized (cursor.reconciled chain reads) := by
  have either : cursor.reconciled chain reads = cursor ∨ cursor.reconciled chain reads = resetV1 chain.activation := by
    unfold RabbitVRFRequestScanCursorV1.reconciled reconcilePreviousV1
    dsimp only
    split
    · exact .inr (by split_ifs <;> rfl)
    · split_ifs <;> simp
  rcases either with same | same
  · rwa [same]
  · rw [same]
    exact .reset

theorem Sound.pass (sound : Sound chain finalized cursor)
    (done : ∀ id, reads.Finalized id → finalized id) :
    Sound chain finalized
      (cursor.processCanonicalPendingRequestsV1 chain reads).1 := by
  unfold processCanonicalPendingRequestsV1
  split
  · exact sound
  have sound : Sound chain finalized (cursor.reconciled chain reads) := sound.reconciled
  generalize cursor.reconciled chain reads = cursor at sound ⊢
  dsimp only
  split
  · exact sound
  rename_i head _
  have restored := fun id => @restoreFrom_tracked ε id reads cursor.retry cursor.pending
  split
  · rename_i equal
    rw [equal] at restored
    exact ⟨sound.covers, fun id tracked => ((restored id).1 tracked).elim (fun member => member) (sound.listed id)⟩
  · rename_i retry equal
    rw [equal] at restored
    have covers : CoversTracked chain finalized { cursor with retry } :=
      sound.covers.mono fun id either =>
        either.elim (fun member => ((restored id).2 rfl (.inl member)).imp_right (done id)) .inr
    have scanned : CoversTracked chain finalized
        (scan chain reads { cursor with retry } head).1 := by
      unfold scan
      dsimp only
      split
      · exact covers.scanFrom
      · exact covers.scanFrom.processTracked done
    exact ⟨scanned.mono fun id => .imp_left tracked_iff.mp, fun id => tracked_iff.mp⟩

theorem Sound.runBatches {batches : List (ScanReads ε × Option Nat)}
    (sound : Sound chain finalized cursor)
    (done : ∀ batch ∈ batches, ∀ id, batch.1.Finalized id → finalized id) :
    Sound chain finalized (RequestNode.runBatches chain batches cursor) := by
  induction batches generalizing cursor with
  | nil => exact sound
  | cons batch rest ih =>
    obtain ⟨first, done⟩ := List.forall_mem_cons.mp done
    unfold RequestNode.runBatches
    dsimp only
    split
    · exact sound.pass first
    · exact ih (sound.pass first) done

structure NodeSound (chain : RequestChain) (finalized : Hash → Prop)
    (node : RequestNode) : Prop where
  cursor : Sound chain finalized node.cursor
  stored : ∀ checkpoint, node.stored = some checkpoint → Sound chain finalized checkpoint.cursor

variable {node : RequestNode}

theorem NodeSound.save {previous : Option Hash} {genesis : Hash} {written : Bool}
    (sound : NodeSound chain finalized node) :
    NodeSound chain finalized (node.save chain previous genesis written) := by
  unfold RequestNode.save
  split
  · exact sound
  dsimp only
  split
  · exact sound
  · refine ⟨sound.cursor, fun checkpoint same => ?_⟩
    cases same
    exact ⟨sound.cursor.covers, fun id tracked => by cases tracked⟩

theorem NodeSound.start {stored : Option RabbitVRFRequestCheckpointV1} {previous genesis : Option Hash}
    (sound : ∀ checkpoint, stored = some checkpoint → Sound chain finalized checkpoint.cursor) :
    NodeSound chain finalized (RequestNode.start chain stored previous genesis) := by
  unfold RequestNode.start
  dsimp only
  split
  · rename_i checkpoint loaded
    exact ⟨sound checkpoint (Option.filter_eq_some_iff.mp loaded).1, sound⟩
  · exact ⟨.reset, sound⟩

theorem NodeSound.run {events : List (RequestEvent ε)} (sound : NodeSound chain finalized node)
    (done : ∀ event ∈ events, ∀ id, event.Finalized id → finalized id) :
    NodeSound chain finalized (events.foldl (RequestNode.step chain) node) := by
  induction events generalizing node with
  | nil => exact sound
  | cons event rest ih =>
    obtain ⟨first, done⟩ := List.forall_mem_cons.mp done
    refine ih ?_ done
    cases event with
    | processRequests batches previous genesis written =>
      refine NodeSound.save ⟨sound.cursor.runBatches fun batch member id found => ?_, sound.stored⟩
      exact first id ⟨batch, List.mem_of_mem_take member, found⟩
    | restart previous genesis => exact .start sound.stored

/-- However the chain changes between the reads and however often the node starts again, every request of the last
scanned block and its ancestors is listed, unless it was found finalized. So it is with what was saved, and whatever
waits to be retried is listed. -/
theorem requests_never_missed (chain : RequestChain) (events : List (RequestEvent ε)) :
    let node := RequestNode.run chain events
    (∀ back, chain.activation + back < node.cursor.next →
      ∀ id ∈ chain.requests (chain.parent^[back] node.cursor.lastHash),
        id ∈ node.cursor.pending ∨ ∃ event ∈ events, event.Finalized id) ∧
    (∀ checkpoint, node.stored = some checkpoint → ∀ back, chain.activation + back < checkpoint.next →
      ∀ id ∈ chain.requests (chain.parent^[back] checkpoint.lastHash),
        id ∈ checkpoint.pending ∨ ∃ event ∈ events, event.Finalized id) ∧
    ∀ request ∈ node.cursor.retry.pending.items, request.id ∈ node.cursor.pending := by
  have sound : NodeSound chain (fun id => ∃ event ∈ events, event.Finalized id) (RequestNode.run chain events) :=
    NodeSound.run (.start fun _ none => by cases none) fun event member id found => ⟨event, member, found⟩
  exact ⟨sound.cursor.covers.2, fun checkpoint saved => (sound.stored checkpoint saved).covers.2,
    fun request member => sound.cursor.listed _ (tracked_iff.mpr (List.mem_map_of_mem member))⟩

def requestLog (id : Hash) : EventLog :=
  ⟨rabbitVRFCoordinatorV1Address, [rabbitVRFRandomnessRequestedTopicV1 plainCrypto, id, 1, 1]⟩

/-- Two blocks with a request each. -/
def twoBlocks : RequestChain where
  crypto := plainCrypto
  blocks hash :=
    if hash = 11 then ⟨10, 1, [[requestLog 7]], fun none => absurd none Nat.one_ne_zero⟩
    else if hash = 12 then ⟨11, 2, [[], [requestLog 8]], fun none => absurd none two_ne_zero⟩
    else ⟨0, 0, [], fun _ => rfl⟩
  activation := 1

/-- The node is in no committee, and no request is finalized. -/
def calmReads : ScanReads Empty where
  previous := none
  head := some 2
  session := 0
  members := 0
  restored _ := .ok (2, some 12)
  scanned number := if number = 1 then some ⟨11, by decide⟩ else some ⟨12, by decide⟩
  receipts _ := true
  rechecked number := if number = 1 then some 11 else some 12
  secretReady := false
  retired id := (if id = 7 then some 11 else some 12, none)
  transport := false
  now := 0
  sessionKept _ := true
  before _ := none
  flow _ := none
  after _ := none

def scanAndRestart : List (RequestEvent Empty) :=
  [.processRequests [(calmReads, some 2)] (some 12) 1 true, .restart (some 12) (some 1)]

/-- A node that starts again after both blocks still lists the request of the first one. -/
theorem requests_never_missed_restart :
    (RequestNode.run twoBlocks scanAndRestart).cursor.next = 3 ∧
      (RequestNode.run twoBlocks scanAndRestart).cursor.lastHash = 12 ∧
      7 ∈ (RequestNode.run twoBlocks scanAndRestart).cursor.pending := by
  have scanned : (RequestNode.run twoBlocks scanAndRestart).cursor.next = 3 ∧
      (RequestNode.run twoBlocks scanAndRestart).cursor.lastHash = 12 ∧
      7 ∈ twoBlocks.requests (twoBlocks.parent 12) := by
    decide +kernel
  refine ⟨scanned.1, scanned.2.1, ?_⟩
  have listed := (requests_never_missed twoBlocks scanAndRestart).1 1 (by rw [scanned.1]; decide) 7
    (by rw [scanned.2.1]; exact scanned.2.2)
  refine listed.resolve_right ?_
  simp [scanAndRestart, RequestEvent.Finalized, ScanReads.Finalized, calmReads]

end RequestScan

end RabbitLqc
