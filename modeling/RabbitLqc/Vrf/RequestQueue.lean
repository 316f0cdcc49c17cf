import RabbitLqc.Basic
import RabbitLqc.Lib.KeyedList

/-!
# Retrying randomness requests

Requests wait in a queue until the chain has their randomness. The requests that are due are processed by up to three
workers at once; nothing is taken over if one of them finds the chain reorganised.
-/

namespace RabbitLqc
open Lib

/-- Why the lookup or the threshold flow of a request failed. -/
inductive RequestFailure (ε : Type) where
  | requestNotPending
  | other (error : ε)

inductive RequestWorkerError (ε : Type) where
  | workerReorg
  | workerReorgAt (blockNumber : Nat)
  | workerReorgScanning (blockNumber : Nat)
  | blockUnavailable (blockNumber : Nat)
  | receiptsUnavailable (blockNumber : Nat)
  | transportUnavailable
  | artifactSessionMismatch
  | lookup (cause : RequestFailure ε)
  | processing (requestID : Hash) (blockNumber : Nat) (cause : RequestFailure ε)

namespace RequestWorkerError

variable {ε : Type}

/-- `errors.Is` looks through what an error wraps. -/
def isReorg : RequestWorkerError ε → Bool
  | workerReorg | workerReorgAt _ | workerReorgScanning _ => true
  | _ => false

def isNotPending : RequestWorkerError ε → Bool
  | lookup .requestNotPending | processing _ _ .requestNotPending => true
  | _ => false

end RequestWorkerError

/-- The error of processing a request, if any. -/
abbrev RequestAnswer (ε : Type) := Option (RequestWorkerError ε)

def RequestAnswer.isReorg {ε : Type} (answer : RequestAnswer ε) : Bool := answer.any RequestWorkerError.isReorg

/-- A request with its `rabbitVRFRequestRetryOriginV1`; times are in nanoseconds. -/
structure PendingRequest where
  id : Hash
  startedSession : Hash := 0
  nextRetry : Nat := 0
  block : Nat
  hash : Hash
  deriving DecidableEq

namespace PendingRequest

def order (request : PendingRequest) : Nat ×ₗ Nat := toLex (request.block, request.id.toNat)

def postponed (now : Nat) (request : PendingRequest) : PendingRequest :=
  { request with nextRetry := now + 30 * 10 ^ 9 }

def started (session : Hash) (request : PendingRequest) : PendingRequest := { request with startedSession := session }

end PendingRequest

abbrev PendingRequests := KeyedList PendingRequest (·.id.toNat)

structure RabbitVRFRequestRetryQueueV1 where
  pending : PendingRequests := .empty
  session : Hash := 0

namespace RabbitVRFRequestRetryQueueV1

variable {ε : Type} (queue : RabbitVRFRequestRetryQueueV1) (now : Nat) (session : Hash)

def trackV1 (request : Hash) (block : Nat) (hash : Hash) : RabbitVRFRequestRetryQueueV1 :=
  match queue.pending.get? request.toNat with
  | some _ => queue
  | none => { queue with pending := queue.pending.put { id := request, block, hash } }

/-- A new session retries everything. -/
def isDue (request : PendingRequest) : Bool := queue.session ≠ session ∨ request.nextRetry ≤ now

/-- What one answer does to the queue. -/
def settle (state : PendingRequests × RequestAnswer ε)
    (answered : PendingRequest × RequestAnswer ε) :
    PendingRequests × RequestAnswer ε :=
  match answered.2 with
  | none => (state.1.put (answered.1.started session), state.2)
  | some error =>
    if error.isNotPending then (state.1.erase answered.1.id.toNat, state.2)
    else (state.1.put answered.1, state.2.orElse fun _ => some error)

def dueRequests : List PendingRequest :=
  sortOn PendingRequest.order ((queue.pending.items.filter (queue.isDue now session)).map (·.postponed now))

/-- What the answers of the workers do to the queue, in the order of the requests. -/
def runConcurrentV1 (answers : Nat → RequestAnswer ε) (reorg : Bool) :
    RabbitVRFRequestRetryQueueV1 × RequestAnswer ε :=
  if queue.pending.items = [] ∨ session = 0 then (queue, none)
  else
    let jobs := queue.dueRequests now session
    if jobs = [] then ({ queue with session }, none)
    else if reorg then ({ queue with session }, some .workerReorg)
    else
      let (pending, firstErr) :=
        (jobs.zipIdx.map fun job => (job.1, answers job.2)).foldl (settle session) (queue.pending, none)
      (⟨pending, session⟩, firstErr)

/-- What the workers have to leave, however they are scheduled: the answers of the due requests settled in turn, or
nothing if one of them found the chain reorganised. -/
def concurrentOutcome (process : PendingRequest → RequestAnswer ε) : RabbitVRFRequestRetryQueueV1 × RequestAnswer ε :=
  let jobs := queue.dueRequests now session
  if queue.pending.items = [] ∨ session = 0 then (queue, none)
  else if jobs.any fun job => (process job).isReorg then ({ queue with session }, some .workerReorg)
  else
    let (pending, firstErr) := (jobs.map fun job => (job, process job)).foldl (settle session) (queue.pending, none)
    (⟨pending, session⟩, firstErr)

end RabbitVRFRequestRetryQueueV1

/-! ### Workers -/

/-- Where the request with one index is: not handed out, held by a worker before it read the reorganisation flag, while
it is processed or before the flag is set, or answered. -/
inductive JobPhase where
  | waiting
  | received
  | processing
  | marking
  | ended
  deriving DecidableEq

def JobPhase.rank : JobPhase → Nat
  | waiting => 4
  | received => 3
  | processing => 2
  | marking => 1
  | ended => 0

def JobPhase.busy : JobPhase → Bool
  | waiting | ended => false
  | _ => true

structure RequestWorkers (ε : Type) where
  phase : Nat → JobPhase := fun _ => .waiting
  next : Nat := 0
  results : Nat → RequestAnswer ε := fun _ => none
  reorg : Bool := false

inductive WorkerEvent where
  | hand
  | load (index : Nat)
  | answer (index : Nat)
  | mark (index : Nat)

namespace RequestWorkers

variable {ε : Type} (jobs : List PendingRequest) (process : PendingRequest → RequestAnswer ε)

def inFlight (workers : RequestWorkers ε) (count : Nat) : Finset Nat :=
  (Finset.range count).filter fun index => (workers.phase index).busy

def moved (workers : RequestWorkers ε) (index : Nat) (phase : JobPhase) : RequestWorkers ε :=
  { workers with phase := Function.update workers.phase index phase }

def answered (workers : RequestWorkers ε) (index : Nat) (result : RequestAnswer ε) : RequestWorkers ε :=
  { workers with results := Function.update workers.results index result }

def step (workers : RequestWorkers ε) : WorkerEvent → Option (RequestWorkers ε)
  | .hand =>
    -- the channel is not buffered: an index is handed to a worker that is free
    if workers.next < jobs.length ∧ (workers.inFlight jobs.length).card < min 3 jobs.length then
      some { workers.moved workers.next .received with next := workers.next + 1 }
    else none
  | .load index =>
    if workers.phase index ≠ .received then none
    else if workers.reorg then some ((workers.answered index (some .workerReorg)).moved index .ended)
    else some (workers.moved index .processing)
  | .answer index =>
    if workers.phase index ≠ .processing then none
    else jobs[index]?.map fun job => (workers.answered index (process job)).moved index
      (if (process job).isReorg then .marking else .ended)
  | .mark index =>
    if workers.phase index ≠ .marking then none
    else some { workers.moved index .ended with reorg := true }

def run (events : List WorkerEvent) : Option (RequestWorkers ε) := events.foldlM (step jobs process) {}

def FindsReorg : Prop := ∃ job ∈ jobs, (process job).isReorg = true

/-- What is known of a request by its phase. -/
structure Known (workers : RequestWorkers ε) (index : Nat) (phase : JobPhase) : Prop where
  waiting : phase = .waiting ↔ workers.next ≤ index
  marking : phase = .marking → FindsReorg jobs process
  ended : phase = .ended → workers.reorg = true ∨ ∃ job, jobs[index]? = some job ∧
    workers.results index = process job ∧ (process job).isReorg = false

/-- What every schedule keeps. -/
structure Sound (workers : RequestWorkers ε) : Prop where
  each : ∀ index, Known jobs process workers index (workers.phase index)
  bounded : workers.next ≤ jobs.length
  found : workers.reorg = true → FindsReorg jobs process

variable {jobs process} {workers after : RequestWorkers ε} {events : List WorkerEvent}

/-- The steps the requests have left. -/
def measure (workers : RequestWorkers ε) (count : Nat) : Nat :=
  ∑ index ∈ Finset.range count, (workers.phase index).rank

theorem measure_moved (workers : RequestWorkers ε) {count index : Nat} {phase : JobPhase} (inside : index < count)
    (below : phase.rank < (workers.phase index).rank) :
    (workers.moved index phase).measure count < workers.measure count := by
  refine Finset.sum_lt_sum (fun other _ => ?_) ⟨index, Finset.mem_range.mpr inside, ?_⟩ <;>
    simp only [moved, Function.update_apply]
  · split
    · rename_i same
      exact same ▸ below.le
    · exact le_rfl
  · simpa using below

theorem Sound.start : Sound jobs process {} where
  each index := ⟨⟨fun _ => Nat.zero_le index, fun _ => rfl⟩, by simp, by simp⟩
  bounded := Nat.zero_le _
  found flagged := by cases flagged

theorem Sound.known (sound : Sound jobs process workers) {index : Nat} (held : (workers.phase index).busy = true) :
    index < jobs.length := by
  refine lt_of_lt_of_le ?_ sound.bounded
  by_contra later
  rw [(sound.each index).waiting.mpr (Nat.not_lt.mp later)] at held
  cases held

/-- A worker goes on with a request it holds. -/
theorem Sound.goOn (sound : Sound jobs process workers) {index : Nat} {phase : JobPhase}
    {results : Nat → RequestAnswer ε} {reorg : Bool} (held : (workers.phase index).busy = true)
    (below : phase.rank < (workers.phase index).rank)
    (others : ∀ other, other ≠ index → results other = workers.results other)
    (kept : workers.reorg = true → reorg = true) (found : reorg = true → FindsReorg jobs process)
    (marks : phase = .marking → FindsReorg jobs process)
    (ends : phase = .ended → reorg = true ∨ ∃ job, jobs[index]? = some job ∧
      results index = process job ∧ (process job).isReorg = false) :
    let after : RequestWorkers ε := ⟨(workers.moved index phase).phase, workers.next, results, reorg⟩
    Sound jobs process after ∧ after.measure jobs.length < workers.measure jobs.length := by
  refine ⟨⟨(Function.forall_update_iff _ _).mpr ⟨⟨?_, marks, ends⟩, fun other apart => ⟨(sound.each other).waiting,
    (sound.each other).marking, fun ended => ?_⟩⟩, sound.bounded, found⟩,
      workers.measure_moved (sound.known held) below⟩
  · have waits : ¬workers.next ≤ index := fun later => by
      rw [(sound.each index).waiting.mpr later] at held
      cases held
    refine ⟨fun again => ?_, fun later => absurd later waits⟩
    rw [again] at below
    exact absurd below (by cases workers.phase index <;> decide)
  · dsimp only
    rw [others other apart]
    exact ((sound.each other).ended ended).imp_left kept

theorem Sound.hand (sound : Sound jobs process workers) (more : workers.next < jobs.length) :
    Sound jobs process { workers.moved workers.next .received with next := workers.next + 1 } := by
  refine ⟨(Function.forall_update_iff _ _).mpr ⟨⟨?_, by simp, by simp⟩, fun other apart =>
    ⟨(sound.each other).waiting.trans ?_, (sound.each other).marking, (sound.each other).ended⟩⟩, more, sound.found⟩
  · simp
  · dsimp only
    omega

theorem Sound.stepped {event : WorkerEvent} (sound : Sound jobs process workers)
    (stepped : workers.step jobs process event = some after) :
    Sound jobs process after ∧ after.measure jobs.length < workers.measure jobs.length := by
  cases event <;> simp only [step] at stepped <;> split at stepped
  case hand.isTrue guard =>
    cases stepped
    exact ⟨sound.hand guard.1, workers.measure_moved guard.1 (by rw [(sound.each _).waiting.mpr le_rfl]; decide)⟩
  case load.isFalse index held =>
    rw [not_not] at held
    split at stepped <;> cases stepped
    · rename_i reorg
      exact sound.goOn (by rw [held]; rfl) (by rw [held]; decide) (fun _ apart => Function.update_of_ne apart ..) id
        sound.found (by simp) fun _ => .inl reorg
    · exact sound.goOn (by rw [held]; rfl) (by rw [held]; decide) (fun _ _ => rfl) id sound.found (by simp) (by simp)
  case answer.isFalse index held =>
    rw [not_not] at held
    obtain ⟨job, at_, rfl⟩ := Option.map_eq_some_iff.mp stepped
    refine sound.goOn (by rw [held]; rfl) (by rw [held]; split <;> decide)
      (fun _ apart => Function.update_of_ne apart ..) id sound.found ?_ ?_ <;> split
    · rename_i reorg
      exact fun _ => ⟨job, List.mem_of_getElem? at_, reorg⟩
    · simp
    · simp
    · rename_i calm
      exact fun _ => .inr ⟨job, at_, Function.update_self .., Bool.not_eq_true _ ▸ calm⟩
  case mark.isFalse index held =>
    rw [not_not] at held
    cases stepped
    exact sound.goOn (by rw [held]; rfl) (by rw [held]; decide) (fun _ _ => rfl) (fun _ => rfl)
      (fun _ => (sound.each index).marking held) (by simp) fun _ => .inl rfl
  all_goals cases stepped

theorem Sound.run (sound : Sound jobs process workers) (ran : events.foldlM (step jobs process) workers = some after) :
    Sound jobs process after ∧ events.length + after.measure jobs.length ≤ workers.measure jobs.length := by
  induction events generalizing workers with
  | nil =>
    cases ran
    exact ⟨sound, (Nat.zero_add _).le⟩
  | cons event rest ih =>
    rw [List.foldlM_cons] at ran
    obtain ⟨next, stepped, ran⟩ := Option.bind_eq_some_iff.mp ran
    obtain ⟨sound, less⟩ := sound.stepped stepped
    obtain ⟨sound, count⟩ := ih sound ran
    rw [List.length_cons]
    exact ⟨sound, by omega⟩

/-- Workers that cannot go on have answered every request. -/
theorem Sound.stuck (sound : Sound jobs process workers) (stuck : ∀ event, workers.step jobs process event = none)
    {index : Nat} (inside : index < jobs.length) : workers.phase index = .ended := by
  have idle : ∀ other < jobs.length, (workers.phase other).busy = false := by
    intro other within
    cases held : workers.phase other with
    | waiting | ended => rfl
    | received =>
      have := stuck (.load other)
      simp only [step, held, ne_eq, not_true_eq_false, if_false] at this
      split at this <;> cases this
    | processing =>
      have := stuck (.answer other)
      simp [step, held, List.getElem?_eq_getElem within] at this
    | marking =>
      have := stuck (.mark other)
      simp [step, held] at this
  cases held : workers.phase index with
  | ended => rfl
  | waiting =>
    -- nobody is busy, so a worker is free for the next index
    have none : workers.inFlight jobs.length = ∅ :=
      Finset.filter_eq_empty_iff.mpr fun other member => by simp [idle other (Finset.mem_range.mp member)]
    have next := (sound.each index).waiting.mp held
    have := stuck .hand
    simp only [step, none, Finset.card_empty] at this
    rw [if_pos (by omega)] at this
    cases this
  | received | processing | marking =>
    have := idle index inside
    rw [held] at this
    cases this

theorem Sound.finished (sound : Sound jobs process workers) (stuck : ∀ event, workers.step jobs process event = none) :
    if workers.reorg then FindsReorg jobs process
    else ∀ index job, jobs[index]? = some job →
      workers.results index = process job ∧ (process job).isReorg = false := by
  split
  · rename_i flagged
    exact sound.found flagged
  · rename_i calm
    intro index job at_
    obtain ⟨inside, _⟩ := List.getElem?_eq_some_iff.mp at_
    rcases (sound.each index).ended (sound.stuck stuck inside) with flagged | ⟨other, same, result⟩
    · exact absurd flagged calm
    · obtain rfl := Option.some.inj (at_.symm.trans same)
      exact result

end RequestWorkers

/-! ### Agreement -/

namespace RabbitVRFRequestRetryQueueV1

variable {ε : Type} {process : PendingRequest → RequestAnswer ε}

theorem zipIdx_answers {jobs : List PendingRequest} {answers : Nat → RequestAnswer ε}
    (answered : ∀ index job, jobs[index]? = some job → answers index = process job) :
    (jobs.zipIdx.map fun job => (job.1, answers job.2)) = jobs.map fun job => (job, process job) := by
  have each : (jobs.zipIdx.map fun job => (job.1, answers job.2)) = jobs.zipIdx.map fun job => (job.1, process job.1) :=
    List.map_congr_left fun job member => by rw [answered _ _ (List.mem_zipIdx_iff_getElem?.mp member)]
  have numbers : jobs.zipIdx.map Prod.fst = jobs := List.zipIdx_map_fst ..
  nth_rewrite 2 [← numbers]
  rw [each, List.map_map]
  rfl

/-- Every schedule of the workers ends, and when no worker can go on the requests are settled as if they had been
processed one after the other. -/
theorem request_workers_agree (queue : RabbitVRFRequestRetryQueueV1) (now : Nat) (session : Hash)
    (process : PendingRequest → RequestAnswer ε) (events : List WorkerEvent) (workers : RequestWorkers ε)
    (ran : RequestWorkers.run (queue.dueRequests now session) process events = some workers) :
    events.length ≤ 4 * (queue.dueRequests now session).length ∧
      ((∀ event, workers.step (queue.dueRequests now session) process event = none) →
        queue.runConcurrentV1 now session workers.results workers.reorg =
          queue.concurrentOutcome now session process) := by
  obtain ⟨sound, steps⟩ := RequestWorkers.Sound.start.run ran
  have total : ({} : RequestWorkers ε).measure (queue.dueRequests now session).length =
      4 * (queue.dueRequests now session).length := by
    simp [RequestWorkers.measure, JobPhase.rank, Nat.mul_comm]
  refine ⟨by omega, fun stuck => ?_⟩
  have finished := sound.finished stuck
  unfold runConcurrentV1 concurrentOutcome
  dsimp only
  split
  · rfl
  split
  · rename_i none
    rw [none]
    rfl
  split
  · rename_i flagged
    rw [if_pos flagged] at finished
    rw [if_pos (List.any_eq_true.mpr finished)]
  · rename_i calm
    rw [if_neg calm] at finished
    rw [zipIdx_answers fun index job at_ => (finished index job at_).1, if_neg]
    rw [List.any_eq_true]
    rintro ⟨job, member, reorg⟩
    obtain ⟨index, at_⟩ := List.getElem?_of_mem member
    rw [(finished index job at_).2] at reorg
    cases reorg

/-- Two requests that are due, the second one in a later block. -/
def twoRequests : RabbitVRFRequestRetryQueueV1 := trackV1 (trackV1 {} 7 100 9) 8 101 9

/-- The block of the second request is no longer on the chain. -/
def secondReorg (request : PendingRequest) : RequestAnswer Empty :=
  if request.block = 101 then some .workerReorg else none

/-- The first worker has read the flag when the second one finds the reorganisation, and answers after it is set. -/
def lateFlag : List WorkerEvent := [.hand, .hand, .load 0, .load 1, .answer 1, .mark 1, .answer 0]

theorem request_workers_agree_reorg :
    ∃ workers, RequestWorkers.run (twoRequests.dueRequests 0 1) secondReorg lateFlag = some workers ∧
      workers.results 0 = none ∧ lateFlag.length ≤ 8 ∧
      twoRequests.runConcurrentV1 0 1 workers.results workers.reorg =
        ({ twoRequests with session := 1 }, some .workerReorg) := by
  obtain ⟨workers, ran⟩ : ∃ workers, RequestWorkers.run (twoRequests.dueRequests 0 1) secondReorg lateFlag =
    some workers :=
    ⟨_, rfl⟩
  obtain ⟨steps, agrees⟩ := request_workers_agree twoRequests 0 1 secondReorg lateFlag workers ran
  obtain rfl := Option.some.inj ran
  refine ⟨_, rfl, rfl, steps, agrees fun event => ?_⟩
  cases event with
  | hand => rfl
  | load index => rcases index with _ | _ | index <;> rfl
  | answer index => rcases index with _ | _ | index <;> rfl
  | mark index => rcases index with _ | _ | index <;> rfl

end RabbitVRFRequestRetryQueueV1

end RabbitLqc
