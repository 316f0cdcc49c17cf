import Mathlib

/-!
# The fair verifier

Relayed work tickets are expensive to verify. The node verifies them one at a time on a worker, and takes from each
peer only one at a time. A caller hands its task in, waits for the result on a channel of the task, and leaves with
it; closing answers the tasks that are still queued.

A step is what one of the parties does between two of its synchronisations: the sections under the lock are one step
each, and so is each operation on a result channel.
-/

namespace RabbitLqc

variable {ε : Type}

/-! ### Tasks and calls -/

/-- What a caller of `Run` gets: what the work itself returned, or an error of the verifier. -/
inductive FairResult (ε : Type) where
  | own (outcome : Option ε)
  | closed
  | peerPending
  | invalidTask
  deriving DecidableEq, Repr

structure FairTask where
  id : Nat
  peerID : String
  deriving DecidableEq, Repr

/-- One call of `Run`: the result channel of its task (one place, and whether it is closed), what the work returned, and
what the caller left with. -/
structure FairCall (ε : Type) where
  buffer : Option (FairResult ε) := none
  shut : Bool := false
  outcome : Option (Option ε) := none
  returned : Option (FairResult ε) := none
  deriving DecidableEq, Repr

namespace FairCall

/-- Sending fails to happen on a full channel, where it blocks, and on a closed one, where it panics. -/
def send (result : FairResult ε) (call : FairCall ε) : Option (FairCall ε) :=
  if call.shut = false ∧ call.buffer.isNone then some { call with buffer := some result } else none

def shutChannel (call : FairCall ε) : Option (FairCall ε) :=
  if call.shut then none else some { call with shut := true }

/-- The caller receives and returns. An empty channel blocks while it is open; when it is closed it gives a nil error.
-/
def receive (call : FairCall ε) : Option (FairCall ε) :=
  if call.returned.isSome then none
  else match call.buffer with
    | some result => some { call with buffer := none, returned := some result }
    | none => if call.shut then some { call with returned := some (.own none) } else none

end FairCall

/-- Where the worker's loop stands. -/
inductive FairWorker (ε : Type) where
  /-- about to take the lock at the head of the loop -/
  | ready
  /-- in `cond.Wait` -/
  | waiting
  | running (task : FairTask)
  /-- the work has returned, the peer is still pending -/
  | finished (task : FairTask) (outcome : Option ε)
  | released (task : FairTask) (outcome : Option ε)
  | sent (task : FairTask)
  | stopped

namespace FairWorker

def wake : FairWorker ε → FairWorker ε
  | .waiting => .ready
  | worker => worker

def current : FairWorker ε → List FairTask
  | .running task | .finished task _ | .released task _ | .sent task => [task]
  | _ => []

def holding : FairWorker ε → List FairTask
  | .running task | .finished task _ => [task]
  | _ => []

end FairWorker

/-! ### The verifier -/

/-- The verifier, the parties around it and what has happened so far. -/
structure FairVerifier (ε : Type) where
  queue : List FairTask := []
  pending : Finset String := ∅
  closed : Bool := false
  worker : FairWorker ε := .ready
  /-- what `Close` has still to answer -/
  closing : List FairTask := []
  /-- the first of them has its error, its channel is still open -/
  closingSent : Bool := false
  calls : Nat → FairCall ε := fun _ => {}
  next : Nat := 0
  -- history: the tasks in the order in which each thing happened to them
  accepted : List FairTask := []
  started : List FairTask := []
  completed : List FairTask := []
  abandoned : List FairTask := []
  answered : List FairTask := []

inductive FairEvent (ε : Type) where
  /-- `Run`, up to the wait for the result; the flag says whether there is work -/
  | run (peerID : String) (work : Bool)
  | receive (id : Nat)
  | close
  | answer
  | answerShut
  | park
  | stop
  | take
  | finish (outcome : Option ε)
  | release
  | send
  | shut

namespace FairVerifier

def setCall (v : FairVerifier ε) (id : Nat) (call : FairCall ε) : FairVerifier ε :=
  { v with calls := Function.update v.calls id call }

def reject (v : FairVerifier ε) (result : FairResult ε) : FairVerifier ε :=
  { v.setCall v.next { returned := some result } with next := v.next + 1 }

def accept (v : FairVerifier ε) (peerID : String) : FairVerifier ε :=
  let task := ⟨v.next, peerID⟩
  { v with
    pending := insert peerID v.pending
    queue := v.queue ++ [task]
    worker := v.worker.wake
    next := v.next + 1
    accepted := v.accepted ++ [task] }

def run (v : FairVerifier ε) (peerID : String) (work : Bool) : FairVerifier ε :=
  if peerID = "" ∨ work = false then v.reject .invalidTask
  else if v.closed then v.reject .closed
  else if peerID ∈ v.pending then v.reject .peerPending
  else v.accept peerID

/-- What `Close` does under the lock. -/
def shutDown (v : FairVerifier ε) : FairVerifier ε :=
  { v with
    closed := true
    closing := v.queue
    queue := []
    pending := v.pending \ (v.queue.map (·.peerID)).toFinset
    worker := v.worker.wake
    abandoned := v.queue }

def close (v : FairVerifier ε) : FairVerifier ε :=
  if v.closed then v else v.shutDown

def take (v : FairVerifier ε) (task : FairTask) (rest : List FairTask) : FairVerifier ε :=
  { v with worker := .running task, queue := rest, started := v.started ++ [task] }

def finish (v : FairVerifier ε) (task : FairTask) (outcome : Option ε) : FairVerifier ε :=
  { v.setCall task.id { v.calls task.id with outcome := some outcome } with worker := .finished task outcome }

def release (v : FairVerifier ε) (task : FairTask) (outcome : Option ε) : FairVerifier ε :=
  { v with worker := .released task outcome, pending := v.pending.erase task.peerID }

def sent (v : FairVerifier ε) (task : FairTask) (call : FairCall ε) : FairVerifier ε :=
  { v.setCall task.id call with worker := .sent task }

def complete (v : FairVerifier ε) (task : FairTask) (call : FairCall ε) : FairVerifier ε :=
  { v.setCall task.id call with worker := .ready, completed := v.completed ++ [task] }

def answerSent (v : FairVerifier ε) (task : FairTask) (call : FairCall ε) : FairVerifier ε :=
  { v.setCall task.id call with closingSent := true }

def answerDone (v : FairVerifier ε) (task : FairTask) (rest : List FairTask) (call : FairCall ε) : FairVerifier ε :=
  { v.setCall task.id call with closing := rest, closingSent := false, answered := v.answered ++ [task] }

/-- One event; `none` when the party cannot do it now. -/
def step (v : FairVerifier ε) : FairEvent ε → Option (FairVerifier ε)
  | .run peerID work => some (v.run peerID work)
  | .receive id =>
    if id ∈ v.accepted.map (·.id) then (v.calls id).receive.map (v.setCall id) else none
  | .close => some v.close
  | .answer => match v.closing, v.closingSent with
    | task :: _, false => ((v.calls task.id).send .closed).map (v.answerSent task)
    | _, _ => none
  | .answerShut => match v.closing, v.closingSent with
    | task :: rest, true => (v.calls task.id).shutChannel.map (v.answerDone task rest)
    | _, _ => none
  | .park => match v.worker with
    | .ready => if v.queue = [] ∧ v.closed = false then some { v with worker := .waiting } else none
    | _ => none
  | .stop => match v.worker with
    | .ready => if v.closed ∧ v.queue = [] then some { v with worker := .stopped } else none
    | _ => none
  | .take => match v.worker, v.queue with
    | .ready, task :: rest => some (v.take task rest)
    | _, _ => none
  | .finish outcome => match v.worker with
    | .running task => some (v.finish task outcome)
    | _ => none
  | .release => match v.worker with
    | .finished task outcome => some (v.release task outcome)
    | _ => none
  | .send => match v.worker with
    | .released task outcome => ((v.calls task.id).send (.own outcome)).map (v.sent task)
    | _ => none
  | .shut => match v.worker with
    | .sent task => (v.calls task.id).shutChannel.map (v.complete task)
    | _ => none

/-- What an event does, with what the party finds. -/
inductive Move (v : FairVerifier ε) : FairEvent ε → FairVerifier ε → Prop where
  | rejected {peerID work result} (error : ∀ outcome, result ≠ .own outcome) :
      Move v (.run peerID work) (v.reject result)
  | accepted {peerID work} (opened : v.closed = false) (free : peerID ∉ v.pending) :
      Move v (.run peerID work) (v.accept peerID)
  | receive {id call} (accepted : id ∈ v.accepted.map (·.id)) (received : (v.calls id).receive = some call) :
      Move v (.receive id) (v.setCall id call)
  | closedBefore (closed : v.closed = true) : Move v .close v
  | close (opened : v.closed = false) : Move v .close v.shutDown
  | answer {task rest call} (first : v.closing = task :: rest) (unsent : v.closingSent = false)
      (sent : (v.calls task.id).send .closed = some call) : Move v .answer (v.answerSent task call)
  | answerShut {task rest call} (first : v.closing = task :: rest) (sent : v.closingSent = true)
      (shut : (v.calls task.id).shutChannel = some call) : Move v .answerShut (v.answerDone task rest call)
  | park (ready : v.worker = .ready) (empty : v.queue = []) (opened : v.closed = false) :
      Move v .park { v with worker := .waiting }
  | stop (ready : v.worker = .ready) (closed : v.closed = true) : Move v .stop { v with worker := .stopped }
  | take {task rest} (ready : v.worker = .ready) (first : v.queue = task :: rest) : Move v .take (v.take task rest)
  | finish {task outcome} (running : v.worker = .running task) : Move v (.finish outcome) (v.finish task outcome)
  | release {task outcome} (finished : v.worker = .finished task outcome) : Move v .release (v.release task outcome)
  | send {task outcome call} (released : v.worker = .released task outcome)
      (sent : (v.calls task.id).send (.own outcome) = some call) : Move v .send (v.sent task call)
  | shut {task call} (sent : v.worker = .sent task) (shut : (v.calls task.id).shutChannel = some call) :
      Move v .shut (v.complete task call)

theorem run_move (v : FairVerifier ε) (peerID : String) (work : Bool) :
    v.Move (.run peerID work) (v.run peerID work) := by
  rw [run]
  split
  · exact .rejected (by simp)
  split
  · exact .rejected (by simp)
  rename_i opened
  split
  · exact .rejected (by simp)
  · rename_i free
    exact .accepted (by simpa using opened) free

theorem close_move (v : FairVerifier ε) : v.Move .close v.close := by
  rw [close]
  split
  · rename_i closed
    exact .closedBefore closed
  · rename_i opened
    exact .close (by simpa using opened)

theorem step_move {v v' : FairVerifier ε} {event : FairEvent ε} (h : v.step event = some v') : v.Move event v' := by
  cases event <;> simp only [step] at h
  case run peerID work =>
    cases h
    exact v.run_move peerID work
  case close =>
    cases h
    exact v.close_move
  case receive id =>
    split at h
    · rename_i accepted
      obtain ⟨call, received, rfl⟩ := Option.map_eq_some_iff.mp h
      exact .receive accepted received
    · cases h
  case answer =>
    split at h
    · rename_i first unsent
      obtain ⟨call, sent, rfl⟩ := Option.map_eq_some_iff.mp h
      exact .answer first unsent sent
    · cases h
  case answerShut =>
    split at h
    · rename_i first sent
      obtain ⟨call, shut, rfl⟩ := Option.map_eq_some_iff.mp h
      exact .answerShut first sent shut
    · cases h
  case park =>
    split at h
    · rename_i ready
      obtain ⟨⟨empty, opened⟩, eq⟩ := Option.ite_none_right_eq_some.mp h
      cases eq
      exact .park ready empty opened
    · cases h
  case stop =>
    split at h
    · rename_i ready
      obtain ⟨⟨closed, _⟩, eq⟩ := Option.ite_none_right_eq_some.mp h
      cases eq
      exact .stop ready closed
    · cases h
  case take =>
    split at h
    · rename_i ready first
      cases h
      exact .take ready first
    · cases h
  case finish outcome =>
    split at h
    · rename_i running
      cases h
      exact .finish running
    · cases h
  case release =>
    split at h
    · rename_i finished
      cases h
      exact .release finished
    · cases h
  case send =>
    split at h
    · rename_i released
      obtain ⟨call, sent, rfl⟩ := Option.map_eq_some_iff.mp h
      exact .send released sent
    · cases h
  case shut =>
    split at h
    · rename_i sent
      obtain ⟨call, shut, rfl⟩ := Option.map_eq_some_iff.mp h
      exact .shut sent shut
    · cases h

/-- The states of every interleaving. -/
inductive Reachable : FairVerifier ε → Prop where
  | start : Reachable {}
  | next {v v' : FairVerifier ε} {event : FairEvent ε} : Reachable v → v.step event = some v' → Reachable v'

/-- The states that can follow a state. -/
inductive Leads (v : FairVerifier ε) : FairVerifier ε → Prop where
  | refl : Leads v v
  | next {w w' : FairVerifier ε} {event : FairEvent ε} : Leads v w → w.step event = some w' → Leads v w'

/-! ### The order of the tasks -/

/-- Where each accepted task is: a task is taken or abandoned in the order in which it came. -/
structure Ordered (v : FairVerifier ε) : Prop where
  accepted : v.accepted = v.started ++ (v.abandoned ++ v.queue)
  started : v.started = v.completed ++ v.worker.current
  abandoned : v.abandoned = v.answered ++ v.closing
  increasing : v.accepted.Pairwise (·.id < ·.id)
  below : ∀ task ∈ v.accepted, task.id < v.next
  closedQueue : v.closed = true → v.queue = []
  openRest : v.closed = false → v.abandoned = []
  waiting : v.worker = .waiting → v.queue = [] ∧ v.closed = false
  stopped : v.worker = .stopped → v.closed = true
  closingSent : v.closingSent = true → v.closing ≠ []

@[simp] theorem current_wake (worker : FairWorker ε) : worker.wake.current = worker.current := by
  cases worker <;> rfl

@[simp] theorem holding_wake (worker : FairWorker ε) : worker.wake.holding = worker.holding := by
  cases worker <;> rfl

theorem wake_ne_waiting (worker : FairWorker ε) : worker.wake ≠ .waiting := by
  cases worker <;> simp [FairWorker.wake]

theorem wake_eq_stopped {worker : FairWorker ε} : worker.wake = .stopped ↔ worker = .stopped := by
  cases worker <;> simp [FairWorker.wake]

theorem Ordered.start : ({} : FairVerifier ε).Ordered := by
  constructor <;> simp [FairWorker.current]

theorem Ordered.accept {v : FairVerifier ε} (sound : v.Ordered) (opened : v.closed = false) (peerID : String) :
    (v.accept peerID).Ordered where
  accepted := by simp [FairVerifier.accept, sound.accepted]
  started := by simp [FairVerifier.accept, sound.started]
  abandoned := sound.abandoned
  increasing := by
    simp only [FairVerifier.accept, List.pairwise_append, List.pairwise_singleton, List.mem_singleton]
    refine ⟨sound.increasing, trivial, ?_⟩
    rintro task listed _ rfl
    exact sound.below task listed
  below := by
    intro task listed
    simp only [FairVerifier.accept, List.mem_append, List.mem_singleton] at listed ⊢
    obtain listed | rfl := listed
    · exact Nat.lt_succ_of_lt (sound.below task listed)
    · exact Nat.lt_succ_self _
  closedQueue := by
    intro closed
    rw [show (v.accept peerID).closed = v.closed from rfl, opened] at closed
    cases closed
  openRest := sound.openRest
  waiting := by
    intro waiting
    exact absurd waiting (wake_ne_waiting v.worker)
  stopped := by
    intro stopped
    exact sound.stopped (wake_eq_stopped.mp stopped)
  closingSent := sound.closingSent

theorem Ordered.shutDown {v : FairVerifier ε} (sound : v.Ordered) (opened : v.closed = false) : v.shutDown.Ordered where
  accepted := by simp [FairVerifier.shutDown, sound.accepted, sound.openRest opened]
  started := by simp [FairVerifier.shutDown, sound.started]
  abandoned := by
    have none := sound.abandoned
    rw [sound.openRest opened, eq_comm, List.append_eq_nil_iff] at none
    simp [FairVerifier.shutDown, none.1]
  increasing := sound.increasing
  below := sound.below
  closedQueue := by simp [FairVerifier.shutDown]
  openRest := by simp [FairVerifier.shutDown]
  waiting := by
    intro waiting
    exact absurd waiting (wake_ne_waiting v.worker)
  stopped := by simp [FairVerifier.shutDown]
  closingSent := by
    intro sent
    have none := sound.abandoned
    rw [sound.openRest opened, eq_comm, List.append_eq_nil_iff] at none
    exact absurd none.2 (sound.closingSent sent)

theorem Ordered.take {v : FairVerifier ε} (sound : v.Ordered) {task : FairTask} {rest : List FairTask}
    (ready : v.worker = .ready) (first : v.queue = task :: rest) : (v.take task rest).Ordered := by
  -- the queue is not empty, so nothing has been abandoned
  have opened : v.closed = false := by
    by_contra closed
    simp [sound.closedQueue (by simpa using closed)] at first
  have none := sound.openRest opened
  constructor <;> simp only [FairVerifier.take]
  case accepted => simp [sound.accepted, none, first]
  case started => simp [sound.started, ready, FairWorker.current]
  case abandoned => exact sound.abandoned
  case increasing => exact sound.increasing
  case below => exact sound.below
  case closedQueue => simp [opened]
  case openRest => exact sound.openRest
  case waiting => simp
  case stopped => simp
  case closingSent => exact sound.closingSent

theorem Ordered.transport {v v' : FairVerifier ε} (sound : v.Ordered) (queue : v'.queue = v.queue)
    (closed : v'.closed = v.closed) (closing : v'.closing = v.closing) (accepted : v'.accepted = v.accepted)
    (started : v'.started = v.started) (taken : v'.completed ++ v'.worker.current = v.completed ++ v.worker.current)
    (abandoned : v'.abandoned = v.abandoned) (answered : v'.answered = v.answered) (next : v.next ≤ v'.next)
    (waiting : v'.worker = .waiting → v.queue = [] ∧ v.closed = false)
    (stopped : v'.worker = .stopped → v.closed = true)
    (closingSent : v'.closingSent = true → v.closing ≠ []) : v'.Ordered where
  accepted := by rw [accepted, started, abandoned, queue, sound.accepted]
  started := by rw [started, taken, sound.started]
  abandoned := by rw [abandoned, answered, closing, sound.abandoned]
  increasing := accepted ▸ sound.increasing
  below := by
    intro task listed
    exact Nat.lt_of_lt_of_le (sound.below task (accepted ▸ listed)) next
  closedQueue := by rw [queue, closed]; exact sound.closedQueue
  openRest := by rw [abandoned, closed]; exact sound.openRest
  waiting := by rw [queue, closed]; exact waiting
  stopped := by rw [closed]; exact stopped
  closingSent := by rw [closing]; exact closingSent

theorem Ordered.answerDone {v : FairVerifier ε} (sound : v.Ordered) {task : FairTask} {rest : List FairTask}
    {call : FairCall ε} (first : v.closing = task :: rest) : (v.answerDone task rest call).Ordered where
  accepted := sound.accepted
  started := sound.started
  abandoned := by simp [FairVerifier.answerDone, setCall, sound.abandoned, first]
  increasing := sound.increasing
  below := sound.below
  closedQueue := sound.closedQueue
  openRest := sound.openRest
  waiting := sound.waiting
  stopped := sound.stopped
  closingSent := by simp [FairVerifier.answerDone]

theorem Ordered.move {v v' : FairVerifier ε} {event : FairEvent ε} (sound : v.Ordered) (moved : v.Move event v') :
    v'.Ordered := by
  cases moved with
  | accepted opened _ => exact sound.accept opened _
  | close opened => exact sound.shutDown opened
  | closedBefore => exact sound
  | take ready first => exact sound.take ready first
  | answerShut first _ _ => exact sound.answerDone first
  | rejected =>
    exact sound.transport rfl rfl rfl rfl rfl rfl rfl rfl (Nat.le_succ _) sound.waiting sound.stopped sound.closingSent
  | receive =>
    exact sound.transport rfl rfl rfl rfl rfl rfl rfl rfl le_rfl sound.waiting sound.stopped sound.closingSent
  | answer first _ _ =>
    exact sound.transport rfl rfl rfl rfl rfl rfl rfl rfl le_rfl sound.waiting sound.stopped (by simp [first])
  | park ready empty opened =>
    refine sound.transport rfl rfl rfl rfl rfl ?_ rfl rfl le_rfl (fun _ => ⟨empty, opened⟩) (by simp) sound.closingSent
    simp [ready, FairWorker.current]
  | stop ready closed =>
    refine sound.transport rfl rfl rfl rfl rfl ?_ rfl rfl le_rfl (by simp) (fun _ => closed) sound.closingSent
    simp [ready, FairWorker.current]
  | finish running =>
    refine sound.transport rfl rfl rfl rfl rfl ?_ rfl rfl le_rfl ?_ ?_ sound.closingSent <;>
      simp [FairVerifier.finish, setCall, running, FairWorker.current]
  | release finished =>
    refine sound.transport rfl rfl rfl rfl rfl ?_ rfl rfl le_rfl ?_ ?_ sound.closingSent <;>
      simp [FairVerifier.release, finished, FairWorker.current]
  | send released _ =>
    refine sound.transport rfl rfl rfl rfl rfl ?_ rfl rfl le_rfl ?_ ?_ sound.closingSent <;>
      simp [FairVerifier.sent, setCall, released, FairWorker.current]
  | shut sent _ =>
    refine sound.transport rfl rfl rfl rfl rfl ?_ rfl rfl le_rfl ?_ ?_ sound.closingSent <;>
      simp [FairVerifier.complete, setCall, sent, FairWorker.current]

/-! ### One task of each peer -/

def held (v : FairVerifier ε) : List FairTask := v.worker.holding ++ v.queue

/-- The pending peers are those of the tasks held, and each of them has one. -/
structure Exclusive (v : FairVerifier ε) : Prop where
  distinct : (v.held.map (·.peerID)).Nodup
  pending : ∀ peerID, peerID ∈ v.pending ↔ peerID ∈ v.held.map (·.peerID)

theorem Exclusive.start : ({} : FairVerifier ε).Exclusive := by
  constructor <;> simp [held, FairWorker.holding]

theorem Exclusive.transport {v v' : FairVerifier ε} (sound : v.Exclusive) (held : v'.held = v.held)
    (pending : v'.pending = v.pending) : v'.Exclusive where
  distinct := held ▸ sound.distinct
  pending := by rw [held, pending]; exact sound.pending

theorem Exclusive.accept {v : FairVerifier ε} (sound : v.Exclusive) {peerID : String} (free : peerID ∉ v.pending) :
    (v.accept peerID).Exclusive := by
  have grown : (v.accept peerID).held = v.held ++ [⟨v.next, peerID⟩] := by simp [held, FairVerifier.accept]
  constructor
  · rw [grown, List.map_append, List.map_singleton, List.nodup_append_comm, List.singleton_append, List.nodup_cons]
    exact ⟨mt (sound.pending peerID).mpr free, sound.distinct⟩
  · intro other
    rw [grown, show (v.accept peerID).pending = insert peerID v.pending from rfl, Finset.mem_insert, sound.pending]
    simp [or_comm]

theorem Exclusive.shutDown {v : FairVerifier ε} (sound : v.Exclusive) : v.shutDown.Exclusive := by
  have left : v.shutDown.held = v.worker.holding := by simp [held, FairVerifier.shutDown]
  have distinct := sound.distinct
  rw [held, List.map_append, List.nodup_append'] at distinct
  obtain ⟨one, _, apart⟩ := distinct
  constructor
  · rw [left]; exact one
  · intro peerID
    rw [left]
    simp only [FairVerifier.shutDown, Finset.mem_sdiff, List.mem_toFinset, sound.pending, held, List.map_append,
      List.mem_append]
    constructor
    · rintro ⟨kept | queued, free⟩
      · exact kept
      · exact absurd queued free
    · intro kept
      exact ⟨.inl kept, fun queued => apart kept queued⟩

theorem Exclusive.release {v : FairVerifier ε} (sound : v.Exclusive) {task : FairTask} {outcome : Option ε}
    (finished : v.worker = .finished task outcome) : (v.release task outcome).Exclusive := by
  have before : v.held = task :: v.queue := by simp [held, finished, FairWorker.holding]
  have after : (v.release task outcome).held = v.queue := by simp [held, FairVerifier.release, FairWorker.holding]
  have distinct := sound.distinct
  rw [before, List.map_cons, List.nodup_cons] at distinct
  constructor
  · rw [after]; exact distinct.2
  · intro peerID
    rw [after]
    simp only [FairVerifier.release, Finset.mem_erase, sound.pending, before, List.map_cons, List.mem_cons]
    constructor
    · rintro ⟨other, rfl | queued⟩
      · exact absurd rfl other
      · exact queued
    · intro queued
      exact ⟨fun same => distinct.1 (same ▸ queued), .inr queued⟩

theorem Exclusive.move {v v' : FairVerifier ε} {event : FairEvent ε} (sound : v.Exclusive) (moved : v.Move event v') :
    v'.Exclusive := by
  cases moved with
  | accepted _ free => exact sound.accept free
  | close => exact sound.shutDown
  | release finished => exact sound.release finished
  | closedBefore => exact sound
  | rejected | receive | answer | answerShut => exact sound.transport rfl rfl
  | take ready first =>
    exact sound.transport (by simp [held, FairVerifier.take, ready, first, FairWorker.holding]) rfl
  | park ready | stop ready => exact sound.transport (by simp [held, ready, FairWorker.holding]) rfl
  | finish running =>
    exact sound.transport (by simp [held, FairVerifier.finish, setCall, running, FairWorker.holding]) rfl
  | send released =>
    exact sound.transport (by simp [held, FairVerifier.sent, setCall, released, FairWorker.holding]) rfl
  | shut sent =>
    exact sound.transport (by simp [held, FairVerifier.complete, setCall, sent, FairWorker.holding]) rfl

end FairVerifier

end RabbitLqc
