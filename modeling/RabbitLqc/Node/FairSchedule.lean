import RabbitLqc.Lib.Liveness
import RabbitLqc.Node.FairChannels

/-!
# Schedules of the fair verifier

What the callers, the worker and `Close` do together, over every interleaving and every fair execution.
-/

namespace RabbitLqc
open Lib

variable {ε : Type}

namespace FairVerifier

variable {v v' w : FairVerifier ε} {task : FairTask} {call call' : FairCall ε} {event : FairEvent ε}

/-! ### Whose turn it is -/

inductive FairActor where
  | worker
  | closer
  | caller (id : Nat)
  deriving DecidableEq

/-- New calls and the call of `Close` come from outside. -/
def actor : FairEvent ε → Option FairActor
  | .run _ _ | .close => none
  | .receive id => some (.caller id)
  | .answer | .answerShut => some .closer
  | .park | .stop | .take | .finish _ | .release | .send | .shut => some .worker

def weight : FairWorker ε → Nat
  | .running _ => 4
  | .finished _ _ => 3
  | .released _ _ => 2
  | .sent _ => 1
  | .ready | .waiting | .stopped => 0

def rank (task : FairTask) (v : FairVerifier ε) : Nat :=
  if task ∈ v.worker.current then weight v.worker
  else if task ∈ v.queue then weight v.worker + 5 * v.queue.idxOf task + 5
  else if task ∈ v.closing then 2 * v.closing.idxOf task + 2 - v.closingSent.toNat
  else 1

def responsible (task : FairTask) (v : FairVerifier ε) : FairActor :=
  if rank task v = 1 then .caller task.id else if task ∈ v.closing then .closer else .worker

def Answered (task : FairTask) (v : FairVerifier ε) : Prop := ((v.calls task.id).returned).isSome

def Advance (task : FairTask) (v : FairVerifier ε) (event : FairEvent ε) (v' : FairVerifier ε) : Prop :=
  Execution.Advances actor (Answered task) (rank task) (responsible task) v event v'

theorem Ordered.nodup (sound : v.Ordered) : v.accepted.Nodup :=
  sound.increasing.imp fun earlier same => Nat.ne_of_lt earlier (congrArg FairTask.id same)

theorem Ordered.one_place (sound : v.Ordered) (task : FairTask) :
    (task ∈ v.completed → task ∉ v.worker.current ∧ task ∉ v.closing ∧ task ∉ v.queue) ∧
      (task ∈ v.worker.current → task ∉ v.closing ∧ task ∉ v.queue) ∧
      (task ∈ v.answered → task ∉ v.closing ∧ task ∉ v.queue) ∧ (task ∈ v.closing → task ∉ v.queue) := by
  have nodup := sound.nodup
  simp only [sound.tasks, List.nodup_append', List.disjoint_append_right] at nodup
  obtain ⟨_, ⟨_, ⟨_, ⟨_, _, closing⟩, answered⟩, current⟩, completed⟩ := nodup
  refine ⟨fun h => ⟨?_, ?_, ?_⟩, fun h => ⟨?_, ?_⟩, fun h => ⟨?_, ?_⟩, fun h => ?_⟩
  · exact completed.1 h
  · exact completed.2.2.1 h
  · exact completed.2.2.2 h
  · exact current.2.1 h
  · exact current.2.2 h
  · exact answered.1 h
  · exact answered.2 h
  · exact closing h

@[simp] theorem weight_wake (worker : FairWorker ε) : weight worker.wake = weight worker := by
  cases worker <;> rfl

section Turns

variable {task : FairTask} {v v' : FairVerifier ε}

variable {first : FairTask} {rest : List FairTask}

theorem rank_of_current (current : task ∈ v.worker.current) : rank task v = weight v.worker := if_pos current

theorem rank_of_queue (ordered : v.Ordered) (queued : task ∈ v.queue) :
    rank task v = weight v.worker + 5 * v.queue.idxOf task + 5 := by
  have free : task ∉ v.worker.current := fun current => ((ordered.one_place task).2.1 current).2 queued
  rw [rank, if_neg free, if_pos queued]

theorem rank_of_closing (ordered : v.Ordered) (closing : task ∈ v.closing) :
    rank task v = 2 * v.closing.idxOf task + 2 - v.closingSent.toNat := by
  have free : task ∉ v.worker.current := fun current => ((ordered.one_place task).2.1 current).1 closing
  rw [rank, if_neg free, if_neg ((ordered.one_place task).2.2.2 closing), if_pos closing]

theorem rank_of_rest (current : task ∉ v.worker.current) (queued : task ∉ v.queue) (closing : task ∉ v.closing) :
    rank task v = 1 := by
  rw [rank, if_neg current, if_neg queued, if_neg closing]

/-- Away from the worker and the queue only what `Close` has left counts. -/
theorem rank_elsewhere (current : task ∉ v.worker.current) (queued : task ∉ v.queue)
    (current' : task ∉ v'.worker.current)
    (queued' : task ∉ v'.queue) (closing : v'.closing = v.closing) (closingSent : v'.closingSent = v.closingSent) :
    rank task v' = rank task v := by
  rw [rank, rank, if_neg current, if_neg queued, if_neg current', if_neg queued', closing, closingSent]

theorem mem_of_worker_turn (turn : responsible task v = .worker) : task ∈ v.worker.current ∨ task ∈ v.queue := by
  rw [responsible] at turn
  split at turn
  · cases turn
  split at turn
  · cases turn
  rename_i more closing
  by_contra neither
  rw [not_or] at neither
  exact more (rank_of_rest neither.1 neither.2 closing)

theorem mem_of_closer_turn (turn : responsible task v = .closer) : task ∈ v.closing := by
  rw [responsible] at turn
  split at turn
  · cases turn
  split at turn
  · assumption
  · cases turn

theorem responsible_eq (rank' : rank task v' = rank task v) (closing : task ∈ v'.closing ↔ task ∈ v.closing) :
    responsible task v' = responsible task v := by
  simp only [responsible, rank', closing]

theorem advances_of_same (rank' : rank task v' = rank task v) (closing : task ∈ v'.closing ↔ task ∈ v.closing)
    (other : actor event ≠ some (responsible task v)) : Advance task v event v' :=
  .inr (.inr ⟨rank', responsible_eq rank' closing, other⟩)

theorem advances_of_work (ordered : v.Ordered) (ordered' : v'.Ordered) (its : actor event = some .worker)
    (current : v'.worker.current = v.worker.current) (lower : weight v'.worker < weight v.worker)
    (queue : v'.queue = v.queue) (closing : v'.closing = v.closing) (closingSent : v'.closingSent = v.closingSent) :
    Advance task v event v' := by
  by_cases mine : task ∈ v.worker.current
  · refine .inr (.inl ?_)
    rw [rank_of_current mine, rank_of_current (current ▸ mine)]
    exact lower
  by_cases queued : task ∈ v.queue
  · refine .inr (.inl ?_)
    rw [rank_of_queue ordered queued, rank_of_queue ordered' (queue ▸ queued), queue]
    omega
  refine advances_of_same ?_ (by rw [closing]) ?_
  · exact rank_elsewhere mine queued (current ▸ mine) (queue ▸ queued) closing closingSent
  · rw [its]
    intro turn
    exact (mem_of_worker_turn (Option.some.inj turn).symm).elim mine queued

theorem advances_of_idle {worker : FairWorker ε} (its : actor event = some .worker) (ready : v.worker = .ready)
    (idle : worker.current = []) (empty : v.queue = []) : Advance task v event { v with worker := worker } := by
  have before : v.worker.current = [] := by rw [ready]; rfl
  refine advances_of_same ?_ Iff.rfl ?_
  · simp [rank, before, idle, empty]
  · rw [its]
    intro turn
    have place := mem_of_worker_turn (Option.some.inj turn).symm
    simp [before, empty] at place

theorem advances_accept {peerID : String} {work : Bool} (ordered : v.Ordered) (listed : task ∈ v.accepted) :
    Advance task v (.run peerID work) (v.accept peerID) := by
  have old : task ≠ ⟨v.next, peerID⟩ := by
    rintro rfl
    exact Nat.lt_irrefl _ (ordered.below _ listed)
  refine advances_of_same ?_ Iff.rfl (by simp [actor])
  by_cases queued : task ∈ v.queue
  · simp [rank, FairVerifier.accept, queued, List.idxOf_append_of_mem]
  have queued' : task ∉ (v.accept peerID).queue := by simp [FairVerifier.accept, queued, old]
  have same : (v.accept peerID).worker.current = v.worker.current := current_wake v.worker
  by_cases current : task ∈ v.worker.current
  · rw [rank_of_current current, rank_of_current (same ▸ current)]
    exact weight_wake v.worker
  · exact rank_elsewhere current queued (same ▸ current) queued' rfl rfl

theorem advances_shutDown (ordered : v.Ordered) (opened : v.closed = false) :
    Advance task v .close v.shutDown := by
  have none := ordered.abandoned
  rw [ordered.openRest opened, eq_comm, List.append_eq_nil_iff] at none
  by_cases queued : task ∈ v.queue
  · refine .inr (.inl ?_)
    have closing : task ∈ v.shutDown.closing := queued
    rw [rank_of_queue ordered queued, rank_of_closing (ordered.shutDown opened) closing]
    show 2 * v.queue.idxOf task + 2 - _ < _
    omega
  · refine advances_of_same ?_ (by simp [FairVerifier.shutDown, queued, none.2]) (by simp [actor])
    simp [rank, FairVerifier.shutDown, queued, none.2]

theorem advances_take (ordered : v.Ordered) (ready : v.worker = .ready) (head : v.queue = first :: rest) :
    Advance task v .take (v.take first rest) := by
  have idle : v.worker.current = [] := by rw [ready]; rfl
  have zero : weight v.worker = 0 := by rw [ready]; rfl
  by_cases queued : task ∈ v.queue
  · refine .inr (.inl ?_)
    rw [rank_of_queue ordered queued, zero, head]
    by_cases same : task = first
    · rw [rank_of_current (by simp [FairVerifier.take, FairWorker.current, same])]
      simp [FairVerifier.take, weight, same]
    · have later : task ∈ rest := by simpa [head, same] using queued
      rw [rank_of_queue (ordered.take ready head) later, List.idxOf_cons_ne _ (Ne.symm same)]
      show 4 + 5 * rest.idxOf task + 5 < _
      omega
  · have other : task ≠ first ∧ task ∉ rest := by simpa [head] using queued
    refine advances_of_same ?_ Iff.rfl ?_
    · exact rank_elsewhere (by simp [idle]) queued
        (by simp [FairVerifier.take, FairWorker.current, other.1]) other.2 rfl rfl
    · intro turn
      have place := mem_of_worker_turn (Option.some.inj turn).symm
      simp [idle, queued] at place

theorem advances_answerSent (ordered : v.Ordered) (head : v.closing = first :: rest) (unsent : v.closingSent = false) :
    Advance task v .answer (v.answerSent first call) := by
  have ordered' : (v.answerSent first call).Ordered :=
    ordered.transport rfl rfl rfl rfl rfl rfl rfl rfl le_rfl ordered.waiting ordered.stopped (by simp [head])
  by_cases closing : task ∈ v.closing
  · refine .inr (.inl ?_)
    rw [rank_of_closing ordered closing, rank_of_closing ordered' closing, unsent]
    show 2 * v.closing.idxOf task + 2 - 1 < 2 * v.closing.idxOf task + 2 - 0
    omega
  · refine advances_of_same ?_ Iff.rfl ?_
    · simp [rank, answerSent, setCall, closing]
    · intro turn
      exact closing (mem_of_closer_turn (Option.some.inj turn).symm)

theorem advances_answerDone (ordered : v.Ordered) (head : v.closing = first :: rest) (sent : v.closingSent = true) :
    Advance task v .answerShut (v.answerDone first rest call) := by
  have ordered' : (v.answerDone first rest call).Ordered := ordered.answerDone head
  by_cases closing : task ∈ v.closing
  · have before := rank_of_closing ordered closing
    have notQueued : task ∉ v.queue := (ordered.one_place task).2.2.2 closing
    have notCurrent : task ∉ v.worker.current := fun current => ((ordered.one_place task).2.1 current).1 closing
    rw [sent, head] at before
    by_cases same : task = first
    · -- its error is in the channel, the rest is up to the caller
      have gone : task ∉ rest := by
        have nodup := ordered.nodup
        simp only [ordered.tasks, head, List.nodup_append', List.nodup_cons] at nodup
        rw [same]
        exact nodup.2.1.2.1.2.1.1.1
      have one : rank task v = 1 := by
        rw [before, same]
        simp
      have one' : rank task (v.answerDone first rest call) = 1 := rank_of_rest notCurrent notQueued gone
      refine .inr (.inr ⟨one'.trans one.symm, ?_, ?_⟩)
      · rw [responsible, responsible, if_pos one, if_pos one']
      · rw [responsible, if_pos one]
        simp [actor]
    · refine .inr (.inl ?_)
      have later : task ∈ rest := by simpa [head, same] using closing
      rw [rank_of_closing ordered' later, before, List.idxOf_cons_ne _ (Ne.symm same)]
      show 2 * rest.idxOf task + 2 - 0 < 2 * (rest.idxOf task + 1) + 2 - 1
      omega
  · have gone : task ∉ rest := fun later => closing (by simp [head, later])
    refine advances_of_same ?_ (by simp [FairVerifier.answerDone, setCall, closing, gone]) ?_
    · simp [rank, FairVerifier.answerDone, setCall, closing, gone]
    · intro turn
      exact closing (mem_of_closer_turn (Option.some.inj turn).symm)

theorem advances_complete {mine : FairTask} (ordered : v.Ordered) (sent : v.worker = .sent mine)
    (ordered' : (v.complete mine call).Ordered) : Advance task v .shut (v.complete mine call) := by
  have current : v.worker.current = [mine] := by rw [sent]; rfl
  have idle : (v.complete mine call).worker.current = [] := rfl
  by_cases queued : task ∈ v.queue
  · refine .inr (.inl ?_)
    have queued' : task ∈ (v.complete mine call).queue := queued
    rw [rank_of_queue ordered queued, rank_of_queue ordered' queued', sent]
    show 0 + 5 * v.queue.idxOf task + 5 < 1 + 5 * v.queue.idxOf task + 5
    omega
  by_cases same : task = mine
  · have place : task ∈ v.worker.current := by simp [current, same]
    have one : rank task v = 1 := by rw [rank_of_current place, sent]; rfl
    have gone : task ∉ v.closing := ((ordered.one_place task).2.1 place).1
    have one' : rank task (v.complete mine call) = 1 := rank_of_rest (by simp [idle]) queued gone
    refine .inr (.inr ⟨one'.trans one.symm, ?_, ?_⟩)
    · rw [responsible, responsible, if_pos one, if_pos one']
    · rw [responsible, if_pos one]
      simp [actor]
  · refine advances_of_same ?_ Iff.rfl ?_
    · exact rank_elsewhere (by simp [current, same]) queued (by simp [idle]) queued rfl rfl
    · intro turn
      have place := mem_of_worker_turn (Option.some.inj turn).symm
      simp [current, same, queued] at place

theorem receive_returned {call' : FairCall ε} (received : call.receive = some call') : call'.returned.isSome := by
  rw [FairCall.receive] at received
  split at received
  · cases received
  split at received
  · cases received
    rfl
  split at received
  · cases received
    rfl
  · cases received

theorem advances_receive {id : Nat} (received : (v.calls id).receive = some call) :
    Advance task v (.receive id) (v.setCall id call) := by
  by_cases mine : task.id = id
  · refine .inl ?_
    rw [Answered, mine, calls_setCall_self]
    exact receive_returned received
  · refine advances_of_same rfl Iff.rfl ?_
    intro turn
    have turn := (Option.some.inj turn).symm
    rw [responsible] at turn
    split at turn
    · exact mine (FairActor.caller.inj turn)
    split at turn <;> cases turn

theorem advances (sound : v.Sound) (listed : task ∈ v.accepted) (moved : v.Move event v') :
    Advance task v event v' := by
  have ordered := sound.ordered
  have ordered' := ordered.move moved
  cases moved with
  | rejected => exact advances_of_same rfl Iff.rfl (by simp [actor])
  | closedBefore => exact advances_of_same rfl Iff.rfl (by simp [actor])
  | accepted => exact advances_accept ordered listed
  | receive _ received => exact advances_receive received
  | close opened => exact advances_shutDown ordered opened
  | answer first unsent => exact advances_answerSent ordered first unsent
  | answerShut first sent => exact advances_answerDone ordered first sent
  | park ready empty => exact advances_of_idle rfl ready rfl empty
  | stop ready closed => exact advances_of_idle rfl ready rfl (ordered.closedQueue closed)
  | take ready first => exact advances_take ordered ready first
  | finish running =>
    exact advances_of_work ordered ordered' rfl (by rw [running]; rfl)
      (by rw [running]; exact Nat.lt_succ_self _) rfl rfl rfl
  | release finished =>
    exact advances_of_work ordered ordered' rfl (by rw [finished]; rfl)
      (by rw [finished]; exact Nat.lt_succ_self _) rfl rfl rfl
  | send released =>
    exact advances_of_work ordered ordered' rfl (by rw [released]; rfl)
      (by rw [released]; exact Nat.lt_succ_self _) rfl rfl rfl
  | shut sent => exact advances_complete ordered sent ordered'

end Turns

/-! ### No party is ever stuck -/

theorem Sound.send_some (sound : v.Sound) {outcome : Option ε} (released : v.worker = .released task outcome) :
    ((v.calls task.id).send (.own outcome)).isSome := by
  have working := sound.channels.working
  rw [released] at working
  rw [show v.calls task.id = { outcome := some outcome } from working]
  rfl

theorem Sound.answer_some (sound : v.Sound) {rest : List FairTask} (first : v.closing = task :: rest)
    (unsent : v.closingSent = false) : ((v.calls task.id).send .closed).isSome := by
  rw [sound.channels.unanswered task (by simp [unanswered, unsent, first])]
  rfl

theorem Sound.worker_enabled (sound : v.Sound) (busy : v.worker.current ≠ [] ∨ v.queue ≠ []) :
    Enabled step actor v .worker := by
  cases worker : v.worker with
  | ready =>
    have queued : v.queue ≠ [] := by simpa [worker, FairWorker.current] using busy
    obtain ⟨task, rest, first⟩ := List.exists_cons_of_ne_nil queued
    exact ⟨.take, rfl, by simp [step, worker, first]⟩
  | waiting => simp [worker, FairWorker.current, sound.ordered.waiting worker] at busy
  | running => exact ⟨.finish none, rfl, by simp [step, worker]⟩
  | finished => exact ⟨.release, rfl, by simp [step, worker]⟩
  | released => exact ⟨.send, rfl, by simpa [step, worker] using sound.send_some worker⟩
  | sent task =>
    have working := sound.channels.working
    rw [worker] at working
    exact ⟨.shut, rfl, by simp [step, worker, FairCall.shutChannel, working.2]⟩
  | stopped => simp [worker, FairWorker.current, sound.ordered.closedQueue (sound.ordered.stopped worker)] at busy

theorem Sound.closer_enabled (sound : v.Sound) (closing : task ∈ v.closing) : Enabled step actor v .closer := by
  obtain ⟨first, rest, head⟩ := List.exists_cons_of_ne_nil (List.ne_nil_of_mem closing)
  cases sent : v.closingSent with
  | false => exact ⟨.answer, rfl, by simpa [step, head, sent] using sound.answer_some head sent⟩
  | true =>
    have opened := (sound.channels.answering sent first rest head).2
    exact ⟨.answerShut, rfl, by simp [step, head, sent, FairCall.shutChannel, opened]⟩

theorem Sound.delivered_started (sound : v.Sound) (started : task ∈ v.started) :
    (∃ outcome, Ran (v.calls task.id) outcome) ∨
      (task ∈ v.worker.current ∧ weight v.worker ≠ 1 ∧ (v.calls task.id).returned = none) := by
  rw [sound.ordered.started, List.mem_append] at started
  obtain done | current := started
  · exact .inl (sound.channels.completed task done)
  have working := sound.channels.working
  cases worker : v.worker <;> simp only [worker, FairWorker.current, List.mem_singleton,
    List.not_mem_nil] at current <;>
    subst current <;> rw [worker] at working <;> simp only [Working] at working
  case sent => exact .inl working.1
  all_goals exact .inr ⟨by simp [FairWorker.current], by simp [weight], by rw [working]⟩

theorem Sound.delivered_abandoned (sound : v.Sound) (abandoned : task ∈ v.abandoned) :
    Delivered (v.calls task.id) .closed ∨
      (task ∈ v.closing ∧ 2 * v.closing.idxOf task + 2 - v.closingSent.toNat ≠ 1 ∧
        (v.calls task.id).returned = none) := by
  rw [sound.ordered.abandoned, List.mem_append] at abandoned
  obtain done | closing := abandoned
  · exact .inl (sound.channels.answered task done)
  obtain ⟨first, rest, head⟩ := List.exists_cons_of_ne_nil (List.ne_nil_of_mem closing)
  cases sent : v.closingSent with
  | false =>
    rw [sound.channels.unanswered task (by simpa [unanswered, sent] using closing)]
    exact .inr ⟨closing, by simp, rfl⟩
  | true =>
    by_cases same : task = first
    · rw [same]
      exact .inl (sound.channels.answering sent first rest head).1
    · have later : task ∈ rest := by simpa [head, same] using closing
      rw [sound.channels.unanswered task (by simpa [unanswered, sent, head] using later)]
      refine .inr ⟨closing, ?_, rfl⟩
      rw [head, List.idxOf_cons_ne _ (Ne.symm same)]
      simp only [Bool.toNat_true]
      omega

theorem Sound.delivered_of_rank_one (sound : v.Sound) (listed : task ∈ v.accepted) (one : rank task v = 1) :
    ∃ result, Delivered (v.calls task.id) result := by
  rw [sound.ordered.accepted, List.mem_append, List.mem_append] at listed
  obtain started | abandoned | queued := listed
  · obtain ⟨outcome, ran⟩ | ⟨current, more, _⟩ := sound.delivered_started started
    · exact ⟨_, ran.2⟩
    · exact absurd (rank_of_current current ▸ one) more
  · obtain delivered | ⟨closing, more, _⟩ := sound.delivered_abandoned abandoned
    · exact ⟨_, delivered⟩
    · exact absurd (rank_of_closing sound.ordered closing ▸ one) more
  · rw [rank_of_queue sound.ordered queued] at one
    omega

theorem Sound.enabled (sound : v.Sound) (listed : task ∈ v.accepted) (waits : ¬ Answered task v) :
    Enabled step actor v (responsible task v) := by
  cases turn : responsible task v with
  | worker =>
    refine sound.worker_enabled ?_
    exact (mem_of_worker_turn turn).imp List.ne_nil_of_mem List.ne_nil_of_mem
  | closer => exact sound.closer_enabled (mem_of_closer_turn turn)
  | caller id =>
    have one : rank task v = 1 := by
      by_contra more
      rw [responsible, if_neg more] at turn
      split at turn <;> cases turn
    rw [responsible, if_pos one] at turn
    obtain rfl := FairActor.caller.inj turn
    have open' : (v.calls task.id).returned = none := by simpa [Answered] using waits
    obtain ⟨result, ⟨full, _⟩ | ⟨_, gone⟩⟩ := sound.delivered_of_rank_one listed one
    · refine ⟨.receive task.id, rfl, ?_⟩
      simp [step, List.mem_map_of_mem listed, FairCall.receive, open', full]
    · rw [open'] at gone
      cases gone

/-! ### What does not change any more -/

theorem send_returned {result : FairResult ε} (sent : call.send result = some call') :
    call'.returned = call.returned := by
  rw [FairCall.send, Option.ite_none_right_eq_some] at sent
  obtain ⟨_, eq⟩ := sent
  cases eq
  rfl

theorem receive_waited (received : call.receive = some call') : call.returned = none := by
  by_contra gone
  rw [FairCall.receive, if_pos (Option.isSome_iff_ne_none.mpr gone)] at received
  cases received

theorem Sound.returned_move (sound : v.Sound) (moved : v.Move event v') {id : Nat} {result : FairResult ε}
    (returned : (v.calls id).returned = some result) : (v'.calls id).returned = some result := by
  -- a step that changes one call, and not what its caller left with
  have update : ∀ {other : Nat} {call : FairCall ε}, call.returned = (v.calls other).returned →
      ((v.setCall other call).calls id).returned = some result := by
    intro other call same
    by_cases at' : id = other
    · rw [at', calls_setCall_self, same, ← at', returned]
    · rw [calls_setCall_of_ne at', returned]
  cases moved with
  | accepted | closedBefore | close | park | stop | take | release => exact returned
  | rejected =>
    have old : id ≠ v.next := by
      rintro rfl
      rw [sound.channels.fresh v.next le_rfl] at returned
      cases returned
    exact (congrArg FairCall.returned (calls_setCall_of_ne old)).trans returned
  | @receive other call _ received =>
    have apart : id ≠ other := by
      rintro rfl
      rw [receive_waited received] at returned
      cases returned
    rw [calls_setCall_of_ne apart, returned]
  | finish => exact update rfl
  | answer _ _ sent => exact update (send_returned sent)
  | send _ sent => exact update (send_returned sent)
  | answerShut _ _ shut => exact update (by rw [shutChannel_some shut])
  | shut _ shut => exact update (by rw [shutChannel_some shut])

theorem accepted_move (moved : v.Move event v') (listed : task ∈ v.accepted) : task ∈ v'.accepted := by
  cases moved with
  | accepted => simp [accept, listed]
  | _ => exact listed

theorem started_move (moved : v.Move event v') (started : task ∈ v.started) : task ∈ v'.started := by
  cases moved with
  | take => simp [take, started]
  | _ => exact started

theorem closed_move (moved : v.Move event v') (closed : v.closed = true) :
    v'.closed = true ∧ v'.abandoned = v.abandoned := by
  cases moved with
  | close opened =>
    rw [closed] at opened
    cases opened
  | _ => exact ⟨closed, rfl⟩

theorem Leads.after_close (leads : Leads v w) (closed : v.closed = true) :
    w.closed = true ∧ w.abandoned = v.abandoned ∧ ∀ task ∈ v.started, task ∈ w.started := by
  induction leads with
  | refl => exact ⟨closed, rfl, fun _ started => started⟩
  | next _ stepped ih =>
    have moved := step_move stepped
    obtain ⟨closed', abandoned⟩ := closed_move moved ih.1
    exact ⟨closed', abandoned.trans ih.2.1, fun task started => started_move moved (ih.2.2 task started)⟩

theorem Leads.reachable (leads : Leads v w) (reachable : v.Reachable) : w.Reachable := by
  induction leads with
  | refl => exact reachable
  | next _ stepped ih => exact .next ih stepped

/-! ### What a caller gets -/

theorem Sound.result_started (sound : v.Sound) (started : task ∈ v.started) {result : FairResult ε}
    (returned : (v.calls task.id).returned = some result) :
    ∃ outcome, (v.calls task.id).outcome = some outcome ∧ result = .own outcome := by
  obtain ⟨outcome, ran, ⟨_, waits⟩ | ⟨_, gone⟩⟩ | ⟨_, _, waits⟩ := sound.delivered_started started
  · rw [waits] at returned
    cases returned
  · exact ⟨outcome, ran, Option.some.inj (returned.symm.trans gone)⟩
  · rw [waits] at returned
    cases returned

theorem Sound.result_abandoned (sound : v.Sound) (abandoned : task ∈ v.abandoned) {result : FairResult ε}
    (returned : (v.calls task.id).returned = some result) : result = .closed := by
  obtain (⟨_, waits⟩ | ⟨_, gone⟩) | ⟨_, _, waits⟩ := sound.delivered_abandoned abandoned
  · rw [waits] at returned
    cases returned
  · exact Option.some.inj (returned.symm.trans gone)
  · rw [waits] at returned
    cases returned

theorem Sound.result (sound : v.Sound) (listed : task ∈ v.accepted) {result : FairResult ε}
    (returned : (v.calls task.id).returned = some result) :
    (task ∈ v.started ∧ ∃ outcome, (v.calls task.id).outcome = some outcome ∧ result = .own outcome) ∨
      (task ∈ v.abandoned ∧ result = .closed) := by
  rw [sound.ordered.accepted, List.mem_append, List.mem_append] at listed
  obtain started | abandoned | queued := listed
  · exact .inl ⟨started, sound.result_started started returned⟩
  · exact .inr ⟨abandoned, sound.result_abandoned abandoned returned⟩
  · rw [sound.channels.queued task queued] at returned
    cases returned

theorem eventually_answered (x : Execution (@step ε)) (start : (x.state 0).Sound) (fair : x.Fair actor) (i : Nat)
    (listed : task ∈ (x.state i).accepted) : ∃ j, i ≤ j ∧ Answered task (x.state j) := by
  have sound := x.invariant start fun _ _ _ before stepped => before.move (step_move stepped)
  let Waiting (v : FairVerifier ε) : Prop := v.Sound ∧ task ∈ v.accepted
  have kept := @Execution.invariant _ _ _ x Waiting i ⟨sound i (Nat.zero_le i), listed⟩
    fun _ _ _ before stepped => ⟨before.1.move (step_move stepped), accepted_move (step_move stepped) before.2⟩
  refine @Execution.eventually _ _ _ _ actor Waiting (Answered task) (rank task) (responsible task) x fair ?_ ?_ i kept
  · intro v before waits
    exact before.1.enabled before.2 waits
  · intro v event v' before _ stepped
    exact advances before.1 before.2 (step_move stepped)

theorem run_closed (closed : v.closed = true) {peerID : String} (named : peerID ≠ "") :
    ((v.run peerID true).calls v.next).returned = some .closed := by
  rw [run, if_neg (by simp [named]), if_pos closed]
  exact congrArg FairCall.returned (calls_setCall_self v v.next _)

end FairVerifier

open FairVerifier in
/-- The fair verifier over every interleaving of its callers, its worker and `Close`: tasks start in the order of their
acceptance, none twice; a peer has at most one task queued or running; a caller leaves once, with the result of its own
work or, if its task was still queued when the verifier was closed, with the closed error; the sends find their channels
open and empty. After `Close`, a call with a peer and a task gets the closed error. In a fair execution every accepted
call returns. -/
theorem fair_verifier_schedule {ε : Type} :
    (∀ v : FairVerifier ε, v.Reachable →
      (v.started <+: v.accepted ∧ v.accepted.Nodup) ∧
      (v.held.map (·.peerID)).Nodup ∧
      (∀ task ∈ v.accepted, ∀ result, (v.calls task.id).returned = some result →
        (task ∈ v.started ∧ ∃ outcome, (v.calls task.id).outcome = some outcome ∧ result = .own outcome) ∨
          (task ∈ v.abandoned ∧ result = .closed)) ∧
      (∀ id < v.next, id ∉ v.accepted.map (·.id) → (v.calls id).returned.isSome) ∧
      (∀ event v', v.step event = some v' → ∀ id result, (v.calls id).returned = some result →
        (v'.calls id).returned = some result) ∧
      (∀ task outcome, v.worker = .released task outcome → ((v.calls task.id).send (.own outcome)).isSome) ∧
      (∀ task rest, v.closing = task :: rest → v.closingSent = false → ((v.calls task.id).send .closed).isSome)) ∧
    (∀ v w : FairVerifier ε, v.Reachable → v.closed = false → Leads v.close w →
      (∀ task ∈ v.worker.holding, ∀ result, (w.calls task.id).returned = some result →
        ∃ outcome, (w.calls task.id).outcome = some outcome ∧ result = .own outcome) ∧
      (∀ task ∈ v.queue, ∀ result, (w.calls task.id).returned = some result → result = .closed) ∧
      (∀ peerID, peerID ≠ "" → ((w.run peerID true).calls w.next).returned = some .closed)) ∧
    (∀ x : Execution (@step ε), x.state 0 = {} → x.Fair actor → ∀ i, ∀ task ∈ (x.state i).accepted,
      ∃ j, i ≤ j ∧ ((x.state j).calls task.id).returned.isSome) := by
  refine ⟨?_, ?_, ?_⟩
  · intro v reachable
    have sound := reachable.sound
    refine ⟨⟨?_, sound.ordered.nodup⟩, sound.exclusive.distinct, ?_, sound.channels.rejected, ?_, ?_, ?_⟩
    · exact ⟨_, sound.ordered.accepted.symm⟩
    · intro task listed result returned
      exact sound.result listed returned
    · intro event v' stepped id result returned
      exact sound.returned_move (step_move stepped) returned
    · intro task outcome released
      exact sound.send_some released
    · intro task rest first unsent
      exact sound.answer_some first unsent
  · intro v w reachable opened leads
    have shut : v.close = v.shutDown := by rw [close, if_neg (by simp [opened])]
    have after := leads.after_close (by rw [shut]; rfl)
    rw [shut] at after
    obtain ⟨closed, abandoned, started⟩ := after
    have sound := (leads.reachable (.next reachable (show v.step .close = some v.close from rfl))).sound
    refine ⟨?_, ?_, ?_⟩
    · intro task held result returned
      refine sound.result_started (started task ?_) returned
      show task ∈ v.started
      rw [reachable.sound.ordered.started, List.mem_append]
      cases worker : v.worker <;> simp_all [FairWorker.holding, FairWorker.current]
    · intro task queued result returned
      exact sound.result_abandoned (abandoned ▸ queued) returned
    · intro peerID named
      exact run_closed closed named
  · intro x start fair i task listed
    exact eventually_answered x (start ▸ Reachable.start.sound) fair i listed

/-- A call without a peer is refused as invalid even after `Close`: the arguments are looked at first. -/
theorem invalid_call_after_close : ¬ ∀ v : FairVerifier Unit, v.Reachable → v.closed = true → ∀ peerID work,
    ((v.run peerID work).calls v.next).returned = some .closed := by
  intro every
  have answer := every (FairVerifier.close {})
    (.next .start (show FairVerifier.step {} .close = _ from rfl)) rfl "" true
  revert answer
  decide

end RabbitLqc
