import RabbitLqc.Node.FairVerifier

/-!
# The result channels of the fair verifier

Each task has a channel of one place. Where the task stands says what its channel holds, so a send always finds the
place free, and what a caller receives is what was sent for it.
-/

namespace RabbitLqc

variable {ε : Type}

namespace FairVerifier

variable {v v' : FairVerifier ε} {task : FairTask} {rest : List FairTask} {id : Nat} {call call' : FairCall ε}
  {result : FairResult ε} {event : FairEvent ε}

/-- The result was put into the channel, and the caller has it or is about to get it. -/
def Delivered (call : FairCall ε) (result : FairResult ε) : Prop :=
  call.buffer = some result ∧ call.returned = none ∨ call.buffer = none ∧ call.returned = some result

/-- The work returned `outcome`, and that is the result. -/
def Ran (call : FairCall ε) (outcome : Option ε) : Prop :=
  call.outcome = some outcome ∧ Delivered call (.own outcome)

def Working (calls : Nat → FairCall ε) : FairWorker ε → Prop
  | .running task => calls task.id = {}
  | .finished task outcome | .released task outcome => calls task.id = { outcome := some outcome }
  | .sent task => (∃ outcome, Ran (calls task.id) outcome) ∧ (calls task.id).shut = false
  | _ => True

/-- What `Close` has not yet sent. -/
def unanswered (v : FairVerifier ε) : List FairTask := if v.closingSent then v.closing.tail else v.closing

structure Channels (v : FairVerifier ε) : Prop where
  queued : ∀ task ∈ v.queue, v.calls task.id = {}
  working : Working v.calls v.worker
  completed : ∀ task ∈ v.completed, ∃ outcome, Ran (v.calls task.id) outcome
  unanswered : ∀ task ∈ v.unanswered, v.calls task.id = {}
  answering : v.closingSent = true → ∀ task rest, v.closing = task :: rest →
    Delivered (v.calls task.id) .closed ∧ (v.calls task.id).shut = false
  answered : ∀ task ∈ v.answered, Delivered (v.calls task.id) .closed
  fresh : ∀ id, v.next ≤ id → v.calls id = {}
  rejected : ∀ id < v.next, id ∉ v.accepted.map (·.id) → ((v.calls id).returned).isSome

theorem Ordered.tasks (sound : v.Ordered) :
    v.accepted = v.completed ++ (v.worker.current ++ (v.answered ++ (v.closing ++ v.queue))) := by
  simp [sound.accepted, sound.started, sound.abandoned]

theorem Ordered.mem_accepted (sound : v.Ordered) :
    task ∈ v.accepted ↔ task ∈ v.completed ∨ task ∈ v.worker.current ∨ task ∈ v.answered ∨ task ∈ v.closing ∨
      task ∈ v.queue := by
  simp [sound.tasks]

theorem mem_of_unanswered (h : task ∈ v.unanswered) : task ∈ v.closing := by
  rw [unanswered] at h
  split at h
  · exact List.mem_of_mem_tail h
  · exact h

theorem Ordered.apart_current (sound : v.Ordered) (current : v.worker.current = [task]) :
    (∀ other ∈ v.completed, other.id ≠ task.id) ∧ (∀ other ∈ v.answered, other.id ≠ task.id) ∧
      (∀ other ∈ v.closing, other.id ≠ task.id) ∧ ∀ other ∈ v.queue, other.id ≠ task.id := by
  have increasing := sound.increasing
  rw [sound.tasks, current, List.pairwise_append] at increasing
  obtain ⟨_, later, earlier⟩ := increasing
  rw [List.singleton_append, List.pairwise_cons] at later
  refine ⟨?_, ?_, ?_, ?_⟩ <;> intro other listed
  · exact Nat.ne_of_lt (earlier other listed task (by simp))
  all_goals exact Nat.ne_of_gt (later.1 other (by simp [listed]))

/-- The calls of all tasks but the one `Close` is at are other calls. -/
theorem Ordered.apart_closing (sound : v.Ordered) (first : v.closing = task :: rest) :
    (∀ other ∈ v.completed, other.id ≠ task.id) ∧ (∀ other ∈ v.worker.current, other.id ≠ task.id) ∧
      (∀ other ∈ v.answered, other.id ≠ task.id) ∧ (∀ other ∈ rest, other.id ≠ task.id) ∧
      ∀ other ∈ v.queue, other.id ≠ task.id := by
  have increasing := sound.increasing
  rw [sound.tasks, first, ← List.append_assoc, ← List.append_assoc, List.pairwise_append] at increasing
  obtain ⟨_, later, earlier⟩ := increasing
  rw [List.cons_append, List.pairwise_cons] at later
  refine ⟨?_, ?_, ?_, ?_, ?_⟩ <;> intro other listed
  · exact Nat.ne_of_lt (earlier other (by simp [listed]) task (by simp))
  · exact Nat.ne_of_lt (earlier other (by simp [listed]) task (by simp))
  · exact Nat.ne_of_lt (earlier other (by simp [listed]) task (by simp))
  all_goals exact Nat.ne_of_gt (later.1 other (by simp [listed]))

theorem calls_setCall_of_ne {other : Nat} (ne : other ≠ id) :
    (v.setCall id call).calls other = v.calls other := Function.update_of_ne ne _ _

@[simp] theorem calls_setCall_self (v : FairVerifier ε) (id : Nat) (call : FairCall ε) :
    (v.setCall id call).calls id = call := by simp [setCall]

theorem Working.of_current {calls calls' : Nat → FairCall ε} {worker : FairWorker ε} (working : Working calls worker)
    (same : ∀ task ∈ worker.current, calls' task.id = calls task.id) : Working calls' worker := by
  cases worker <;> simp_all [Working, FairWorker.current]

theorem Channels.start : ({} : FairVerifier ε).Channels := by
  constructor <;> simp [Working, FairVerifier.unanswered]

theorem Channels.reject (sound : v.Channels) (ordered : v.Ordered) (result : FairResult ε) :
    (v.reject result).Channels := by
  -- the new call belongs to no task
  have same : ∀ task ∈ v.accepted, (v.reject result).calls task.id = v.calls task.id := by
    intro task listed
    exact calls_setCall_of_ne (Nat.ne_of_lt (ordered.below task listed))
  simp only [ordered.mem_accepted] at same
  constructor
  case queued =>
    intro task queued
    rw [same task (by simp [show task ∈ v.queue from queued])]
    exact sound.queued task queued
  case working =>
    exact sound.working.of_current fun task current => same task (by simp [current])
  case completed =>
    intro task completed
    rw [same task (by simp [show task ∈ v.completed from completed])]
    exact sound.completed task completed
  case unanswered =>
    intro task left
    rw [same task (by simp [show task ∈ v.closing from mem_of_unanswered left])]
    exact sound.unanswered task left
  case answering =>
    intro sent task rest first
    rw [same task (by simp [show v.closing = task :: rest from first])]
    exact sound.answering sent task rest first
  case answered =>
    intro task answered
    rw [same task (by simp [show task ∈ v.answered from answered])]
    exact sound.answered task answered
  case fresh =>
    intro id above
    rw [show (v.reject result).calls id = v.calls id from calls_setCall_of_ne (Nat.ne_of_gt above)]
    exact sound.fresh id (Nat.le_of_succ_le above)
  case rejected =>
    intro id below other
    rcases Nat.lt_succ_iff_lt_or_eq.mp below with before | rfl
    · rw [show (v.reject result).calls id = v.calls id from calls_setCall_of_ne (Nat.ne_of_lt before)]
      exact sound.rejected id before other
    · rw [show (v.reject result).calls v.next = _ from calls_setCall_self v v.next _]
      rfl

theorem Channels.accept (sound : v.Channels) (peerID : String) : (v.accept peerID).Channels := by
  constructor
  case queued =>
    intro task listed
    simp only [FairVerifier.accept, List.mem_append, List.mem_singleton] at listed ⊢
    obtain queued | rfl := listed
    · exact sound.queued task queued
    · exact sound.fresh v.next le_rfl
  case working =>
    have working := sound.working
    simp only [FairVerifier.accept]
    cases worker : v.worker <;> simp_all [FairWorker.wake, Working]
  case completed => exact sound.completed
  case unanswered => exact sound.unanswered
  case answering => exact sound.answering
  case answered => exact sound.answered
  case fresh =>
    intro id above
    exact sound.fresh id (Nat.le_of_succ_le above)
  case rejected =>
    intro id below other
    simp only [FairVerifier.accept, List.map_append, List.map_singleton, List.mem_append, List.mem_singleton,
      not_or] at below other ⊢
    exact sound.rejected id (by omega) other.1

theorem Channels.shutDown (sound : v.Channels) (ordered : v.Ordered) (opened : v.closed = false) :
    v.shutDown.Channels := by
  have none := ordered.abandoned
  rw [ordered.openRest opened, eq_comm, List.append_eq_nil_iff] at none
  have unsent : v.closingSent = false := by
    by_contra sent
    exact ordered.closingSent (by simpa using sent) none.2
  constructor
  case queued => simp [FairVerifier.shutDown]
  case working =>
    have working := sound.working
    simp only [FairVerifier.shutDown]
    cases worker : v.worker <;> simp_all [FairWorker.wake, Working]
  case completed => exact sound.completed
  case unanswered => simpa [FairVerifier.shutDown, FairVerifier.unanswered, unsent] using sound.queued
  case answering => simp [FairVerifier.shutDown, unsent]
  case answered => exact sound.answered
  case fresh => exact sound.fresh
  case rejected => exact sound.rejected

theorem Channels.work (sound : v.Channels) (ordered : v.Ordered) (current : v.worker.current = [task])
    (calls : v'.calls = Function.update v.calls task.id call) (queue : v'.queue = v.queue)
    (closing : v'.closing = v.closing) (closingSent : v'.closingSent = v.closingSent)
    (answered : v'.answered = v.answered) (accepted : v'.accepted = v.accepted) (next : v'.next = v.next)
    (working : Working v'.calls v'.worker)
    (completed : ∀ other ∈ v'.completed, other ∈ v.completed ∨ other = task ∧ ∃ outcome, Ran call outcome) :
    v'.Channels := by
  obtain ⟨apartCompleted, apartAnswered, apartClosing, apartQueue⟩ := ordered.apart_current current
  have same : ∀ {id}, id ≠ task.id → v'.calls id = v.calls id := by
    intro id other
    rw [calls, Function.update_of_ne other]
  have listed : task ∈ v.accepted := by simp [ordered.mem_accepted, current]
  constructor
  case queued =>
    intro other queued
    rw [queue] at queued
    rw [same (apartQueue other queued)]
    exact sound.queued other queued
  case working => exact working
  case completed =>
    intro other done
    obtain before | ⟨rfl, ran⟩ := completed other done
    · rw [same (apartCompleted other before)]
      exact sound.completed other before
    · rw [calls, Function.update_self]
      exact ran
  case unanswered =>
    intro other left
    rw [show v'.unanswered = v.unanswered by rw [FairVerifier.unanswered, closing, closingSent]; rfl] at left
    rw [same (apartClosing other (mem_of_unanswered left))]
    exact sound.unanswered other left
  case answering =>
    intro sent other rest first
    rw [closing] at first
    rw [same (apartClosing other (by simp [first]))]
    exact sound.answering (closingSent ▸ sent) other rest first
  case answered =>
    intro other done
    rw [answered] at done
    rw [same (apartAnswered other done)]
    exact sound.answered other done
  case fresh =>
    intro id above
    rw [next] at above
    rw [same (Nat.ne_of_gt (Nat.lt_of_lt_of_le (ordered.below task listed) above))]
    exact sound.fresh id above
  case rejected =>
    intro id below other
    rw [accepted] at other
    rw [next] at below
    have apart : id ≠ task.id := by
      rintro rfl
      exact other (List.mem_map_of_mem listed)
    rw [same apart]
    exact sound.rejected id below other

/-- So does a step of `Close` on the call of the task it is at. -/
theorem Channels.answerWork (sound : v.Channels) (ordered : v.Ordered) (first : v.closing = task :: rest)
    (calls : v'.calls = Function.update v.calls task.id call) (queue : v'.queue = v.queue)
    (worker : v'.worker = v.worker) (completed : v'.completed = v.completed) (accepted : v'.accepted = v.accepted)
    (next : v'.next = v.next) (unanswered : v'.unanswered = rest) (before : ∀ other ∈ rest, v.calls other.id = {})
    (answering : v'.closingSent = true → v'.closing = task :: rest ∧ Delivered call .closed ∧ call.shut = false)
    (answered : ∀ other ∈ v'.answered, other ∈ v.answered ∨ other = task ∧ Delivered call .closed) : v'.Channels := by
  obtain ⟨apartCompleted, apartCurrent, apartAnswered, apartRest, apartQueue⟩ := ordered.apart_closing first
  have same : ∀ {id}, id ≠ task.id → v'.calls id = v.calls id := by
    intro id other
    rw [calls, Function.update_of_ne other]
  have listed : task ∈ v.accepted := by simp [ordered.mem_accepted, first]
  constructor
  case queued =>
    intro other queued
    rw [queue] at queued
    rw [same (apartQueue other queued)]
    exact sound.queued other queued
  case working =>
    rw [worker]
    exact sound.working.of_current fun other current => same (apartCurrent other current)
  case completed =>
    intro other done
    rw [completed] at done
    rw [same (apartCompleted other done)]
    exact sound.completed other done
  case unanswered =>
    intro other left
    rw [unanswered] at left
    rw [same (apartRest other left)]
    exact before other left
  case answering =>
    intro sent other rest' first'
    obtain ⟨at', delivered, opened⟩ := answering sent
    rw [at', List.cons.injEq] at first'
    rw [← first'.1, calls, Function.update_self]
    exact ⟨delivered, opened⟩
  case answered =>
    intro other done
    obtain before | ⟨rfl, delivered⟩ := answered other done
    · rw [same (apartAnswered other before)]
      exact sound.answered other before
    · rw [calls, Function.update_self]
      exact delivered
  case fresh =>
    intro id above
    rw [next] at above
    rw [same (Nat.ne_of_gt (Nat.lt_of_lt_of_le (ordered.below task listed) above))]
    exact sound.fresh id above
  case rejected =>
    intro id below other
    rw [accepted] at other
    rw [next] at below
    have apart : id ≠ task.id := by
      rintro rfl
      exact other (List.mem_map_of_mem listed)
    rw [same apart]
    exact sound.rejected id below other

theorem Delivered.receive (delivered : Delivered call result) (received : call.receive = some call') :
    Delivered call' result ∧ call'.outcome = call.outcome ∧ call'.shut = call.shut ∧ call'.returned = some result := by
  obtain ⟨full, waits⟩ | ⟨_, gone⟩ := delivered
  · rw [FairCall.receive, full, waits] at received
    cases received
    exact ⟨.inr ⟨rfl, rfl⟩, rfl, rfl, rfl⟩
  · rw [FairCall.receive, gone] at received
    cases received

theorem not_received (empty : call.buffer = none) (opened : call.shut = false) : call.receive = none := by
  rw [FairCall.receive, empty, opened]
  split <;> rfl

theorem Channels.receive (sound : v.Channels) (ordered : v.Ordered) (accepted : id ∈ v.accepted.map (·.id))
    (received : (v.calls id).receive = some call) : (v.setCall id call).Channels := by
  have untouched : ∀ {other : FairTask}, v.calls other.id = {} → (v.setCall id call).calls other.id = {} := by
    intro other unsent
    by_cases same : other.id = id
    · rw [← same, unsent, not_received rfl rfl] at received
      cases received
    · rw [calls_setCall_of_ne same, unsent]
  have kept : ∀ {other : FairTask} {result}, Delivered (v.calls other.id) result →
      Delivered ((v.setCall id call).calls other.id) result ∧
        ((v.setCall id call).calls other.id).outcome = (v.calls other.id).outcome ∧
        ((v.setCall id call).calls other.id).shut = (v.calls other.id).shut := by
    intro other result delivered
    by_cases same : other.id = id
    · subst same
      obtain ⟨after, outcome, shut, _⟩ := delivered.receive received
      rw [calls_setCall_self]
      exact ⟨after, outcome, shut⟩
    · rw [calls_setCall_of_ne same]
      exact ⟨delivered, rfl, rfl⟩
  have ran : ∀ {other : FairTask} {outcome}, Ran (v.calls other.id) outcome →
      Ran ((v.setCall id call).calls other.id) outcome := by
    intro other outcome before
    obtain ⟨after, same, _⟩ := kept before.2
    exact ⟨same.trans before.1, after⟩
  constructor
  case queued =>
    intro other queued
    exact untouched (sound.queued other queued)
  case working =>
    have working := sound.working
    show Working _ v.worker
    cases worker : v.worker <;> rw [worker] at working <;> simp only [Working] at working ⊢
    case running task => exact untouched working
    case finished task outcome | released task outcome =>
      by_cases same : task.id = id
      · rw [← same, working, not_received rfl rfl] at received
        cases received
      · rw [calls_setCall_of_ne same, working]
    case sent task =>
      obtain ⟨⟨outcome, before⟩, opened⟩ := working
      exact ⟨⟨outcome, ran before⟩, (kept before.2).2.2.trans opened⟩
  case completed =>
    intro other done
    obtain ⟨outcome, before⟩ := sound.completed other done
    exact ⟨outcome, ran before⟩
  case unanswered =>
    intro other left
    exact untouched (sound.unanswered other left)
  case answering =>
    intro sent other rest first
    obtain ⟨before, opened⟩ := sound.answering sent other rest first
    exact ⟨(kept before).1, (kept before).2.2.trans opened⟩
  case answered =>
    intro other done
    exact (kept (sound.answered other done)).1
  case fresh =>
    intro other above
    obtain ⟨task, listed, rfl⟩ := List.mem_map.mp accepted
    rw [calls_setCall_of_ne (Nat.ne_of_gt (Nat.lt_of_lt_of_le (ordered.below task listed) above))]
    exact sound.fresh other above
  case rejected =>
    intro other below notTask
    have apart : other ≠ id := by
      rintro rfl
      exact notTask accepted
    rw [calls_setCall_of_ne apart]
    exact sound.rejected other below notTask

theorem send_fresh (waits : call.returned = none) (sent : call.send result = some call') :
    Delivered call' result ∧ call'.shut = false ∧ call'.outcome = call.outcome := by
  rw [FairCall.send, Option.ite_none_right_eq_some] at sent
  obtain ⟨⟨opened, _⟩, eq⟩ := sent
  cases eq
  exact ⟨.inl ⟨rfl, waits⟩, opened, rfl⟩

theorem shutChannel_some (shut : call.shutChannel = some call') : call' = { call with shut := true } := by
  rw [FairCall.shutChannel, Option.ite_none_left_eq_some] at shut
  exact (Option.some.inj shut.2).symm

theorem Channels.move (sound : v.Channels) (ordered : v.Ordered) (moved : v.Move event v') : v'.Channels := by
  have working := sound.working
  cases moved with
  | rejected => exact sound.reject ordered _
  | accepted => exact sound.accept _
  | receive accepted received => exact sound.receive ordered accepted received
  | closedBefore => exact sound
  | close opened => exact sound.shutDown ordered opened
  | @answer task rest call first unsent sent =>
    have all := sound.unanswered
    simp only [FairVerifier.unanswered, unsent, first, Bool.false_eq_true, if_false, List.forall_mem_cons] at all
    obtain ⟨delivered, opened, _⟩ := send_fresh (by rw [all.1]) sent
    refine sound.answerWork ordered first rfl rfl rfl rfl rfl rfl ?_ all.2 ?_ ?_
    · simp [FairVerifier.unanswered, answerSent, setCall, first]
    · intro _
      exact ⟨first, delivered, opened⟩
    · intro other done
      exact .inl done
  | @answerShut task rest call first sent shut =>
    have left := sound.unanswered
    simp only [FairVerifier.unanswered, sent, first, if_true, List.tail_cons] at left
    obtain ⟨delivered, _⟩ := sound.answering sent task rest first
    have kept : Delivered call .closed := by
      rw [shutChannel_some shut]
      exact delivered
    refine sound.answerWork ordered first rfl rfl rfl rfl rfl rfl ?_ left ?_ ?_
    · simp [FairVerifier.unanswered, FairVerifier.answerDone]
    · simp [FairVerifier.answerDone]
    · intro other done
      simp only [FairVerifier.answerDone, setCall, List.mem_append, List.mem_singleton] at done
      exact done.imp_right fun same => ⟨same, kept⟩
  | park | stop => exact { sound with working := trivial }
  | @take task rest ready first =>
    refine { sound with queued := ?_, working := ?_ }
    · intro other listed
      exact sound.queued other (by simp [first, show other ∈ rest from listed])
    · exact sound.queued task (by simp [first])
  | @finish task outcome running =>
    rw [running] at working
    refine sound.work ordered (by simp [running, FairWorker.current]) rfl rfl rfl rfl rfl rfl rfl ?_ ?_
    · simp only [FairVerifier.finish, Working, calls_setCall_self]
      rw [show v.calls task.id = {} from working]
    · intro other done
      exact .inl done
  | @release task outcome finished =>
    rw [finished] at working
    exact { sound with working := working }
  | @send task outcome call released sent =>
    rw [released] at working
    have before : v.calls task.id = { outcome := some outcome } := working
    obtain ⟨delivered, opened, same⟩ := send_fresh (by rw [before]) sent
    refine sound.work ordered (by simp [released, FairWorker.current]) rfl rfl rfl rfl rfl rfl rfl ?_ ?_
    · simp only [FairVerifier.sent, Working, calls_setCall_self]
      exact ⟨⟨outcome, by rw [same, before], delivered⟩, opened⟩
    · intro other done
      exact .inl done
  | @shut task call sent shut =>
    rw [sent] at working
    obtain ⟨⟨outcome, ran⟩, _⟩ := working
    have kept : Ran call outcome := by
      rw [shutChannel_some shut]
      exact ran
    refine sound.work ordered (by simp [sent, FairWorker.current]) rfl rfl rfl rfl rfl rfl rfl trivial ?_
    intro other done
    simp only [complete, setCall, List.mem_append, List.mem_singleton] at done
    exact done.imp_right fun same => ⟨same, outcome, kept⟩

structure Sound (v : FairVerifier ε) : Prop where
  ordered : v.Ordered
  exclusive : v.Exclusive
  channels : v.Channels

theorem Sound.move (sound : v.Sound) (moved : v.Move event v') : v'.Sound :=
  ⟨sound.ordered.move moved, sound.exclusive.move moved, sound.channels.move sound.ordered moved⟩

theorem Reachable.sound (reachable : v.Reachable) : v.Sound := by
  induction reachable with
  | start => exact ⟨.start, .start, .start⟩
  | next _ stepped ih => exact ih.move (step_move stepped)

end FairVerifier

end RabbitLqc
