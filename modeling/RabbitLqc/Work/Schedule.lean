import RabbitLqc.Work.Difficulty
import RabbitLqc.Work.Seats

/-!
# The difficulty schedule of a run

Which epoch is open and which one elects follows from the block number alone, and the two scheduled
difficulties are those of the open epoch and the next. Each closed epoch fixes the difficulty two
epochs later from its own and from the number of tickets it admitted.
-/

namespace RabbitLqc
open Lib

/-! ### Epochs of a block number -/

theorem workEpochForBlockV1_succ {number epochLength : Nat} (positive : epochLength ≠ 0) :
    workEpochForBlockV1 (number + 1) epochLength = .ok (number / epochLength + 1) := by
  unfold workEpochForBlockV1
  simp [positive]

/-- The block after `number` commits the epoch of its number, unless that is the first. -/
theorem workCommitTargetEpochV1_succ {number epochLength : Nat} (positive : epochLength ≠ 0) :
    workCommitTargetEpochV1 (number + 1) epochLength =
      .ok (if number / epochLength = 0 then none else some (number / epochLength)) := by
  refine bind_ok_iff.mpr ⟨_, workEpochForBlockV1_succ positive, ?_⟩
  by_cases first : number / epochLength = 0
  · simp [first]
  · simp [first]

theorem workSelectionSourceEpochV1_succ {number epochLength : Nat} (positive : epochLength ≠ 0) :
    workSelectionSourceEpochV1 (number + 1) epochLength =
      .ok (if number / epochLength < 2 then none else some (number / epochLength - 1)) := by
  refine bind_ok_iff.mpr ⟨_, workEpochForBlockV1_succ positive, ?_⟩
  by_cases early : number / epochLength < 2
  · rw [if_pos early, if_pos (by omega)]
  · rw [if_neg early, if_neg (by omega)]
    congr 2

theorem succ_div_cases (number epochLength : Nat) :
    ((number + 1) % epochLength = 0 ∧ (number + 1) / epochLength = number / epochLength + 1) ∨
      ((number + 1) % epochLength ≠ 0 ∧ (number + 1) / epochLength = number / epochLength) := by
  by_cases divides : epochLength ∣ number + 1
  · exact .inl ⟨Nat.mod_eq_zero_of_dvd divides, Nat.succ_div_of_dvd divides⟩
  · exact .inr ⟨fun zero => divides (Nat.dvd_of_mod_eq_zero zero), Nat.succ_div_of_not_dvd divides⟩

/-! ### Tickets by epoch -/

/-- The tickets mined in `epoch`. -/
def ticketsOf (tickets : List VerifiedRandomXWorkTicketV1) (epoch : Nat) :
    List VerifiedRandomXWorkTicketV1 :=
  tickets.filter (·.ticket.epoch.toNat = epoch)

/-- The tickets mined before `epoch`. -/
def ticketsBefore (tickets : List VerifiedRandomXWorkTicketV1) (epoch : Nat) :
    List VerifiedRandomXWorkTicketV1 :=
  tickets.filter (·.ticket.epoch.toNat < epoch)

section Tickets

variable {tickets verified : List VerifiedRandomXWorkTicketV1} {epoch : Nat}

theorem ticketsOf_append (epoch : Nat) :
    ticketsOf (tickets ++ verified) epoch = ticketsOf tickets epoch ++ ticketsOf verified epoch :=
  List.filter_append ..

theorem ticketsOf_all (same : ∀ item ∈ verified, item.ticket.epoch.toNat = epoch) :
    ticketsOf verified epoch = verified :=
  List.filter_eq_self.mpr fun item member => decide_eq_true (same item member)

theorem ticketsOf_other (same : ∀ item ∈ verified, item.ticket.epoch.toNat = epoch) {other : Nat}
    (different : other ≠ epoch) : ticketsOf verified other = [] :=
  List.filter_eq_nil_iff.mpr fun item member found =>
    different ((of_decide_eq_true found).symm.trans (same item member))

theorem ticketsBefore_append_same (same : ∀ item ∈ verified, item.ticket.epoch.toNat = epoch) :
    ticketsBefore (tickets ++ verified) epoch = ticketsBefore tickets epoch := by
  have none : verified.filter (·.ticket.epoch.toNat < epoch) = [] :=
    List.filter_eq_nil_iff.mpr fun item member found => by
      have := of_decide_eq_true found
      have := same item member
      omega
  unfold ticketsBefore
  rw [List.filter_append, none, List.append_nil]

theorem ticketsBefore_succ (tickets : List VerifiedRandomXWorkTicketV1) (epoch : Nat) :
    (ticketsBefore tickets (epoch + 1)).Perm (ticketsBefore tickets epoch ++ ticketsOf tickets epoch) := by
  induction tickets with
  | nil => exact List.Perm.nil
  | cons item rest ih =>
    unfold ticketsBefore ticketsOf at ih ⊢
    simp only [List.filter_cons, decide_eq_true_eq]
    rcases Nat.lt_trichotomy item.ticket.epoch.toNat epoch with less | same | greater
    · rw [if_pos (by omega), if_pos less, if_neg (by omega)]
      exact ih.cons item
    · rw [if_pos (by omega), if_neg (by omega), if_pos same]
      exact (ih.cons item).trans List.perm_middle.symm
    · rw [if_neg (by omega), if_neg (by omega), if_neg (by omega)]
      exact ih

end Tickets

/-! ### The state at a block number -/

/-- The difficulty of each epoch when `tickets` were admitted. -/
def ticketDifficulty (initial : Nat) (tickets : List VerifiedRandomXWorkTicketV1) : Nat → Nat :=
  epochDifficulty initial fun epoch => (ticketsOf tickets epoch).length

theorem ticketDifficulty_append {initial epoch : Nat} {tickets verified : List VerifiedRandomXWorkTicketV1}
    (same : ∀ item ∈ verified, item.ticket.epoch.toNat = epoch) {other : Nat} (bound : other ≤ epoch + 1) :
    ticketDifficulty initial tickets other = ticketDifficulty initial (tickets ++ verified) other := by
  refine epochDifficulty_congr other fun earlier early => ?_
  rw [ticketsOf_append, ticketsOf_other same (by omega), List.append_nil]

namespace CanonicalWorkRuntimeStateV1

/-- The commit epoch of the block after this state; zero before the first. -/
def openEpoch (state : CanonicalWorkRuntimeStateV1) : Nat := state.work.number / state.work.epochLength

/-- A state whose run brought `tickets`: what is open, closed and scheduled follows from its number. -/
structure OnSchedule (initial : Nat) (tickets : List VerifiedRandomXWorkTicketV1)
    (state : CanonicalWorkRuntimeStateV1) : Prop where
  epochs : ∀ item ∈ tickets, 0 < item.ticket.epoch.toNat ∧
    item.ticket.epoch.toNat * state.work.epochLength < state.work.number
  commit : (state.work.commit = none ∧
      (state.openEpoch = 0 ∨ state.work.number % state.work.epochLength = 0)) ∨
    ∃ commit, state.work.commit = some commit ∧
      (state.openEpoch ≠ 0 ∧ state.work.number % state.work.epochLength ≠ 0) ∧
      commit.epoch = state.openEpoch ∧
      commit.difficulty = ticketDifficulty initial tickets state.openEpoch
  selection : (state.work.selection = none ∧ state.openEpoch < 2) ∨
    ∃ selection, state.work.selection = some selection ∧ selection.epoch + 1 = state.openEpoch ∧
      2 ≤ state.openEpoch
  heads : state.difficulty =
    WorkDifficultyStateV1.heads (ticketDifficulty initial tickets) (max 1 state.openEpoch)
  closedSeats : state.work.selectionSeats.Perm ((ticketsBefore tickets state.openEpoch).map (·.seat))
  openSeats : state.work.commitSeats.Perm ((ticketsOf tickets state.openEpoch).map (·.seat))

section Step

variable {crypto : Crypto} {chainID initial blockNumber : Nat} {blockHash parentHash anchor : Hash}
  {tickets verified : List VerifiedRandomXWorkTicketV1} {state next : CanonicalWorkRuntimeStateV1}

theorem OnSchedule.selectionEpoch (schedule : state.OnSchedule initial tickets) :
    state.work.selectionEpoch = state.openEpoch - 1 := by
  unfold WorkChainSnapshotV1.selectionEpoch
  rcases schedule.selection with ⟨none, early⟩ | ⟨selection, some, follows, _⟩
  · rw [none]
    show 0 = _
    omega
  · rw [some]
    show selection.epoch = _
    omega

theorem nextDifficulty_same {nextWork : WorkChainSnapshotV1} (same : nextWork.selection = state.work.selection) :
    state.nextDifficulty crypto chainID nextWork = .ok state.difficulty := by
  unfold nextDifficulty WorkChainSnapshotV1.selectionEpoch
  rw [same]
  cases state.work.selection with
  | none => rfl
  | some selection => exact if_pos rfl

theorem commitDifficultyV1_ok_iff (nonzero : ∀ bytes, crypto.keccak256 bytes ≠ 0) {difficulty : Option Nat} :
    state.commitDifficultyV1 crypto chainID (state.work.number + 1) = .ok difficulty ↔
      state.Valid crypto chainID ∧ ((state.openEpoch = 0 ∧ difficulty = none) ∨
        (state.openEpoch ≠ 0 ∧ state.difficulty.scheduled state.openEpoch = difficulty ∧ difficulty ≠ none)) := by
  unfold commitDifficultyV1
  simp only [bind_ok_iff, exists_unit, validate_ok_iff nonzero]
  refine and_congr_right fun valid => ?_
  rw [workCommitTargetEpochV1_succ valid.work.fields.2.2]
  simp only [Except.ok.injEq, exists_eq_left']
  show _ ↔ _
  by_cases first : state.openEpoch = 0
  · rw [if_pos (show state.work.number / state.work.epochLength = 0 from first)]
    simp [first, eq_comm]
  · rw [if_neg (show ¬ state.work.number / state.work.epochLength = 0 from first)]
    simp only [bind_ok_iff, WorkDifficultyStateV1.difficultyForEpochV1_ok_iff nonzero, Except.ok.injEq, first,
      false_and, false_or, ne_eq, not_false_eq_true, true_and, valid.work.fields.1, valid.difficulty]
    constructor
    · intro found
      obtain ⟨value, known, rfl⟩ := found
      exact ⟨known, Option.some_ne_none value⟩
    · intro found
      obtain ⟨known, present⟩ := found
      obtain ⟨value, rfl⟩ := Option.ne_none_iff_exists'.mp present
      exact ⟨value, known, rfl⟩

theorem OnSchedule.scheduled (schedule : state.OnSchedule initial tickets) (started : state.openEpoch ≠ 0) :
    state.difficulty.scheduled state.openEpoch = some (ticketDifficulty initial tickets state.openEpoch) := by
  rw [schedule.heads, Nat.max_eq_right (Nat.one_le_iff_ne_zero.mpr started)]
  exact WorkDifficultyStateV1.scheduled_heads

theorem OnSchedule.none_early (schedule : state.OnSchedule initial tickets)
    (positive : state.work.epochLength ≠ 0) (early : state.openEpoch = 0) : tickets = [] := by
  apply List.eq_nil_iff_forall_not_mem.mpr
  intro item member
  obtain ⟨started, committed⟩ := schedule.epochs item member
  have small := Nat.lt_of_div_eq_zero (Nat.pos_of_ne_zero positive) early
  have := Nat.le_mul_of_pos_left state.work.epochLength started
  omega

theorem OnSchedule.idle (schedule : state.OnSchedule initial tickets) (positive : state.work.epochLength ≠ 0)
    (early : state.openEpoch = 0) (hash : Hash) :
    OnSchedule initial tickets
      ⟨{ state.work with number := state.work.number + 1, hash }, state.difficulty⟩ := by
  obtain rfl := schedule.none_early positive early
  have commit : state.work.commit = none := by
    rcases schedule.commit with ⟨none, _⟩ | ⟨_, _, ⟨started, _⟩, _⟩
    · exact none
    · exact absurd early started
  have selection : state.work.selection = none := by
    rcases schedule.selection with ⟨none, _⟩ | ⟨_, _, _, started⟩
    · exact none
    · omega
  have now : state.work.number / state.work.epochLength = 0 := early
  have heads := schedule.heads
  have next : (state.work.number + 1) / state.work.epochLength ≤ 1 ∧
      ((state.work.number + 1) / state.work.epochLength = 0 ∨
        (state.work.number + 1) % state.work.epochLength = 0) := by
    rcases succ_div_cases state.work.number state.work.epochLength with ⟨last, moved⟩ | ⟨_, same⟩
    · exact ⟨by omega, .inr last⟩
    · exact ⟨by omega, .inl (by omega)⟩
  refine ⟨by simp, .inl ⟨commit, next.2⟩, .inl ⟨selection, Nat.lt_succ_of_le next.1⟩, ?_,
    schedule.closedSeats, ?_⟩
  · rw [early] at heads
    show state.difficulty = WorkDifficultyStateV1.heads _ (max 1 ((state.work.number + 1) / _))
    rw [heads, Nat.max_eq_left next.1]
    rfl
  · exact schedule.openSeats

theorem OnSchedule.joined (schedule : state.OnSchedule initial tickets)
    (same : ∀ item ∈ verified, item.ticket.epoch.toNat = state.openEpoch) {opened commit : WorkCommitV1}
    (opens : opened.seats = state.work.commitSeats)
    (admits : WorkChainSnapshotV1.Admits state.work.selectionSeats opened verified commit) :
    commit.seats.Perm ((ticketsOf (tickets ++ verified) state.openEpoch).map (·.seat)) := by
  have joined := admits.seats
  rw [opens] at joined
  rw [ticketsOf_append, ticketsOf_all same, List.map_append]
  exact joined.trans (schedule.openSeats.append_right _)

theorem OnSchedule.epochs_append (schedule : state.OnSchedule initial tickets)
    (same : ∀ item ∈ verified, item.ticket.epoch.toNat = state.openEpoch) (started : state.openEpoch ≠ 0) :
    ∀ item ∈ tickets ++ verified, 0 < item.ticket.epoch.toNat ∧
      item.ticket.epoch.toNat * state.work.epochLength < state.work.number + 1 := by
  intro item member
  rcases List.mem_append.mp member with old | new
  · obtain ⟨positive, committed⟩ := schedule.epochs item old
    exact ⟨positive, by omega⟩
  · rw [same item new]
    exact ⟨Nat.pos_of_ne_zero started, Nat.lt_succ_of_le (Nat.div_mul_le_self _ _)⟩

theorem OnSchedule.commits (schedule : state.OnSchedule initial tickets) (started : state.openEpoch ≠ 0)
    (within : (state.work.number + 1) % state.work.epochLength ≠ 0)
    (same : ∀ item ∈ verified, item.ticket.epoch.toNat = state.openEpoch) {opened commit : WorkCommitV1}
    (opens : opened.seats = state.work.commitSeats)
    (admits : WorkChainSnapshotV1.Admits state.work.selectionSeats opened verified commit)
    (epoch : commit.epoch = state.openEpoch)
    (difficulty : commit.difficulty = ticketDifficulty initial tickets state.openEpoch) (hash : Hash) :
    OnSchedule initial (tickets ++ verified)
      ⟨{ state.work with number := state.work.number + 1, hash, commit := some commit }, state.difficulty⟩ := by
  have stays : (state.work.number + 1) / state.work.epochLength = state.openEpoch := by
    rcases succ_div_cases state.work.number state.work.epochLength with ⟨last, _⟩ | ⟨_, stays⟩
    · exact absurd last within
    · exact stays
  have now := @ticketDifficulty_append initial _ tickets _ same _ (Nat.le_succ _)
  have after := @ticketDifficulty_append initial _ tickets _ same _ le_rfl
  have heads := schedule.heads
  refine ⟨schedule.epochs_append same started, .inr ⟨commit, rfl, ?_⟩, ?_, ?_, ?_, ?_⟩ <;>
    (try unfold openEpoch) <;> simp only [stays]
  · exact ⟨⟨started, within⟩, epoch, difficulty.trans now⟩
  · exact schedule.selection
  · rw [Nat.max_eq_right (Nat.one_le_iff_ne_zero.mpr started)] at heads ⊢
    rw [heads]
    exact WorkDifficultyStateV1.heads_congr now after
  · rw [ticketsBefore_append_same same]
    exact schedule.closedSeats
  · exact schedule.joined same opens admits

theorem admissions_perm {seated : List WorkSeatV1} {commit : WorkCommitV1}
    (set : SeatSet (seated ++ commit.seats)) :
    (admissions seated (WorkChainSnapshotV1.closedSelection crypto chainID seated commit).seats).Perm
      commit.seats := by
  have apart := List.nodup_append.mp (List.map_append ▸ set.participants)
  have old : seated.filter (fun seat => ∀ old ∈ seated, old.participant ≠ seat.participant) = [] :=
    List.filter_eq_nil_iff.mpr fun seat member fresh => of_decide_eq_true fresh seat member rfl
  have new : commit.seats.filter (fun seat => ∀ old ∈ seated, old.participant ≠ seat.participant) =
      commit.seats :=
    List.filter_eq_self.mpr fun seat member => decide_eq_true fun old listed =>
      apart.2.2 _ (List.mem_map_of_mem listed) _ (List.mem_map_of_mem member)
  unfold admissions
  refine ((WorkChainSnapshotV1.closedSelection_seats seated commit).filter _).trans ?_
  rw [List.filter_append, old, new, List.nil_append]

theorem epochSnapshot_validate (nonzero : ∀ bytes, crypto.keccak256 bytes ≠ 0) {epoch difficulty : Nat}
    {seats : List WorkSeatV1} (context : chainID ≠ 0 ∧ epoch ≠ 0 ∧ anchor ≠ 0 ∧ difficulty ≠ 0)
    (set : SeatSet seats) :
    (epochSnapshot crypto chainID epoch anchor difficulty seats).validate crypto chainID = .ok () := by
  unfold WorkEpochSnapshotV1.validate
  simp only [bind_ok_iff, ensure_ok_iff, exists_unit, Prod.exists, workEpochRootV1_ok_iff]
  refine ⟨⟨context.2.1, context.2.2.1, context.2.2.2, nonzero _⟩, _, _, ⟨context, set.sort, rfl, rfl⟩, ?_⟩
  simp [epochSnapshot]

theorem OnSchedule.nextDifficulty_closes_iff (nonzero : ∀ bytes, crypto.keccak256 bytes ≠ 0)
    (schedule : state.OnSchedule initial tickets) (valid : state.Valid crypto chainID)
    (same : ∀ item ∈ verified, item.ticket.epoch.toNat = state.openEpoch) (started : state.openEpoch ≠ 0)
    (positive : initial ≠ 0) {commit : WorkCommitV1} (anchored : commit.anchor ≠ 0)
    (epoch : commit.epoch = state.openEpoch)
    (difficulty : commit.difficulty = ticketDifficulty initial tickets state.openEpoch)
    (seats : commit.seats.Perm ((ticketsOf (tickets ++ verified) state.openEpoch).map (·.seat)))
    (set : SeatSet (state.work.selectionSeats ++ commit.seats)) {nextWork : WorkChainSnapshotV1}
    (closed : nextWork.selection =
      some (WorkChainSnapshotV1.closedSelection crypto chainID state.work.selectionSeats commit))
    {result : WorkDifficultyStateV1} :
    state.nextDifficulty crypto chainID nextWork = .ok result ↔
      state.openEpoch ≤ maxUint64 - 2 ∧ result =
        WorkDifficultyStateV1.heads (ticketDifficulty initial (tickets ++ verified)) (state.openEpoch + 1) := by
  have context : chainID ≠ 0 ∧ commit.epoch ≠ 0 ∧ commit.anchor ≠ 0 ∧ commit.difficulty ≠ 0 := by
    rw [epoch, difficulty]
    exact ⟨valid.work.fields.1, started, anchored, epochDifficulty_ne_zero positive _⟩
  have added := @admissions_perm crypto chainID _ _ set
  have addedSet := set.of_append.perm added.symm
  have now := @ticketDifficulty_append initial _ tickets _ same _ (Nat.le_succ _)
  have after := @ticketDifficulty_append initial _ tickets _ same _ le_rfl
  have nextHeads : state.difficulty.reschedule commit.epoch (retargetedDifficulty commit.difficulty
      (sortOn WorkSeatV1.orderKey (admissions state.work.selectionSeats
        (WorkChainSnapshotV1.closedSelection crypto chainID state.work.selectionSeats commit).seats)).length) =
      WorkDifficultyStateV1.heads (ticketDifficulty initial (tickets ++ verified)) (state.openEpoch + 1) := by
    have retargeted := (nextWorkDifficultyV1_ok_iff.mp (@epochDifficulty_next initial
      (fun epoch => (ticketsOf (tickets ++ verified) epoch).length) positive _ started)).2
    rw [length_sortOn, added.length_eq, seats.length_eq, List.length_map, epoch, difficulty, schedule.heads,
      Nat.max_eq_right (Nat.one_le_iff_ne_zero.mpr started), WorkDifficultyStateV1.heads_congr now after, now]
    exact retargeted ▸ WorkDifficultyStateV1.heads_reschedule _ _
  have isNew : ¬ commit.epoch = state.work.selectionEpoch := by
    rw [schedule.selectionEpoch, epoch]
    omega
  unfold nextDifficulty
  rw [closed]
  show (if commit.epoch = state.work.selectionEpoch then _ else _) = _ ↔ _
  rw [if_neg isNew]
  simp only [bind_ok_iff, newWorkEpochSnapshotV1_ok_iff, WorkDifficultyStateV1.advanceClosedEpochV1_ok_iff nonzero]
  constructor
  · intro advanced
    obtain ⟨_, ⟨_, _, _, rfl⟩, _, _, _, _, room, _, rfl⟩ := advanced
    exact ⟨epoch ▸ room, nextHeads⟩
  · intro given
    obtain ⟨room, rfl⟩ := given
    refine ⟨_, ⟨context, addedSet, nonzero _, rfl⟩, ⟨context.1, valid.difficulty⟩,
      epochSnapshot_validate nonzero context addedSet, ?_, context.2.2.2, epoch.le.trans room, ?_, nextHeads.symm⟩
    · show state.difficulty.scheduled commit.epoch = some commit.difficulty
      rw [epoch, difficulty]
      exact schedule.scheduled started
    · exact WorkDifficultyStateV1.heads_valid (epochDifficulty_ne_zero positive) (Nat.succ_ne_zero _)

theorem OnSchedule.closes (schedule : state.OnSchedule initial tickets) (started : state.openEpoch ≠ 0)
    (last : (state.work.number + 1) % state.work.epochLength = 0)
    (same : ∀ item ∈ verified, item.ticket.epoch.toNat = state.openEpoch) {commit : WorkCommitV1}
    (seats : commit.seats.Perm ((ticketsOf (tickets ++ verified) state.openEpoch).map (·.seat)))
    (epoch : commit.epoch = state.openEpoch) (hash : Hash) :
    OnSchedule initial (tickets ++ verified)
      ⟨{ state.work with
          number := state.work.number + 1
          hash := hash
          commit := none
          selection := some (WorkChainSnapshotV1.closedSelection crypto chainID state.work.selectionSeats commit) },
        WorkDifficultyStateV1.heads (ticketDifficulty initial (tickets ++ verified)) (state.openEpoch + 1)⟩ := by
  have moves : (state.work.number + 1) / state.work.epochLength = state.openEpoch + 1 := by
    rcases succ_div_cases state.work.number state.work.epochLength with ⟨_, moves⟩ | ⟨within, _⟩
    · exact moves
    · exact absurd last within
  have all := schedule.epochs_append same started
  refine ⟨all, .inl ⟨rfl, .inr last⟩, .inr ⟨_, rfl, ?_⟩, ?_, ?_, ?_⟩ <;>
    (try unfold openEpoch) <;> simp only [moves]
  · exact ⟨congrArg (· + 1) epoch, by omega⟩
  · rw [Nat.max_eq_right (Nat.le_add_left 1 _)]
    rfl
  · refine (WorkChainSnapshotV1.closedSelection_seats _ _).trans ?_
    have before := schedule.closedSeats
    rw [← ticketsBefore_append_same same] at before
    refine (before.append seats).trans ?_
    rw [← List.map_append]
    exact ((ticketsBefore_succ _ _).map _).symm
  · -- a ticket of the next epoch would have been committed after this block
    have none : ticketsOf (tickets ++ verified) (state.openEpoch + 1) = [] :=
      List.filter_eq_nil_iff.mpr fun item member found => by
        have committed := (all item member).2
        rw [of_decide_eq_true found, ← moves, Nat.div_mul_cancel (Nat.dvd_of_mod_eq_zero last)] at committed
        omega
    rw [none]
    exact List.Perm.nil

theorem OnSchedule.commit_context (nonzero : ∀ bytes, crypto.keccak256 bytes ≠ 0)
    (schedule : state.OnSchedule initial tickets) (positive : state.work.epochLength ≠ 0)
    {scheduled : Option Nat} {epoch difficulty : Nat}
    (given : state.commitDifficultyV1 crypto chainID (state.work.number + 1) = .ok scheduled)
    (target : workCommitTargetEpochV1 (state.work.number + 1) state.work.epochLength = .ok (some epoch))
    (known : scheduled = some difficulty) :
    state.openEpoch ≠ 0 ∧ epoch = state.openEpoch ∧
      difficulty = ticketDifficulty initial tickets state.openEpoch := by
  rw [workCommitTargetEpochV1_succ positive, Except.ok.injEq] at target
  obtain ⟨_, ⟨_, absent⟩ | ⟨started, found, _⟩⟩ := (commitDifficultyV1_ok_iff nonzero).mp given
  · cases absent.symm.trans known
  · rw [if_neg (show ¬ state.work.number / state.work.epochLength = 0 from started), Option.some.injEq] at target
    rw [schedule.scheduled started, known, Option.some.injEq] at found
    exact ⟨started, target.symm, found.symm⟩

theorem Step.onSchedule (nonzero : ∀ bytes, crypto.keccak256 bytes ≠ 0) (positive : initial ≠ 0)
    (step : Step crypto chainID blockNumber blockHash parentHash anchor verified state next)
    (schedule : state.OnSchedule initial tickets) : next.OnSchedule initial (tickets ++ verified) := by
  obtain ⟨valid, ⟨_, rfl, _, _⟩, ⟨scheduled, given, advances⟩, retargets, _⟩ := step
  have length := valid.work.fields.2.2
  cases next with
  | mk work difficulty =>
  cases advances with
  | idle early empty _ =>
    have unchanged : state.difficulty = difficulty :=
      Except.ok.inj ((nextDifficulty_same rfl).symm.trans retargets)
    subst empty unchanged
    rw [List.append_nil]
    refine schedule.idle length ?_ blockHash
    change workCommitTargetEpochV1 (state.work.number + 1) state.work.epochLength = _ at early
    rw [workCommitTargetEpochV1_succ length, Except.ok.injEq] at early
    by_contra started
    rw [if_neg (show ¬ state.work.number / state.work.epochLength = 0 from started)] at early
    cases early
  | commits target _ known opens admits within =>
    obtain ⟨started, rfl, rfl⟩ := schedule.commit_context nonzero length given target known
    obtain ⟨sameEpoch, _, sameDifficulty, sameSeats⟩ := WorkChainSnapshotV1.openCommit_ok opens
    have unchanged : state.difficulty = difficulty :=
      Except.ok.inj ((nextDifficulty_same rfl).symm.trans retargets)
    subst unchanged
    have same := fun item member => (admits.epochs item member).trans sameEpoch
    obtain ⟨epoch, _, difficulty⟩ := admits.context
    exact schedule.commits started within same sameSeats admits (epoch.trans sameEpoch)
      (difficulty.trans sameDifficulty) blockHash
  | closes target context known opens admits last closed =>
    obtain ⟨started, rfl, rfl⟩ := schedule.commit_context nonzero length given target known
    obtain ⟨sameEpoch, sameAnchor, sameDifficulty, sameSeats⟩ := WorkChainSnapshotV1.openCommit_ok opens
    obtain ⟨set, rfl⟩ := WorkChainSnapshotV1.closeEpoch_ok closed
    have same := fun item member => (admits.epochs item member).trans sameEpoch
    have seats := schedule.joined same sameSeats admits
    obtain ⟨epoch, anchored, difficulty⟩ := admits.context
    rw [sameEpoch] at epoch
    obtain ⟨_, rfl⟩ := (schedule.nextDifficulty_closes_iff nonzero valid same started positive
      ((anchored.trans sameAnchor) ▸ context.1) epoch (difficulty.trans sameDifficulty) seats set rfl).mp
      retargets
    exact schedule.closes started last same seats epoch blockHash

/-- The anchor the next block has to commit under: none in the first epoch, any in the first block
of a window, then the one the window was opened with. -/
def WindowAnchor (state : CanonicalWorkRuntimeStateV1) (anchor : Hash) : Prop :=
  (state.openEpoch = 0 → anchor = 0) ∧
    (state.openEpoch ≠ 0 → anchor ≠ 0 ∧ ∀ commit, state.work.commit = some commit → commit.anchor = anchor)

theorem OnSchedule.openCommit_exists (schedule : state.OnSchedule initial tickets)
    (anchored : ∀ commit, state.work.commit = some commit → commit.anchor = anchor) :
    ∃ opened, WorkChainSnapshotV1.openCommit state.openEpoch anchor
      (ticketDifficulty initial tickets state.openEpoch) state.work.commit = .ok opened := by
  rcases schedule.commit with ⟨none, _⟩ | ⟨commit, some, _, epoch, difficulty⟩
  · rw [none]
    exact ⟨_, rfl⟩
  · rw [some]
    refine ⟨commit, ?_⟩
    simp only [WorkChainSnapshotV1.openCommit, ensure_bind_ok_iff]
    exact ⟨epoch, ⟨anchored commit some, difficulty⟩, trivial⟩

theorem OnSchedule.applies (nonzero : ∀ bytes, crypto.keccak256 bytes ≠ 0) (positive : initial ≠ 0)
    (schedule : state.OnSchedule initial tickets) (valid : state.Valid crypto chainID)
    (open' : state.openEpoch = 0 → verified = [])
    (same : ∀ item ∈ verified, item.ticket.epoch.toNat = state.openEpoch)
    (checked : ∀ item ∈ verified, checkVerified item = .ok ())
    (set : SeatSet (state.work.selectionSeats ++ (state.work.commitSeats ++ verified.map (·.seat))))
    (room : state.work.number ≠ maxUint64) (epochRoom : state.openEpoch ≤ maxUint64 - 2)
    (hashed : blockHash ≠ 0) (window : state.WindowAnchor anchor) :
    ∃ next, state.applyVerifiedBlockV1 crypto chainID (state.work.number + 1) blockHash state.work.hash
      anchor verified = .ok next := by
  simp only [applyVerifiedBlockV1_ok_iff nonzero]
  have length := valid.work.fields.2.2
  have moved := valid.work.move (state.work.number + 1) hashed
  have target := @workCommitTargetEpochV1_succ state.work.number _ length
  have context := (@commitDifficultyV1_ok_iff crypto chainID state nonzero)
  by_cases early : state.openEpoch = 0
  · rw [if_pos (show state.work.number / state.work.epochLength = 0 from early)] at target
    obtain rfl := open' early
    exact ⟨⟨_, state.difficulty⟩, valid, ⟨room, rfl, rfl, hashed⟩,
      ⟨none, context.mpr ⟨valid, .inl ⟨early, rfl⟩⟩, .idle target rfl ⟨window.1 early, rfl⟩⟩,
      nextDifficulty_same rfl, moved, valid.difficulty⟩
  rw [if_neg (show ¬ state.work.number / state.work.epochLength = 0 from early)] at target
  obtain ⟨nonzeroAnchor, anchored⟩ := window.2 early
  obtain ⟨opened, opens⟩ := schedule.openCommit_exists anchored
  obtain ⟨sameEpoch, sameAnchor, sameDifficulty, sameSeats⟩ := WorkChainSnapshotV1.openCommit_ok opens
  have scheduled := context.mpr ⟨valid, .inr ⟨early, schedule.scheduled early, Option.some_ne_none _⟩⟩
  have difficultyPositive : ticketDifficulty initial tickets state.openEpoch ≠ 0 :=
    epochDifficulty_ne_zero positive _
  change SeatSet (_ ++ ((state.work.commit.map (·.seats)).getD [] ++ _)) at set
  rw [← sameSeats] at set
  have unseated : ∀ item ∈ verified, ∀ old ∈ state.work.selectionSeats,
      old.participant ≠ item.ticket.participant := by
    intro item member old seated
    have apart := (List.nodup_append.mp (List.map_append ▸ set.participants)).2.2
    refine apart _ (List.mem_map_of_mem seated) _ (List.mem_map.mpr ⟨item.seat, ?_, rfl⟩)
    exact List.mem_append_right _ (List.mem_map_of_mem member)
  obtain ⟨commit, admits⟩ :
      ∃ commit, WorkChainSnapshotV1.Admits state.work.selectionSeats opened verified commit :=
    ⟨_, fun item member => (same item member).trans sameEpoch.symm, checked, unseated, set.of_append, rfl⟩
  obtain ⟨epoch, commitAnchor, difficulty⟩ := admits.context
  rw [sameEpoch] at epoch
  rw [sameAnchor] at commitAnchor
  rw [sameDifficulty] at difficulty
  -- the state that moved to the block; both ways out of it change its parts only
  let before : WorkChainSnapshotV1 := { state.work with number := state.work.number + 1, hash := blockHash }
  by_cases last : (state.work.number + 1) % state.work.epochLength = 0
  · have seats := schedule.joined same sameSeats admits
    have all : SeatSet (state.work.selectionSeats ++ commit.seats) :=
      set.perm (admits.seats.symm.append_left _)
    have closed := WorkChainSnapshotV1.closeEpoch_of nonzero ⟨valid.work.fields.1, epoch.symm ▸ early,
      commitAnchor.symm ▸ nonzeroAnchor, difficulty.symm ▸ difficultyPositive⟩ all
    have advances := @WorkChainSnapshotV1.Advances.closes crypto chainID _ _ _ _ before _ _ _ _ _ target
      ⟨nonzeroAnchor, difficultyPositive⟩ rfl opens admits last closed
    have retargets := (@OnSchedule.nextDifficulty_closes_iff _ _ _ _ _ _ nonzero schedule valid same early
      positive _ (commitAnchor.symm ▸ nonzeroAnchor) epoch difficulty seats all { before with
        selection := some (WorkChainSnapshotV1.closedSelection crypto chainID state.work.selectionSeats commit)
        commit := none } rfl _).mpr ⟨epochRoom, rfl⟩
    exact ⟨⟨_, _⟩, valid, ⟨room, rfl, rfl, hashed⟩, ⟨_, scheduled, advances⟩, retargets, advances.valid moved,
      WorkDifficultyStateV1.heads_valid (epochDifficulty_ne_zero positive) (Nat.succ_ne_zero _)⟩
  · have advances := @WorkChainSnapshotV1.Advances.commits crypto chainID _ _ _ _ before _ _ _ _ target
      ⟨nonzeroAnchor, difficultyPositive⟩ rfl opens admits last
    exact ⟨⟨_, state.difficulty⟩, valid, ⟨room, rfl, rfl, hashed⟩, ⟨_, scheduled, advances⟩,
      nextDifficulty_same rfl, advances.valid moved, valid.difficulty⟩

theorem OnSchedule.empty_applies (nonzero : ∀ bytes, crypto.keccak256 bytes ≠ 0) (positive : initial ≠ 0)
    (schedule : state.OnSchedule initial tickets) (valid : state.Valid crypto chainID)
    (set : SeatSet (state.work.selectionSeats ++ state.work.commitSeats))
    (room : state.work.number ≠ maxUint64) (epochRoom : state.openEpoch ≤ maxUint64 - 2)
    (hashed : blockHash ≠ 0) (window : state.WindowAnchor anchor) :
    ∃ next, state.applyVerifiedBlockV1 crypto chainID (state.work.number + 1) blockHash state.work.hash
      anchor [] = .ok next :=
  schedule.applies nonzero positive valid (fun _ => rfl) (by simp) (by simp)
    (by rwa [List.map_nil, List.append_nil]) room epochRoom hashed window

end Step

section Run

variable {crypto : Crypto} {chainID : Nat} {hash : Hash} {epochLength initialDifficulty : Nat}
  {initial state next : CanonicalWorkRuntimeStateV1}

theorem applyBlocks_onSchedule (nonzero : ∀ bytes, crypto.keccak256 bytes ≠ 0)
    (positive : initialDifficulty ≠ 0) {blocks : List Block} {tickets : List VerifiedRandomXWorkTicketV1}
    (run : applyBlocks crypto chainID blocks state = .ok next)
    (schedule : state.OnSchedule initialDifficulty tickets) :
    next.OnSchedule initialDifficulty (tickets ++ broughtTickets blocks) := by
  induction blocks generalizing state tickets with
  | nil =>
    obtain rfl := Except.ok.inj run
    rw [broughtTickets, List.flatMap_nil, List.append_nil]
    exact schedule
  | cons block rest ih =>
    obtain ⟨middle, applied, run⟩ := bind_ok run
    have onward := ih run ((applyVerifiedBlockV1_step applied).onSchedule nonzero positive schedule)
    rw [List.append_assoc] at onward
    exact onward

theorem start_onSchedule
    (start : newCanonicalWorkRuntimeStateV1 crypto chainID 0 hash epochLength initialDifficulty =
      .ok initial) : initial.OnSchedule initialDifficulty [] ∧ initialDifficulty ≠ 0 := by
  obtain ⟨rfl, valid⟩ := newCanonicalWorkRuntimeStateV1_ok start
  refine ⟨⟨by simp, .inl ⟨rfl, .inr (Nat.zero_mod _)⟩, .inl ⟨rfl, ?_⟩, ?_, List.Perm.nil, List.Perm.nil⟩,
    valid.difficulty.odd.2⟩
  · show 0 / epochLength < 2
    rw [Nat.zero_div]
    exact Nat.two_pos
  · show _ = WorkDifficultyStateV1.heads _ (max 1 (0 / epochLength))
    rw [Nat.zero_div]
    rfl

theorem OnSchedule.selection_available (nonzero : ∀ bytes, crypto.keccak256 bytes ≠ 0)
    {tickets : List VerifiedRandomXWorkTicketV1} (schedule : state.OnSchedule initialDifficulty tickets)
    (valid : state.Valid crypto chainID) :
    (state.openEpoch < 2 ∧
        state.work.selectionSnapshotV1 crypto chainID (state.work.number + 1) = .ok none) ∨
      ∃ selection, state.work.selectionSnapshotV1 crypto chainID (state.work.number + 1) = .ok (some selection) ∧
        selection.epoch + 1 = state.openEpoch ∧ 2 ≤ state.openEpoch := by
  have length := valid.work.fields.2.2
  have source := @workSelectionSourceEpochV1_succ state.work.number _ length
  simp only [WorkChainSnapshotV1.selectionSnapshotV1, bind_ok_iff, ensure_ok_iff, exists_unit, source,
    Except.ok.injEq, exists_eq_left']
  rcases schedule.selection with ⟨_, early⟩ | ⟨selection, present, follows, started⟩
  · rw [if_pos (show state.work.number / state.work.epochLength < 2 from early)]
    exact .inl ⟨early, length, rfl⟩
  · rw [if_neg (show ¬ state.work.number / state.work.epochLength < 2 from Nat.not_lt.mpr started), present]
    have checked := valid.work.selection
    rw [present] at checked
    simp only [validateSelectionPart, bind_ok_iff, exists_unit, Prod.exists,
      WorkChainSnapshotV1.validateWorkEpochState_ok_iff, workEpochRootV1_ok_iff, ensure_ok_iff] at checked
    obtain ⟨⟨fields, set, sorted⟩, root, _, ⟨context, _, rooted, rfl⟩, same⟩ := checked
    have nonzeroRoot : selection.root ≠ 0 := by
      rw [← same, rooted]
      exact nonzero _
    refine .inr ⟨selection, ⟨length, ?_⟩, follows, started⟩
    simp only [bind_ok_iff, ensure_ok_iff, exists_unit, WorkEpochSnapshotV1.validate, Prod.exists,
      workEpochRootV1_ok_iff]
    exact ⟨⟨Nat.eq_sub_of_add_eq follows, fields.2.1, nonzeroRoot⟩,
      ⟨⟨fields.1, fields.2.1, fields.2.2, nonzeroRoot⟩, _, _, ⟨context, set, rfl, rfl⟩,
        rooted.symm.trans same, sorted⟩, trivial⟩

theorem OnSchedule.held_set {tickets : List VerifiedRandomXWorkTicketV1}
    (schedule : state.OnSchedule initialDifficulty tickets) (valid : state.Valid crypto chainID)
    (holds : state.work.HoldsSeatsOf tickets)
    (apart : ∀ item ∈ tickets, ∀ other ∈ tickets, item.ticket.epoch ≠ other.ticket.epoch →
      item.hash ≠ other.hash) :
    SeatSet (state.work.selectionSeats ++ state.work.commitSeats) := by
  have persistent := valid.work.selectionSeats
  have open' := valid.work.commitSeats
  refine ⟨fun seat member => ?_, ?_, holds.apart⟩
  · rcases List.mem_append.mp member with seated | waiting
    · exact persistent.nonzero seat seated
    · exact open'.nonzero seat waiting
  · rw [List.map_append]
    refine List.nodup_append.mpr ⟨persistent.hashes, open'.hashes, ?_⟩
    intro _ seated _ waiting
    obtain ⟨left, member, rfl⟩ := List.mem_map.mp seated
    obtain ⟨right, other, rfl⟩ := List.mem_map.mp waiting
    obtain ⟨early, first, rfl⟩ := List.mem_map.mp (schedule.closedSeats.mem_iff.mp member)
    obtain ⟨late, second, rfl⟩ := List.mem_map.mp (schedule.openSeats.mem_iff.mp other)
    obtain ⟨brought, before⟩ := List.mem_filter.mp first
    obtain ⟨broughtToo, now⟩ := List.mem_filter.mp second
    refine apart early brought late broughtToo fun same => ?_
    have less := of_decide_eq_true before
    have equal := of_decide_eq_true now
    rw [same] at less
    omega

/-- In every state of a run from block zero that has a next block: its commit difficulty and, from
the third epoch on, its electing epoch are there; exactly the open epoch and the next one are
scheduled; each epoch has the difficulty retargeted from the one two before and the tickets that one
admitted; and when no two epochs share a ticket hash, a block without tickets applies. -/
theorem difficulty_schedule (nonzero : ∀ bytes, crypto.keccak256 bytes ≠ 0) {blocks : List Block}
    (start : newCanonicalWorkRuntimeStateV1 crypto chainID 0 hash epochLength initialDifficulty =
      .ok initial)
    (reached : applyBlocks crypto chainID blocks initial = .ok state)
    (room : state.work.number < maxUint64) :
    let tickets := broughtTickets blocks
    let difficulty := ticketDifficulty initialDifficulty tickets
    state.commitDifficultyV1 crypto chainID (state.work.number + 1) =
        .ok (if state.openEpoch = 0 then none else some (difficulty state.openEpoch)) ∧
      ((state.openEpoch < 2 ∧
          state.work.selectionSnapshotV1 crypto chainID (state.work.number + 1) = .ok none) ∨
        ∃ selection,
          state.work.selectionSnapshotV1 crypto chainID (state.work.number + 1) = .ok (some selection) ∧
          selection.epoch + 1 = state.openEpoch ∧ 2 ≤ state.openEpoch) ∧
      state.difficulty = WorkDifficultyStateV1.heads difficulty (max 1 state.openEpoch) ∧
      state.work.selectionSeats.Perm ((ticketsBefore tickets state.openEpoch).map (·.seat)) ∧
      (∀ epoch ≠ 0, nextWorkDifficultyV1 (difficulty epoch) (ticketsOf tickets epoch).length =
        .ok (difficulty (epoch + 2))) ∧
      ((∀ item ∈ tickets, ∀ other ∈ tickets, item.ticket.epoch ≠ other.ticket.epoch →
          item.hash ≠ other.hash) →
        1 < state.work.epochLength ∨ state.work.number + 1 < maxUint64 →
        ∀ blockHash anchor, blockHash ≠ 0 → state.WindowAnchor anchor →
          ∃ next, state.applyVerifiedBlockV1 crypto chainID (state.work.number + 1) blockHash
            state.work.hash anchor [] = .ok next) := by
  intro tickets difficulty
  obtain ⟨begins, positive⟩ := start_onSchedule start
  obtain ⟨rfl, startValid⟩ := newCanonicalWorkRuntimeStateV1_ok start
  have fresh : WorkChainSnapshotV1.HoldsSeatsOf [] ⟨0, hash, epochLength, none, none⟩ :=
    ⟨List.Perm.nil, List.nodup_nil⟩
  have schedule : state.OnSchedule initialDifficulty tickets :=
    applyBlocks_onSchedule nonzero positive reached begins
  have valid := applyBlocks_valid reached startValid
  refine ⟨?_, schedule.selection_available nonzero valid, schedule.heads, schedule.closedSeats,
    fun epoch started => epochDifficulty_next positive started, ?_⟩
  · refine (commitDifficultyV1_ok_iff nonzero).mpr ⟨valid, ?_⟩
    by_cases early : state.openEpoch = 0
    · exact .inl ⟨early, if_pos early⟩
    · rw [if_neg early]
      exact .inr ⟨early, schedule.scheduled early, Option.some_ne_none _⟩
  · intro apart long blockHash anchor hashed window
    have epochRoom : state.openEpoch ≤ maxUint64 - 2 := by
      have whole := Nat.div_le_self state.work.number state.work.epochLength
      rcases long with long | short
      · have half : state.work.number / state.work.epochLength ≤ state.work.number / 2 :=
          Nat.div_le_div_left long Nat.two_pos
        unfold openEpoch maxUint64 at *
        omega
      · unfold openEpoch
        omega
    exact schedule.empty_applies nonzero positive valid
      (schedule.held_set valid (applyBlocks_holds reached fresh) apart) (Nat.ne_of_lt room) epochRoom hashed
      window

def twoTicketState : CanonicalWorkRuntimeStateV1 :=
  match applyBlocks plainCrypto 1 twoTicketBlocks ⟨⟨0, 9, 1, none, none⟩, ⟨1, 1, 2, 1⟩⟩ with
  | .ok state => state
  | .error _ => ⟨⟨0, 0, 0, none, none⟩, ⟨0, 0, 0, 0⟩⟩

theorem difficulty_schedule_twoTickets :
    twoTicketState.difficulty.scheduled 3 = some 1 ∧
      ∃ next, twoTicketState.applyVerifiedBlockV1 plainCrypto 1 4 4 3 8 [] = .ok next := by
  obtain ⟨reached, start, number, parent, opened, noCommit⟩ : applyBlocks plainCrypto 1 twoTicketBlocks
        ⟨⟨0, 9, 1, none, none⟩, ⟨1, 1, 2, 1⟩⟩ = .ok twoTicketState ∧
      newCanonicalWorkRuntimeStateV1 plainCrypto 1 0 9 1 1 = .ok ⟨⟨0, 9, 1, none, none⟩, ⟨1, 1, 2, 1⟩⟩ ∧
      twoTicketState.work.number = 3 ∧ twoTicketState.work.hash = 3 ∧ twoTicketState.openEpoch = 3 ∧
      twoTicketState.work.commit = none := by
    decide +kernel
  obtain ⟨_, _, heads, _, _, empty⟩ := difficulty_schedule plainCrypto_keccak256_ne_zero start reached
    (by rw [number]; decide)
  rw [number, parent] at empty
  constructor
  · rw [heads, opened]
    decide
  · refine empty ?_ (.inr (by decide)) 4 8 (by decide) ⟨fun early => ?_, fun _ => ⟨by decide, ?_⟩⟩
    · decide
    · rw [opened] at early
      cases early
    · rw [noCommit]
      exact fun _ none => nomatch none

end Run

end CanonicalWorkRuntimeStateV1

end RabbitLqc
