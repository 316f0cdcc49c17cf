import RabbitLqc.Engine.Acceptance

/-!
# The work of the next block

On every accepted branch with a work state the anchors of the next block are there and the open epoch
was opened under them, so a block whose tickets fit, an empty one to begin with, has a work root to
commit to.
-/

namespace RabbitLqc
open Lib

variable {lqc : LQC} {branch rest : Branch} {header : Header} {entry parent : Entry}
  {state before : CanonicalWorkRuntimeStateV1}

/-! ### Anchors -/

/-- The block whose hash the tickets of an epoch are made for. -/
def challengeNumber (epoch : Nat) : Nat :=
  if epoch ≤ 1 then 1 else (epoch - 1) * workProtocolEpochLengthV1

/-- The block whose hash keys the dataset of an epoch. -/
def datasetNumber (epoch : Nat) : Nat :=
  if epoch ≤ 2 then 0 else (epoch - 2) * workProtocolEpochLengthV1

theorem anchorBlock_eq {delay first epoch : Nat} (started : epoch ≠ 0)
    (bounded : epoch ≤ maxUint64 / workProtocolEpochLengthV1) :
    anchorBlock delay first epoch workProtocolEpochLengthV1 =
      .ok (if epoch ≤ delay then first else (epoch - delay) * workProtocolEpochLengthV1) := by
  have context : ensure (epoch ≠ 0 ∧ workProtocolEpochLengthV1 ≠ 0)
      LqcError.invalidWorkAnchorScheduleV1 = .ok () := ensure_ok_iff.mpr ⟨started, by decide⟩
  refine bind_ok_iff.mpr ⟨(), context, ?_⟩
  split
  · rfl
  · exact ensure_bind_ok_iff.mpr ⟨((Nat.sub_le _ _).trans bounded), rfl⟩

theorem workV1EngineLabContext_cases (accepted : Accepted lqc (parent :: rest))
    (had : RuntimeAt lqc parent state) (number : header.number = parent.header.number + 1)
    (bounded : header.number ≤ maxUint64) (registryRoot : Hash) :
    (state.openEpoch = 0 ∧ lqc.workV1EngineLabContext (parent :: rest) header state registryRoot =
        .ok ⟨lqc.chainID, state, UInt64.ofNat header.number, registryRoot, 0, 0⟩) ∨
      (state.openEpoch ≠ 0 ∧ ∃ dataset ∈ parent :: rest, ∃ challenge ∈ parent :: rest,
        dataset.header.number = datasetNumber state.openEpoch ∧
        challenge.header.number = challengeNumber state.openEpoch ∧
        lqc.workV1EngineLabContext (parent :: rest) header state registryRoot =
          .ok ⟨lqc.chainID, state, UInt64.ofNat header.number, registryRoot,
            dataset.header.hash lqc.crypto, challenge.header.hash lqc.crypto⟩) := by
  have target := @workCommitTargetEpochV1_succ state.work.number _ had.valid.work.fields.2.2
  have opened := had.openEpoch
  rw [had.number, ← number] at target
  unfold LQC.workV1EngineLabContext
  by_cases early : state.openEpoch = 0
  · refine .inl ⟨early, bind_ok_iff.mpr ⟨none, ?_, rfl⟩⟩
    rw [target, ← had.number, if_pos (show state.work.number / state.work.epochLength = 0 from early)]
  · have started : ¬ parent.header.number / state.work.epochLength = 0 := by
      rw [had.length, ← opened]
      exact early
    rw [if_neg started, had.length, ← opened] at target
    have small : state.openEpoch ≤ maxUint64 / workProtocolEpochLengthV1 := by
      rw [opened]
      exact Nat.div_le_div_right (by omega)
    have whole : state.openEpoch * 128 ≤ parent.header.number := by
      rw [opened]
      exact Nat.div_mul_le_self _ _
    obtain ⟨dataset, isDataset, datasetAt⟩ := accepted.exists_number
      (show datasetNumber state.openEpoch ≤ parent.header.number by
        unfold datasetNumber workProtocolEpochLengthV1
        split <;> omega)
    obtain ⟨challenge, isChallenge, challengeAt⟩ := accepted.exists_number
      (show challengeNumber state.openEpoch ≤ parent.header.number by
        unfold challengeNumber workProtocolEpochLengthV1
        split <;> omega)
    have below {older : Entry} (member : older ∈ parent :: rest) :
        older.header.number ≤ state.work.number := by
      rw [had.number]
      rcases List.mem_cons.mp member with rfl | further
      · exact le_rfl
      · exact ((List.pairwise_cons.mp accepted.numbers).1 older further).le
    have foundDataset := accepted.ancestor?_eq isDataset (below isDataset)
    have foundChallenge := accepted.ancestor?_eq isChallenge (below isChallenge)
    rw [datasetAt] at foundDataset
    rw [challengeAt] at foundChallenge
    refine .inr ⟨early, dataset, isDataset, challenge, isChallenge, datasetAt, challengeAt, ?_⟩
    rw [had.length]
    refine bind_ok_iff.mpr ⟨_, target, bind_ok_iff.mpr ⟨datasetNumber state.openEpoch,
      anchorBlock_eq early small, bind_ok_iff.mpr ⟨challengeNumber state.openEpoch,
        anchorBlock_eq early small, ?_⟩⟩⟩
    rw [foundDataset, foundChallenge]

/-! ### The schedule along a branch -/

/-- The state of a branch whose blocks brought `tickets`, with its open epoch anchored on the branch. -/
structure Scheduled (lqc : LQC) (branch : Branch) (tickets : List VerifiedRandomXWorkTicketV1)
    (state : CanonicalWorkRuntimeStateV1) : Prop where
  schedule : state.OnSchedule lqc.config.proofDifficulty tickets
  holds : state.work.HoldsSeatsOf tickets
  anchored : ∀ commit, state.work.commit = some commit → ∃ entry ∈ branch,
    entry.header.number = challengeNumber commit.epoch ∧ commit.anchor = entry.header.hash lqc.crypto

theorem Scheduled.seats {tickets : List VerifiedRandomXWorkTicketV1}
    (scheduled : Scheduled lqc branch tickets state) (empty : tickets = []) :
    state.work.selectionSeats = [] ∧ state.work.commitSeats = [] := by
  subst empty
  exact ⟨scheduled.schedule.closedSeats.eq_nil, scheduled.schedule.openSeats.eq_nil⟩

theorem Scheduled.windowAnchor {tickets : List VerifiedRandomXWorkTicketV1} {challenge : Entry}
    (nonzero : ∀ bytes, lqc.crypto.keccak256 bytes ≠ 0) (accepted : Accepted lqc branch)
    (scheduled : Scheduled lqc branch tickets state) (started : state.openEpoch ≠ 0)
    (member : challenge ∈ branch) (number : challenge.header.number = challengeNumber state.openEpoch) :
    state.WindowAnchor (challenge.header.hash lqc.crypto) := by
  refine ⟨fun early => absurd early started, fun _ => ⟨nonzero _, fun commit present => ?_⟩⟩
  obtain ⟨anchor, listed, anchorNumber, same⟩ := scheduled.anchored commit present
  have epoch : commit.epoch = state.openEpoch := by
    rcases scheduled.schedule.commit with ⟨none, _⟩ | ⟨_, some, _, epoch, _⟩
    · cases none.symm.trans present
    · obtain rfl := Option.some.inj (present.symm.trans some)
      exact epoch
  have found := accepted.ancestor?_eq listed le_rfl
  have foundToo := accepted.ancestor?_eq member le_rfl
  rw [anchorNumber, epoch] at found
  rw [number] at foundToo
  obtain rfl := Option.some.inj (found.symm.trans foundToo)
  exact same

theorem WorkStep.scheduled {envelope : WorkEnvelope} {tickets verified : List VerifiedRandomXWorkTicketV1}
    (nonzero : ∀ bytes, lqc.crypto.keccak256 bytes ≠ 0) (positive : lqc.config.proofDifficulty ≠ 0)
    (accepted : Accepted lqc (parent :: rest)) (links : Links lqc parent.header header)
    (step : WorkStep lqc (parent :: rest) header envelope)
    (decoded : lqc.decodeWorkEnvelope header = .ok (some envelope))
    (checked : step.ctx.verifyTickets lqc.crypto envelope.base.workTickets = .ok verified)
    (scheduled : Scheduled lqc (parent :: rest) tickets step.runtime) :
    Scheduled lqc (step.entry :: parent :: rest) (tickets ++ verified) step.next := by
  obtain ⟨_, epoch, same, target, moved⟩ := step.applied decoded links.bounded
  obtain rfl := Except.ok.inj (checked.symm.trans same)
  have had := (accepted.runtimes step.runtime_eq).1
  refine ⟨moved.onSchedule nonzero positive scheduled.schedule, ?_, ?_⟩
  · obtain ⟨_, _, advances⟩ := moved.advances
    exact advances.holds ⟨scheduled.holds.seats, scheduled.holds.participants⟩
  · intro commit present
    obtain ⟨_, _, ⟨_, _, advances⟩, _, _⟩ := moved
    cases stepNext : step.next with
    | mk work difficulty =>
      rw [stepNext] at advances present
      cases advances with
      | idle =>
        obtain ⟨anchor, member, found⟩ := scheduled.anchored commit present
        exact ⟨anchor, List.mem_cons_of_mem _ member, found⟩
      | commits targeted context _ opens admits =>
        obtain rfl := Except.ok.inj (target.symm.trans targeted)
        obtain rfl := Option.some.inj present
        obtain ⟨sameEpoch, sameAnchor, _⟩ := WorkChainSnapshotV1.openCommit_ok opens
        obtain ⟨commitEpoch, commitAnchor, _⟩ := admits.context
        rw [links.number, ← had.number, workCommitTargetEpochV1_succ had.valid.work.fields.2.2] at target
        have open' := Except.ok.inj target
        rcases workV1EngineLabContext_cases accepted had links.number links.bounded
            envelope.base.registryRoot with ⟨early, _⟩ | ⟨started, _, _, challenge, member, _, number, ctx⟩
        · rw [if_pos (show step.runtime.work.number / step.runtime.work.epochLength = 0 from early)] at open'
          cases open'
        · rw [if_neg (show ¬ step.runtime.work.number / step.runtime.work.epochLength = 0 from started),
            Option.some.injEq] at open'
          refine ⟨challenge, List.mem_cons_of_mem _ member, ?_, ?_⟩
          · rw [commitEpoch, sameEpoch, ← open']
            exact number
          · rw [commitAnchor, sameAnchor, Except.ok.inj (step.ctx_eq.symm.trans ctx)]
            rfl
      | closes => cases present

/-! ### The work of the next block -/

section NextBlock

variable {registryRoot : Hash} {ctx : LQCHeaderWorkRuntimeContextV1}
  {tickets verified : List VerifiedRandomXWorkTicketV1} {signed : List SignedRandomXWorkTicketV1}
  (nonzero : ∀ bytes, lqc.crypto.keccak256 bytes ≠ 0) (accepted : Accepted lqc (parent :: rest))
  (had : RuntimeAt lqc parent state) (number : header.number = parent.header.number + 1)
  (bounded : header.number ≤ maxUint64)
  (made : lqc.workV1EngineLabContext (parent :: rest) header state registryRoot = .ok ctx)

include had number bounded made

theorem commitEpoch_next : ctx.commitEpoch =
    .ok (if state.openEpoch = 0 then none else some state.openEpoch) := by
  obtain ⟨_, parent_eq, block, _⟩ := workV1EngineLabContext_ok made
  unfold LQCHeaderWorkRuntimeContextV1.commitEpoch
  rw [parent_eq, block, toNat_ofNat_of_le bounded, number, ← had.number,
    workCommitTargetEpochV1_succ had.valid.work.fields.2.2]
  rfl

include nonzero accepted

theorem context_validate (root : registryRoot ≠ 0) : ctx.validate lqc.crypto = .ok () := by
  have scheduled := commitEpoch_next had number bounded made
  have chain := had.valid.work.fields.1
  have positive : (UInt64.ofNat header.number) ≠ 0 := by
    intro zero
    have value := congrArg UInt64.toNat zero
    rw [toNat_ofNat_of_le bounded] at value
    simp at value
    omega
  have follows : state.work.number ≠ maxUint64 ∧
      (UInt64.ofNat header.number).toNat = state.work.number + 1 := by
    rw [toNat_ofNat_of_le bounded, had.number]
    exact ⟨by omega, number⟩
  have valid : state.validate lqc.crypto lqc.chainID = .ok () :=
    (CanonicalWorkRuntimeStateV1.validate_ok_iff nonzero).mpr had.valid
  unfold LQCHeaderWorkRuntimeContextV1.validate
  rw [scheduled]
  simp only [bind_ok_iff, exists_unit, ensure_ok_iff, Except.ok.injEq, exists_eq_left']
  rcases workV1EngineLabContext_cases accepted had number bounded registryRoot with
    ⟨early, same⟩ | ⟨started, dataset, _, challenge, _, _, _, same⟩
  · obtain rfl := Except.ok.inj (made.symm.trans same)
    rw [if_pos early]
    exact ⟨⟨chain, positive, root⟩, valid, follows, ensure_ok_iff.mpr ⟨rfl, rfl⟩⟩
  · obtain rfl := Except.ok.inj (made.symm.trans same)
    rw [if_neg started]
    exact ⟨⟨chain, positive, root⟩, valid, follows, ensure_ok_iff.mpr ⟨nonzero _, nonzero _⟩⟩

/-- With verified tickets of the open epoch and distinct seats, the next block of a scheduled branch has a work root. -/
theorem Scheduled.expectedWork (positive : lqc.config.proofDifficulty ≠ 0)
    (scheduled : Scheduled lqc (parent :: rest) tickets state)
    (checked : ctx.verifyTickets lqc.crypto signed = .ok verified)
    (open' : state.openEpoch = 0 → verified = [])
    (same : ∀ item ∈ verified, item.ticket.epoch.toNat = state.openEpoch)
    (valid : ∀ item ∈ verified, checkVerified item = .ok ())
    (set : SeatSet (state.work.selectionSeats ++ (state.work.commitSeats ++ verified.map (·.seat)))) :
    ∃ root, ctx.expectedWork lqc.crypto signed = .ok root ∧ root ≠ 0 := by
  have epochRoom : state.openEpoch ≤ maxUint64 - 2 := by
    have opened := had.openEpoch
    unfold workProtocolEpochLengthV1 at opened
    unfold maxUint64 at bounded ⊢
    omega
  have room : state.work.number ≠ maxUint64 := by
    rw [had.number]
    omega
  have commitEpoch := commitEpoch_next had number bounded made
  have window : state.WindowAnchor
      (if (if state.openEpoch = 0 then none else some state.openEpoch).isSome then ctx.challengeAnchor else 0) := by
    rcases workV1EngineLabContext_cases accepted had number bounded registryRoot with
      ⟨early, _⟩ | ⟨started, _, _, challenge, member, _, anchored, context⟩
    · rw [if_pos early]
      exact ⟨fun _ => rfl, fun started => absurd early started⟩
    · rw [if_neg started, Except.ok.inj (made.symm.trans context)]
      exact scheduled.windowAnchor nonzero accepted started member anchored
  obtain ⟨chain, rfl, block, _⟩ := workV1EngineLabContext_ok made
  obtain ⟨next, applied⟩ := scheduled.schedule.applies nonzero positive had.valid open' same valid set room
    epochRoom (show ctx.placeholderHash lqc.crypto ≠ 0 from nonzero _) window
  rw [had.number, ← number, ← toNat_ofNat_of_le bounded, ← block, ← chain] at applied
  exact LQCHeaderWorkRuntimeContextV1.expectedWork_of nonzero commitEpoch checked applied

omit accepted in
theorem Scheduled.commitDifficulty (scheduled : Scheduled lqc (parent :: rest) tickets state)
    (started : state.openEpoch ≠ 0) :
    ctx.parent.commitDifficultyV1 lqc.crypto ctx.chainID ctx.blockNumber.toNat =
      .ok (some (ticketDifficulty lqc.config.proofDifficulty tickets state.openEpoch)) := by
  obtain ⟨chain, parent_eq, block, _⟩ := workV1EngineLabContext_ok made
  rw [chain, parent_eq, block, toNat_ofNat_of_le bounded, number, ← had.number]
  exact (CanonicalWorkRuntimeStateV1.commitDifficultyV1_ok_iff nonzero).mpr ⟨had.valid,
    .inr ⟨started, scheduled.schedule.scheduled started, Option.some_ne_none _⟩⟩

theorem Scheduled.verifyTickets_open (positive : lqc.config.proofDifficulty ≠ 0)
    (scheduled : Scheduled lqc (parent :: rest) tickets state) (root : registryRoot ≠ 0)
    (started : state.openEpoch ≠ 0)
    (canonical : checkCanonicalTickets signed maxWorkTicketsPerBlockV1 = .ok ()) :
    ∃ key, ctx.verifyTickets lqc.crypto signed = signed.mapM (ctx.verifyTicket lqc.crypto state.openEpoch
      (ticketDifficulty lqc.config.proofDifficulty tickets state.openEpoch) key) := by
  have commits := commitEpoch_next had number bounded made
  rw [if_neg started] at commits
  exact LQCHeaderWorkRuntimeContextV1.verifyTickets_open
    (context_validate nonzero accepted had number bounded made root) commits started
    (scheduled.commitDifficulty nonzero had number bounded made started) (epochDifficulty_ne_zero positive _)
    canonical

theorem Scheduled.verifyTickets_nil (positive : lqc.config.proofDifficulty ≠ 0)
    (scheduled : Scheduled lqc (parent :: rest) tickets state) (root : registryRoot ≠ 0) :
    ctx.verifyTickets lqc.crypto [] = .ok [] := by
  refine LQCHeaderWorkRuntimeContextV1.verifyTickets_nil
    (context_validate nonzero accepted had number bounded made root) fun epoch targeted => ?_
  have open' := Except.ok.inj ((commitEpoch_next had number bounded made).symm.trans targeted)
  split at open'
  · cases open'
  · rename_i started
    obtain rfl := Option.some.inj open'
    exact ⟨started, _, scheduled.commitDifficulty nonzero had number bounded made started,
      epochDifficulty_ne_zero positive _⟩

end NextBlock

end RabbitLqc
