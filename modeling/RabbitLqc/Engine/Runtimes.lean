import RabbitLqc.Engine.Branches
import RabbitLqc.Work.Schedule

/-!
# Work states along a branch

Whatever kind a header is of, the work state after it is the one of its parent moved by one block.
So the electing epoch follows from the height, and two blocks of one chain epoch have the same one.
-/

namespace RabbitLqc
open Lib

/-! ### One block -/

namespace CanonicalWorkRuntimeStateV1

variable {crypto : Crypto} {chainID blockNumber : Nat} {blockHash parentHash anchor : Hash}
  {verified : List VerifiedRandomXWorkTicketV1} {state next : CanonicalWorkRuntimeStateV1}

/-- The closed epoch that elects is the one before the open epoch, from the third chain epoch on. -/
def ElectsOnTime (state : CanonicalWorkRuntimeStateV1) : Prop :=
  (state.work.selection = none ∧ state.openEpoch < 2) ∨
    ∃ selection, state.work.selection = some selection ∧ selection.epoch + 1 = state.openEpoch ∧
      2 ≤ state.openEpoch

theorem Step.length (step : Step crypto chainID blockNumber blockHash parentHash anchor verified state next) :
    next.work.epochLength = state.work.epochLength := by
  obtain ⟨_, _, advances⟩ := step.advances
  cases next with
  | mk work difficulty => cases advances <;> rfl

theorem Step.block (step : Step crypto chainID blockNumber blockHash parentHash anchor verified state next) :
    next.work.number = state.work.number + 1 ∧ next.work.hash = blockHash := by
  obtain ⟨_, _, advances⟩ := step.advances
  have number := step.follows.number
  cases next with
  | mk work difficulty => cases advances <;> exact ⟨number, rfl⟩

theorem Step.electsOnTime
    (step : Step crypto chainID blockNumber blockHash parentHash anchor verified state next)
    (elects : state.ElectsOnTime) : next.ElectsOnTime := by
  obtain ⟨number, _⟩ := step.block
  have length := step.length
  have positive := step.valid.work.fields.2.2
  have cases_ := succ_div_cases state.work.number state.work.epochLength
  unfold ElectsOnTime openEpoch at elects ⊢
  rw [number, length]
  obtain ⟨_, follows, ⟨_, _, advances⟩, _, _⟩ := step
  have target := @workCommitTargetEpochV1_succ state.work.number _ positive
  rw [← follows.number] at target
  cases next with
  | mk work difficulty =>
    cases advances with
    | idle early =>
      -- nothing is open yet, so at most the first epoch opens now
      have first : state.work.number / state.work.epochLength = 0 := by
        by_contra started
        rw [if_neg started] at target
        cases target.symm.trans early
      rcases elects with ⟨none, _⟩ | ⟨_, _, _, started⟩
      · exact .inl ⟨none, by omega⟩
      · omega
    | commits _ _ _ _ _ within =>
      have stays : (state.work.number + 1) / state.work.epochLength =
          state.work.number / state.work.epochLength := by
        rcases cases_ with ⟨last, _⟩ | ⟨_, stays⟩
        · exact absurd (follows.number ▸ last) within
        · exact stays
      rw [stays]
      exact elects
    | closes targeted _ _ opens admits last closed =>
      have moves : (state.work.number + 1) / state.work.epochLength =
          state.work.number / state.work.epochLength + 1 := by
        rcases cases_ with ⟨_, moves⟩ | ⟨within, _⟩
        · exact moves
        · exact absurd (follows.number ▸ last) within
      have epoch := Except.ok.inj (target.symm.trans targeted)
      split at epoch
      · cases epoch
      · rename_i started
        obtain ⟨_, rfl⟩ := WorkChainSnapshotV1.closeEpoch_ok closed
        obtain ⟨sameEpoch, _⟩ := WorkChainSnapshotV1.openCommit_ok opens
        have joined := admits.context.1.trans sameEpoch
        rw [moves]
        refine .inr ⟨_, rfl, ?_, Nat.succ_le_succ (Nat.one_le_iff_ne_zero.mpr started)⟩
        show _ + 1 = _ + 1
        rw [Option.some.inj epoch, ← joined]
        rfl

end CanonicalWorkRuntimeStateV1

/-! ### One header -/

variable {lqc : LQC} {branch rest newer : Branch} {header : Header} {entry parent older : Entry}
  {state before : CanonicalWorkRuntimeStateV1}

def MovesWork (lqc : LQC) (header : Header) (before after : CanonicalWorkRuntimeStateV1) : Prop :=
  ∃ anchor verified, CanonicalWorkRuntimeStateV1.Step lqc.crypto lqc.chainID header.number
    (header.hash lqc.crypto) before.work.hash anchor verified before after

theorem replayRuntime_moves {runtime : Except LqcError CanonicalWorkRuntimeStateV1}
    (made : lqc.replayRuntime header runtime = .ok state) :
    ∃ before, runtime = .ok before ∧ MovesWork lqc header before state := by
  unfold LQC.replayRuntime at made
  obtain ⟨before, found, made⟩ := bind_ok made
  obtain ⟨target, _, made⟩ := bind_ok made
  cases target with
  | some epoch => cases made
  | none => exact ⟨before, found, 0, [], CanonicalWorkRuntimeStateV1.applyVerifiedBlockV1_step made⟩

theorem workV1EngineLabContext_ok {registryRoot : Hash} {ctx : LQCHeaderWorkRuntimeContextV1}
    (made : lqc.workV1EngineLabContext branch header before registryRoot = .ok ctx) :
    ctx.chainID = lqc.chainID ∧ ctx.parent = before ∧ ctx.blockNumber = UInt64.ofNat header.number ∧
      ctx.registryRoot = registryRoot := by
  unfold LQC.workV1EngineLabContext at made
  obtain ⟨target, _, made⟩ := bind_ok made
  cases target with
  | none =>
    obtain rfl := Except.ok.inj made
    exact ⟨rfl, rfl, rfl, rfl⟩
  | some epoch =>
    obtain ⟨datasetNumber, _, made⟩ := bind_ok made
    obtain ⟨challengeNumber, _, made⟩ := bind_ok made
    split at made
    · obtain rfl := Except.ok.inj made
      exact ⟨rfl, rfl, rfl, rfl⟩
    · cases made

theorem toNat_ofNat_of_le {number : Nat} (bounded : number ≤ maxUint64) :
    (UInt64.ofNat number).toNat = number := by
  refine UInt64.toNat_ofNat_of_lt' (show number < 2 ^ 64 from ?_)
  unfold maxUint64 at bounded
  omega

theorem WorkStep.applied {envelope : WorkEnvelope} (step : WorkStep lqc branch header envelope)
    (decoded : lqc.decodeWorkEnvelope header = .ok (some envelope)) (bounded : header.number ≤ maxUint64) :
    ∃ verified epoch, step.ctx.verifyTickets lqc.crypto envelope.base.workTickets = .ok verified ∧
      workCommitTargetEpochV1 header.number step.runtime.work.epochLength = .ok epoch ∧
      CanonicalWorkRuntimeStateV1.Step lqc.crypto lqc.chainID header.number (header.hash lqc.crypto)
        step.runtime.work.hash (if epoch.isSome then step.ctx.challengeAnchor else 0) verified step.runtime
        step.next := by
  obtain ⟨chainID, parent, number, _⟩ := workV1EngineLabContext_ok step.ctx_eq
  have work := step.work decoded
  obtain ⟨next, post, made⟩ := bind_ok work.sealed
  obtain ⟨_, _, made⟩ := bind_ok made
  obtain ⟨_, _, made⟩ := bind_ok made
  obtain rfl := Except.ok.inj made
  obtain ⟨verified, checked, post⟩ := bind_ok post
  obtain ⟨epoch, scheduled, post⟩ := bind_ok post
  unfold LQCHeaderWorkRuntimeContextV1.commitEpoch at scheduled
  rw [parent, number, toNat_ofNat_of_le bounded] at scheduled
  rw [if_neg work.hash, chainID, parent, number, toNat_ofNat_of_le bounded] at post
  exact ⟨verified, epoch, checked, scheduled, CanonicalWorkRuntimeStateV1.applyVerifiedBlockV1_step post⟩

theorem WorkStep.moves {envelope : WorkEnvelope} (step : WorkStep lqc branch header envelope)
    (decoded : lqc.decodeWorkEnvelope header = .ok (some envelope)) (bounded : header.number ≤ maxUint64) :
    MovesWork lqc header step.runtime step.next := by
  obtain ⟨verified, epoch, _, _, moved⟩ := step.applied decoded bounded
  exact ⟨_, verified, moved⟩

theorem AcceptedAs.moves (accepted : AcceptedAs lqc branch header entry) (bounded : header.number ≤ maxUint64)
    (made : entry.runtime = .ok state) :
    ∃ before, LQC.parentRuntime branch = .ok before ∧ MovesWork lqc header before state := by
  cases accepted with
  | work decoded _ step =>
    obtain rfl := Except.ok.inj made
    exact ⟨step.runtime, step.runtime_eq, step.moves decoded bounded⟩
  | plain => exact replayRuntime_moves made
  | legacy =>
    obtain ⟨before, found, made⟩ := bind_ok made
    obtain ⟨_, _, made⟩ := bind_ok made
    obtain ⟨_, same, moves⟩ := replayRuntime_moves made
    obtain rfl := Except.ok.inj same
    exact ⟨before, found, moves⟩

/-! ### Branches -/

/-- The work state of an entry is the one of its block. -/
structure RuntimeAt (lqc : LQC) (entry : Entry) (state : CanonicalWorkRuntimeStateV1) : Prop where
  made : entry.runtime = .ok state
  number : state.work.number = entry.header.number
  hash : state.work.hash = entry.header.hash lqc.crypto
  length : state.work.epochLength = workProtocolEpochLengthV1
  valid : state.Valid lqc.crypto lqc.chainID
  elects : state.ElectsOnTime

theorem RuntimeAt.openEpoch (at_ : RuntimeAt lqc entry state) :
    state.openEpoch = entry.header.number / workProtocolEpochLengthV1 := by
  unfold CanonicalWorkRuntimeStateV1.openEpoch
  rw [at_.number, at_.length]

theorem RuntimeAt.moved (at_ : RuntimeAt lqc parent before) (moves : MovesWork lqc entry.header before state)
    (made : entry.runtime = .ok state) : RuntimeAt lqc entry state := by
  obtain ⟨anchor, verified, step⟩ := moves
  obtain ⟨number, hash⟩ := step.block
  exact ⟨made, number.trans step.follows.number.symm, hash, step.length.trans at_.length, step.nextValid,
    step.electsOnTime at_.elects⟩

theorem genesis_runtimeAt (first : header.number = 0) (made : lqc.genesisRuntime header = .ok state) :
    RuntimeAt lqc (lqc.genesisEntry header) state := by
  have run := made
  unfold LQC.genesisRuntime at run
  obtain ⟨_, _, run⟩ := bind_ok run
  obtain ⟨rfl, valid⟩ := CanonicalWorkRuntimeStateV1.newCanonicalWorkRuntimeStateV1_ok run
  exact ⟨made, first.symm, rfl, rfl, valid, .inl ⟨rfl, show 0 / workProtocolEpochLengthV1 < 2 by decide⟩⟩

theorem Accepted.runtimes (accepted : Accepted lqc (entry :: rest)) (made : entry.runtime = .ok state) :
    RuntimeAt lqc entry state ∧ ∀ older ∈ rest, ∃ before, RuntimeAt lqc older before := by
  induction rest generalizing entry state with
  | nil =>
    cases accepted with
    | genesis header first => exact ⟨genesis_runtimeAt first made, by simp⟩
    | extend below _ => exact absurd rfl below.ne_nil
  | cons parent rest ih =>
    obtain ⟨below, links, as⟩ := accepted.extended
    obtain ⟨before, found, moves⟩ := as.moves links.bounded made
    obtain ⟨at_, others⟩ := ih below found
    refine ⟨at_.moved moves made, fun older member => ?_⟩
    rcases List.mem_cons.mp member with rfl | further
    · exact ⟨before, at_⟩
    · exact others older further

/-! ### Ancestors -/

theorem Accepted.exists_number (accepted : Accepted lqc (entry :: rest)) {number : Nat}
    (below : number ≤ entry.header.number) : ∃ older ∈ entry :: rest, older.header.number = number := by
  induction rest generalizing entry with
  | nil =>
    cases accepted with
    | genesis header first =>
      have zero : (lqc.genesisEntry header).header.number = 0 := first
      exact ⟨_, List.mem_singleton_self _, by omega⟩
    | extend below _ => exact absurd rfl below.ne_nil
  | cons parent rest ih =>
    obtain ⟨accepted, links, _⟩ := accepted.extended
    have next := links.number
    by_cases same : number = entry.header.number
    · exact ⟨entry, List.mem_cons_self, same.symm⟩
    · obtain ⟨older, member, found⟩ := ih accepted (by omega)
      exact ⟨older, List.mem_cons_of_mem _ member, found⟩

theorem Accepted.ancestor?_eq (accepted : Accepted lqc branch) (member : older ∈ branch) {fromNumber : Nat}
    (below : older.header.number ≤ fromNumber) :
    branch.ancestor? fromNumber older.header.number = some older := by
  unfold Branch.ancestor?
  rw [if_pos below]
  have descending := accepted.numbers
  clear accepted
  induction branch with
  | nil => cases member
  | cons entry rest ih =>
    obtain ⟨greater, descending⟩ := List.pairwise_cons.mp descending
    rcases List.mem_cons.mp member with rfl | further
    · exact List.find?_cons_of_pos (by simp)
    · have := greater older further
      rw [List.find?_cons_of_neg (by simp; omega)]
      exact ih further descending

end RabbitLqc
