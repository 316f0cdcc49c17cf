import RabbitLqc.Claims.Pool
import RabbitLqc.Lib.RlpCommit

/-!
# Claims and reorganisations

Packets of claims arrive while the canonical chain changes under the pool. A group that verifies on the canonical
chain of the moment is stored and offered to the next blocks exactly when the pool holds no other signature for one of
its seats; a signature made for a replaced branch is such a signature.
-/

namespace RabbitLqc
open Lib

namespace LqcCommitteeClaimPool

variable {pool : LqcCommitteeClaimPool} {target : UInt64} {position : UInt8} {item : CompactCommitteeParticipationV1}
  {items : List CompactCommitteeParticipationV1} {group : CommitteeParticipationClaimGroupV1}

/-! ### Storing a group -/

theorem claim?_eq_some : pool.claim? target position = some item ↔
    ⟨target, item⟩ ∈ pool.claims.items ∧ item.position = position := by
  simp only [claim?, Option.map_eq_some_iff, KeyedList.get?_eq_some]
  constructor
  · rintro ⟨claim, ⟨member, same⟩, rfl⟩
    obtain ⟨rfl, rfl⟩ := lqcCommitteeClaimKey_inj.mp same
    exact ⟨member, rfl⟩
  · rintro ⟨member, rfl⟩
    exact ⟨_, ⟨member, rfl⟩, rfl⟩

theorem claim?_store_same : (pool.store target item).claim? target item.position = some item :=
  claim?_eq_some.mpr ⟨KeyedList.mem_put.mpr (.inl rfl), rfl⟩

theorem claim?_store_other {block : UInt64} (other : ¬ (target = block ∧ position = item.position)) :
    (pool.store block item).claim? target position = pool.claim? target position := by
  unfold claim? store
  rw [KeyedList.get?_put_other]
  exact fun same => other (lqcCommitteeClaimKey_inj.mp same)

theorem addClaim_same (state : LqcCommitteeClaimPool × Bool) :
    (addClaim target state item).1.claim? target item.position =
      some ((state.1.claim? target item.position).getD item) := by
  unfold addClaim
  cases found : state.1.claim? target item.position with
  | none => simpa [found] using claim?_store_same
  | some previous => simp [found]

theorem addClaim_other (state : LqcCommitteeClaimPool × Bool) (other : position ≠ item.position) :
    (addClaim target state item).1.claim? target position = state.1.claim? target position := by
  unfold addClaim
  split
  · rfl
  · exact claim?_store_other (fun same => other same.2)

theorem foldl_addClaim_other (state : LqcCommitteeClaimPool × Bool)
    (others : ∀ item ∈ items, position ≠ item.position) :
    (items.foldl (addClaim target) state).1.claim? target position = state.1.claim? target position := by
  induction items generalizing state with
  | nil => rfl
  | cons head rest ih =>
    obtain ⟨first, later⟩ := List.forall_mem_cons.mp others
    rw [List.foldl_cons, ih _ later, addClaim_other state first]

theorem foldl_addClaim (state : LqcCommitteeClaimPool × Bool) (distinct : (items.map (·.position)).Nodup)
    (member : item ∈ items) :
    (items.foldl (addClaim target) state).1.claim? target item.position =
      some ((state.1.claim? target item.position).getD item) := by
  induction items generalizing state with
  | nil => cases member
  | cons head rest ih =>
    obtain ⟨apart, restDistinct⟩ := List.nodup_cons.mp distinct
    have fresh : ∀ later ∈ rest, head.position ≠ later.position := fun later inRest same =>
      apart (List.mem_map.mpr ⟨later, inRest, same.symm⟩)
    rw [List.foldl_cons]
    rcases List.mem_cons.mp member with rfl | inRest
    · rw [foldl_addClaim_other _ fresh, addClaim_same]
    · rw [ih _ restDistinct inRest, addClaim_other _ (Ne.symm (fresh item inRest))]

def Extends (pool later : LqcCommitteeClaimPool) : Prop :=
  ∀ target position item, pool.claim? target position = some item → later.claim? target position = some item

theorem Extends.refl (pool : LqcCommitteeClaimPool) : pool.Extends pool := fun _ _ _ stored => stored

theorem Extends.trans {first second third : LqcCommitteeClaimPool} (left : first.Extends second)
    (right : second.Extends third) : first.Extends third :=
  fun target position item stored => right target position item (left target position item stored)

theorem addClaim_extends (state : LqcCommitteeClaimPool × Bool) : state.1.Extends (addClaim target state item).1 := by
  intro block position stored found
  unfold addClaim
  split
  · exact found
  · next free =>
    rw [claim?_store_other, found]
    rintro ⟨rfl, rfl⟩
    simp [found] at free

theorem foldl_addClaim_extends (state : LqcCommitteeClaimPool × Bool) :
    state.1.Extends (items.foldl (addClaim target) state).1 := by
  induction items generalizing state with
  | nil => exact .refl _
  | cons head rest ih => exact (addClaim_extends state).trans (ih _)

theorem add_extends {added : LqcCommitteeClaimPool × Bool} (run : pool.add group = .ok added) :
    pool.Extends added.1 := by
  obtain ⟨_, _, run⟩ := bind_ok run
  obtain ⟨_, _, run⟩ := bind_ok run
  obtain rfl := Except.ok.inj run
  exact foldl_addClaim_extends (pool, false)

def Stores (pool : LqcCommitteeClaimPool) (group : CommitteeParticipationClaimGroupV1) : Prop :=
  ∀ item ∈ group.participations, pool.claim? group.targetBlock item.position = some item

theorem Stores.agrees (stores : pool.Stores group) : pool.Agrees group := by
  intro item member previous found
  rw [Option.mem_def, stores item member] at found
  rw [Option.some.inj found]

theorem new_agrees (group : CommitteeParticipationClaimGroupV1) : newLqcCommitteeClaimPool.Agrees group := by
  intro item member previous found
  cases found

theorem stores_of_contains (contained : pool.contains group = true) : pool.Stores group := by
  intro item member
  simp only [contains, Bool.and_eq_true, List.all_eq_true, Option.any_eq_true, decide_eq_true_eq] at contained
  obtain ⟨stored, found, same⟩ := contained.2 item member
  have position := (claim?_eq_some.mp found).2
  rw [found]
  cases stored
  cases item
  simp_all

theorem Agrees.stores (agrees : pool.Agrees group) (distinct : (group.participations.map (·.position)).Nodup) :
    (group.participations.foldl (addClaim group.targetBlock) (pool, false)).1.Stores group := by
  intro item member
  rw [foldl_addClaim _ distinct member]
  cases found : pool.claim? group.targetBlock item.position with
  | none => rfl
  | some previous =>
    have position := (claim?_eq_some.mp found).2
    have signature := agrees item member previous found
    cases previous
    cases item
    simp_all

/-! ### Offering it -/

def Listed (groups : List CommitteeParticipationClaimGroupV1) (target : UInt64)
    (item : CompactCommitteeParticipationV1) :
    Prop :=
  ∃ group ∈ groups, group.targetBlock = target ∧ item ∈ group.participations

theorem claimCount_append (left right : List CommitteeParticipationClaimGroupV1) :
    claimCount (left ++ right) = claimCount left + claimCount right := by
  simp [claimCount]

theorem takeClaimGroups_listed {byTarget : UInt64 → List CompactCommitteeParticipationV1} {targets : List UInt64}
    {remaining : Nat} (listed : target ∈ targets) (member : item ∈ byTarget target) :
    Listed (takeClaimGroups byTarget remaining targets) target item ∨
      claimCount (takeClaimGroups byTarget remaining targets) = remaining := by
  induction targets generalizing remaining with
  | nil => cases listed
  | cons head rest ih =>
    unfold takeClaimGroups
    dsimp only
    set taken := (sortOn (·.position.toNat) (byTarget head)).take remaining with taken_def
    have within : taken.length ≤ remaining := List.length_take_le ..
    have counted : claimCount (if taken = [] then [] else [⟨head, taken⟩]) = taken.length := by
      split
      · next none => simp [claimCount, none]
      · simp [claimCount]
    by_cases full : remaining - taken.length = 0
    · -- the last place is taken here
      right
      rw [if_pos full, List.append_nil, counted]
      omega
    · rw [if_neg full, claimCount_append, counted]
      rcases List.mem_cons.mp listed with rfl | inRest
      · -- the items of this target all had room
        have cut : taken.length = min remaining (sortOn (·.position.toNat) (byTarget target)).length :=
            List.length_take ..
        have whole : taken = sortOn (·.position.toNat) (byTarget target) := List.take_of_length_le (by omega)
        have inside : item ∈ taken := by
          rw [whole]
          exact mem_sortOn.mpr member
        left
        refine ⟨⟨target, taken⟩, List.mem_append_left _ ?_, rfl, inside⟩
        rw [if_neg (List.ne_nil_of_mem inside)]
        exact List.mem_singleton.mpr rfl
      · rcases @ih (remaining - taken.length) inRest with ⟨group, found, same, inside⟩ | count
        · exact .inl ⟨group, List.mem_append_right _ found, same, inside⟩
        · right
          omega

theorem pending_listed {inclusionBlock : Nat} {claimed : UInt64 → UInt8 → Bool}
    (stored : pool.claim? target item.position = some item) (positive : target.toNat ≠ 0)
    (window : InClaimWindow inclusionBlock target.toNat) (free : claimed target item.position = false) :
    Listed (pool.pending inclusionBlock claimed).1 target item ∨
      claimCount (pool.pending inclusionBlock claimed).1 = maxCommitteeParticipationsV1 := by
  have late : ¬ inclusionBlock ≤ 1 := by
    have := window.1
    omega
  have kept : ⟨target, item⟩ ∈ (pool.prune inclusionBlock).claims.items :=
    List.mem_filter.mpr ⟨(claim?_eq_some.mp stored).1, by simpa using window⟩
  have offered : ⟨target, item⟩ ∈ (pool.prune inclusionBlock).unclaimed claimed :=
    List.mem_filter.mpr ⟨kept, by simp [free]⟩
  unfold pending
  rw [if_neg late]
  apply takeClaimGroups_listed
  · exact mem_sortOn.mpr (List.mem_dedup.mpr (List.mem_map.mpr ⟨_, offered, rfl⟩))
  · exact List.mem_map.mpr ⟨_, List.mem_filter.mpr ⟨offered, by simp⟩, rfl⟩

theorem pending_keeps {inclusionBlock : Nat} (claimed : UInt64 → UInt8 → Bool)
    (window : InClaimWindow inclusionBlock target.toNat) (stored : pool.claim? target position = some item) :
    (pool.pending inclusionBlock claimed).2.claim? target position = some item := by
  unfold pending
  split
  · exact stored
  · obtain ⟨member, same⟩ := claim?_eq_some.mp stored
    exact claim?_eq_some.mpr ⟨List.mem_filter.mpr ⟨member, by simpa using window⟩, same⟩

/-- The claims of the group are stored, and each block of their window that finds them unclaimed is offered them, up to
the number of claims one block may carry. -/
structure Takes (pool : LqcCommitteeClaimPool) (group : CommitteeParticipationClaimGroupV1) : Prop where
  stored : pool.Stores group
  offered : ∀ inclusionBlock claimed, InClaimWindow inclusionBlock group.target → ∀ item ∈ group.participations,
    claimed group.targetBlock item.position = false →
      Listed (pool.pending inclusionBlock claimed).1 group.targetBlock item ∨
        claimCount (pool.pending inclusionBlock claimed).1 = maxCommitteeParticipationsV1

theorem takes_iff_stores (positive : group.target ≠ 0) : pool.Takes group ↔ pool.Stores group :=
  ⟨Takes.stored, fun stored => ⟨stored, fun _ _ window item member free =>
    pending_listed (stored item member) positive window free⟩⟩

end LqcCommitteeClaimPool

/-! ### Taking in a packet -/

section Packets

variable {crypto : Crypto} {committeeContext : UInt64 → Except LqcError CommitteeParticipationVerificationContextV1}
  {group : CommitteeParticipationClaimGroupV1} {peer : Option (List Hash)} {pool : LqcCommitteeClaimPool}

theorem acceptClaimGroup_extends (intake : ClaimIntake) :
    intake.pool.Extends (acceptClaimGroup crypto committeeContext group intake).2.pool := by
  unfold acceptClaimGroup
  dsimp only
  split
  · exact .refl _
  · split
    · exact .refl _
    · split
      · split <;> exact .refl _
      · split
        · next added run => exact LqcCommitteeClaimPool.add_extends run
        · split <;> exact .refl _

theorem acceptClaimGroups_extends (total : Nat) (groups : List CommitteeParticipationClaimGroupV1)
    (intake : ClaimIntake) :
    intake.pool.Extends (acceptClaimGroups crypto committeeContext total groups intake).2.pool := by
  induction groups generalizing total intake with
  | nil => exact .refl _
  | cons group rest ih =>
    have first := @acceptClaimGroup_extends crypto committeeContext group intake
    unfold acceptClaimGroups
    split
    · exact .refl _
    · split
      · next next reply =>
        rw [reply] at first
        exact first.trans (ih _ next)
      · next failure next reply =>
        rw [reply] at first
        exact first

theorem acceptCommitteeClaims_extends (groups : List CommitteeParticipationClaimGroupV1) :
    pool.Extends (acceptCommitteeClaims crypto committeeContext groups peer pool).2.pool := by
  unfold acceptCommitteeClaims
  split
  · exact .refl _
  · exact acceptClaimGroups_extends 0 groups ⟨pool, peer, []⟩

theorem verifyCommitteeClaimGroup_ok (verifies : verifyCommitteeClaimGroup crypto committeeContext group = .ok ()) :
    (group.target ≠ 0 ∧ group.participations ≠ [] ∧ group.participations.length ≤ maxCommitteeParticipationsV1) ∧
      (group.participations.map (·.position)).Nodup := by
  obtain ⟨_, shape, verifies⟩ := bind_ok verifies
  obtain ⟨_, _, verifies⟩ := bind_ok verifies
  obtain ⟨_, verified, _⟩ := bind_ok verifies
  exact ⟨ensure_ok_iff.mp shape, verifyCommitteeParticipationClaimGroupV1_distinct verified⟩

/-- A verified group from a peer that is not known to have it is stored if it meets no other signature, and otherwise
leaves the pool as it was. No error is reported in either case. -/
theorem acceptClaimGroup_verified (intake : ClaimIntake)
    (verifies : verifyCommitteeClaimGroup crypto committeeContext group = .ok ())
    (unknown : intake.knows (lqcCommitteeClaimGroupHash crypto group) = false) :
    (acceptClaimGroup crypto committeeContext group intake).1 = .ok () ∧
      ((acceptClaimGroup crypto committeeContext group intake).2.pool.Stores group ↔ intake.pool.Agrees group) := by
  obtain ⟨shape, distinct⟩ := verifyCommitteeClaimGroup_ok verifies
  unfold acceptClaimGroup
  dsimp only
  rw [unknown, if_neg Bool.false_ne_true]
  by_cases contained : intake.pool.contains group = true
  · have stores := LqcCommitteeClaimPool.stores_of_contains contained
    rw [if_pos contained]
    exact ⟨rfl, fun _ => stores.agrees, fun _ => stores⟩
  · rw [if_neg contained, verifies]
    dsimp only
    unfold LqcCommitteeClaimPool.add
    rw [(ensure_ok_iff (u := ())).mpr shape]
    by_cases agrees : intake.pool.Agrees group
    · rw [(ensure_ok_iff (u := ())).mpr agrees]
      exact ⟨rfl, fun _ => agrees, fun _ => agrees.stores distinct⟩
    · rw [ensure_error_iff.mpr ⟨agrees, rfl⟩]
      exact ⟨rfl, fun stores => absurd (LqcCommitteeClaimPool.Stores.agrees stores) agrees,
        fun meets => absurd meets agrees⟩

theorem acceptCommitteeClaims_verified (verifies : verifyCommitteeClaimGroup crypto committeeContext group = .ok ())
    (unknown : ∀ known ∈ peer, lqcCommitteeClaimGroupHash crypto group ∉ known) :
    (acceptCommitteeClaims crypto committeeContext [group] peer pool).2.pool.Stores group ↔ pool.Agrees group := by
  obtain ⟨shape, _⟩ := verifyCommitteeClaimGroup_ok verifies
  have fresh : (⟨pool, peer, []⟩ : ClaimIntake).knows (lqcCommitteeClaimGroupHash crypto group) = false := by
    cases peer with
    | none => rfl
    | some known => simpa [ClaimIntake.knows] using unknown known rfl
  obtain ⟨done, stores⟩ := acceptClaimGroup_verified ⟨pool, peer, []⟩ verifies fresh
  have single : (acceptCommitteeClaims crypto committeeContext [group] peer pool).2 =
      (acceptClaimGroup crypto committeeContext group ⟨pool, peer, []⟩).2 := by
    rw [acceptCommitteeClaims, if_neg (by simp), acceptClaimGroups, if_neg (by omega)]
    generalize acceptClaimGroup crypto committeeContext group ⟨pool, peer, []⟩ = reply at done
    obtain ⟨result, next⟩ := reply
    cases done
    rfl
  rw [single]
  exact stores

end Packets

/-! ### Packets and reorganisations -/

/-- What a node sees of the canonical chain: the number of its head and the verification context of each block. -/
structure ClaimView where
  head : UInt64
  contextAt : UInt64 → Except LqcError CommitteeParticipationVerificationContextV1

def ClaimView.committeeContext (view : ClaimView) (targetBlock : UInt64) :
    Except LqcError CommitteeParticipationVerificationContextV1 := do
  ensure (targetBlock.toNat ≠ 0 ∧ targetBlock.toNat ≤ view.head.toNat ∧
    view.head.toNat - targetBlock.toNat < committeeParticipationClaimWindowV1) .lqcWorkV1Context
  view.contextAt targetBlock

/-- What reaches the pool: a packet of a peer or a local submission, another canonical chain, a request for the claims
of a block. -/
inductive ClaimEvent where
  | packet (groups : List CommitteeParticipationClaimGroupV1) (peer : Option (List Hash))
  | chain (view : ClaimView)
  | pending (inclusionBlock : Nat) (claimed : UInt64 → UInt8 → Bool)

structure ClaimSystem where
  pool : LqcCommitteeClaimPool
  view : ClaimView

namespace ClaimSystem

variable (crypto : Crypto)

def start (view : ClaimView) : ClaimSystem := ⟨newLqcCommitteeClaimPool, view⟩

def step (system : ClaimSystem) : ClaimEvent → ClaimSystem
  | .packet groups peer =>
    { system with pool := (acceptCommitteeClaims crypto system.view.committeeContext groups peer system.pool).2.pool }
  | .chain view => { system with view }
  | .pending inclusionBlock claimed => { system with pool := (system.pool.pending inclusionBlock claimed).2 }

def run (system : ClaimSystem) (events : List ClaimEvent) : ClaimSystem := events.foldl (step crypto) system

/-- The events fall in the time in which blocks may include a claim for the target. -/
def WithinWindow (target : UInt64) (events : List ClaimEvent) : Prop :=
  ∀ inclusionBlock claimed, .pending inclusionBlock claimed ∈ events → InClaimWindow inclusionBlock target.toNat

variable {crypto}

theorem run_packet (system : ClaimSystem) (events later : List ClaimEvent)
    (groups : List CommitteeParticipationClaimGroupV1) (peer : Option (List Hash)) :
    system.run crypto (events ++ .packet groups peer :: later) =
      ((system.run crypto events).step crypto (.packet groups peer)).run crypto later := by
  rw [run, List.foldl_append, List.foldl_cons]
  rfl

theorem step_packet_extends (system : ClaimSystem) (groups : List CommitteeParticipationClaimGroupV1)
    (peer : Option (List Hash)) : system.pool.Extends (system.step crypto (.packet groups peer)).pool :=
  acceptCommitteeClaims_extends groups

theorem run_keeps {system : ClaimSystem} {events : List ClaimEvent} {target : UInt64} {position : UInt8}
    {item : CompactCommitteeParticipationV1} (within : WithinWindow target events)
    (stored : system.pool.claim? target position = some item) :
    (system.run crypto events).pool.claim? target position = some item := by
  induction events generalizing system with
  | nil => exact stored
  | cons event rest ih =>
    refine ih (fun inclusionBlock claimed member => within inclusionBlock claimed (List.mem_cons_of_mem _ member)) ?_
    cases event with
    | packet groups peer => exact step_packet_extends system groups peer target position item stored
    | chain view => exact stored
    | pending inclusionBlock claimed =>
      exact LqcCommitteeClaimPool.pending_keeps claimed (within inclusionBlock claimed List.mem_cons_self) stored

end ClaimSystem

/-- After any packets and reorganisations, a group that verifies on the canonical chain and is sent in is stored and
offered to the blocks that may include it, as long as there are such blocks, exactly when the pool held no other
signature for one of its seats. -/
theorem verified_claims_taken_iff {crypto : Crypto} {view : ClaimView} {events later : List ClaimEvent}
    {group : CommitteeParticipationClaimGroupV1} {peer : Option (List Hash)}
    (verifies : verifyCommitteeClaimGroup crypto
      ((ClaimSystem.start view).run crypto events).view.committeeContext group = .ok ())
    (unknown : ∀ known ∈ peer, lqcCommitteeClaimGroupHash crypto group ∉ known)
    (within : ClaimSystem.WithinWindow group.targetBlock later) :
    ((ClaimSystem.start view).run crypto (events ++ .packet [group] peer :: later)).pool.Takes group ↔
      ((ClaimSystem.start view).run crypto events).pool.Agrees group := by
  obtain ⟨shape, _⟩ := verifyCommitteeClaimGroup_ok verifies
  rw [LqcCommitteeClaimPool.takes_iff_stores shape.1, ClaimSystem.run_packet]
  constructor
  · intro stores item member previous found
    -- what was stored before the packet is still stored at the end
    have same : some item = some previous := (stores item member).symm.trans
      (ClaimSystem.run_keeps within (ClaimSystem.step_packet_extends _ [group] peer _ _ _ found))
    rw [Option.some.inj same]
  · intro agrees item member
    exact ClaimSystem.run_keeps within ((acceptCommitteeClaims_verified verifies unknown).mpr agrees item member)

/-! ### A claim signed on a branch that was replaced -/

section Replaced

open RlpCodec

def replacedContext (parentHash : Hash) : CommitteeParticipationVerificationContextV1 := ⟨1, 1, parentHash, 1, [⟨1, 7⟩]⟩

def replacedProof (parentHash : Hash) (signature : Bytes) : CommitteeParticipationV1 :=
  ⟨committeeParticipationVersionV1, 1, parentHash, 1, 1, 7, signature⟩

def replacedPayload (parentHash : Hash) : Bytes :=
  Rlp.encode (.list (textItem "RABBIT-LQC-COMMITTEE-PARTICIPATION-SIGN-V1" ::
    ((replacedProof parentHash []).fields 1 ++ [toItem (1 : Hash)])))

def replacedSignature (branch : UInt8) : Bytes := List.replicate 65 branch

def replacedCrypto : Crypto where
  keccak256 bytes := if bytes = replacedPayload 1 then 1 else 2
  recover hash signature := if signature = replacedSignature (if hash = 1 then 1 else 2) then some 7 else none
  randomX _ _ := some 1

def replacedGroup (branch : UInt8) : CommitteeParticipationClaimGroupV1 := ⟨1, [⟨0, replacedSignature branch⟩]⟩

def replacedView (parentHash : Hash) : ClaimView := ⟨1, fun _ => .ok (replacedContext parentHash)⟩

theorem replacedGroup_first :
    verifyCommitteeClaimGroup replacedCrypto (replacedView 1).committeeContext (replacedGroup 1) = .ok () := by
  decide +kernel

theorem replacedGroup_second :
    verifyCommitteeClaimGroup replacedCrypto (replacedView 2).committeeContext (replacedGroup 2) = .ok () := by
  decide +kernel

/-- The first claim of a pool is taken, and stays when the other branch becomes canonical and a block is prepared. -/
theorem verified_claims_taken_iff_first :
    ((ClaimSystem.start (replacedView 1)).run replacedCrypto ([] ++ .packet [replacedGroup 1] none ::
      [.chain (replacedView 2), .pending 2 fun _ _ => false])).pool.Takes (replacedGroup 1) := by
  have verifies : verifyCommitteeClaimGroup replacedCrypto
      ((ClaimSystem.start (replacedView 1)).run replacedCrypto []).view.committeeContext (replacedGroup 1) = .ok () :=
    replacedGroup_first
  refine (verified_claims_taken_iff verifies (by simp) ?_).mpr (LqcCommitteeClaimPool.new_agrees _)
  intro inclusionBlock claimed member
  simp only [List.mem_cons, reduceCtorEq, List.not_mem_nil, or_false, false_or, ClaimEvent.pending.injEq] at member
  obtain ⟨rfl, rfl⟩ := member
  exact ⟨Nat.one_lt_two, Nat.one_le_ofNat⟩

/-- The claim of the first branch arrives, and then the second branch becomes canonical. -/
def replacedEvents : List ClaimEvent := [.packet [replacedGroup 1] none, .chain (replacedView 2)]

theorem replaced_stored :
    ((ClaimSystem.start (replacedView 1)).run replacedCrypto replacedEvents).pool.Stores (replacedGroup 1) := by
  simp only [replacedEvents, ClaimSystem.run, List.foldl_cons, List.foldl_nil, ClaimSystem.step, ClaimSystem.start]
  exact (acceptCommitteeClaims_verified replacedGroup_first (by simp)).mpr (LqcCommitteeClaimPool.new_agrees _)

theorem replaced_view : ((ClaimSystem.start (replacedView 1)).run replacedCrypto replacedEvents).view =
    replacedView 2 := by
  simp only [replacedEvents, ClaimSystem.run, List.foldl_cons, List.foldl_nil, ClaimSystem.step]

/-- A claim that verifies on the chain that became canonical is not taken, whoever sends it. -/
theorem replaced_claim_refused :
    ¬ ∀ (crypto : Crypto) (view : ClaimView) (events : List ClaimEvent) (group : CommitteeParticipationClaimGroupV1),
      verifyCommitteeClaimGroup crypto ((ClaimSystem.start view).run crypto events).view.committeeContext group =
        .ok () →
      ∃ peer, ((ClaimSystem.start view).run crypto (events ++ [.packet [group] peer])).pool.Takes group := by
  intro taken
  obtain ⟨peer, takes⟩ := taken replacedCrypto (replacedView 1) replacedEvents (replacedGroup 2)
    (replaced_view.symm ▸ replacedGroup_second)
  have first := replaced_stored ⟨0, replacedSignature 1⟩ (List.mem_singleton.mpr rfl)
  have second := takes.stored ⟨0, replacedSignature 2⟩ (List.mem_singleton.mpr rfl)
  rw [ClaimSystem.run_packet] at second
  have kept := @ClaimSystem.step_packet_extends replacedCrypto _ [replacedGroup 2] peer _ _ _ first
  have same := Option.some.inj (kept.symm.trans second)
  simp [replacedSignature] at same

end Replaced

end RabbitLqc
