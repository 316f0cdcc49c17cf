import RabbitLqc.Claims.Participation
import RabbitLqc.Lib.KeyedList

/-!
# The committee claim pool

A node keeps the claims it verified until a block includes them. A claim is stored under the block it is for and the
committee position of its seat. The branch that its signature binds is no part of that key.
-/

namespace RabbitLqc
open Lib

/-! ### Stored claims -/

structure LqcCommitteeClaim where
  targetBlock : UInt64
  compact : CompactCommitteeParticipationV1
  deriving DecidableEq

/-- The map key as a number: blocks in order, and the positions of one block in order. -/
def lqcCommitteeClaimKey (targetBlock : UInt64) (position : UInt8) : Nat :=
  targetBlock.toNat * 256 + position.toNat

theorem lqcCommitteeClaimKey_inj {target target' : UInt64} {position position' : UInt8} :
    lqcCommitteeClaimKey target position = lqcCommitteeClaimKey target' position' ↔
      target = target' ∧ position = position' := by
  constructor
  · intro same
    have small := position.toNat_lt
    have small' := position'.toNat_lt
    unfold lqcCommitteeClaimKey at same
    exact ⟨UInt64.toNat.inj (by omega), UInt8.toNat.inj (by omega)⟩
  · rintro ⟨rfl, rfl⟩
    rfl

def LqcCommitteeClaim.key (claim : LqcCommitteeClaim) : Nat :=
  lqcCommitteeClaimKey claim.targetBlock claim.compact.position

structure LqcCommitteeClaimPool where
  claims : KeyedList LqcCommitteeClaim LqcCommitteeClaim.key

def newLqcCommitteeClaimPool : LqcCommitteeClaimPool := ⟨.empty⟩

namespace LqcCommitteeClaimPool

def claim? (pool : LqcCommitteeClaimPool) (targetBlock : UInt64) (position : UInt8) :
    Option CompactCommitteeParticipationV1 :=
  (pool.claims.get? (lqcCommitteeClaimKey targetBlock position)).map (·.compact)

def store (pool : LqcCommitteeClaimPool) (targetBlock : UInt64) (item : CompactCommitteeParticipationV1) :
    LqcCommitteeClaimPool :=
  ⟨pool.claims.put ⟨targetBlock, item⟩⟩

def Agrees (pool : LqcCommitteeClaimPool) (group : CommitteeParticipationClaimGroupV1) : Prop :=
  ∀ item ∈ group.participations, ∀ previous ∈ pool.claim? group.targetBlock item.position,
    previous.signature = item.signature

instance (pool : LqcCommitteeClaimPool) (group : CommitteeParticipationClaimGroupV1) : Decidable (pool.Agrees group) :=
  inferInstanceAs (Decidable (∀ item ∈ group.participations, _))

/-- One turn of the second loop of `add`; the flag says whether anything was stored. -/
def addClaim (targetBlock : UInt64) (state : LqcCommitteeClaimPool × Bool) (item : CompactCommitteeParticipationV1) :
    LqcCommitteeClaimPool × Bool :=
  if (state.1.claim? targetBlock item.position).isSome then state else (state.1.store targetBlock item, true)

def add (pool : LqcCommitteeClaimPool) (group : CommitteeParticipationClaimGroupV1) :
    Except LqcError (LqcCommitteeClaimPool × Bool) := do
  ensure (group.target ≠ 0 ∧ group.participations ≠ [] ∧
    group.participations.length ≤ maxCommitteeParticipationsV1) .lqcCommitteeClaimPool
  ensure (pool.Agrees group) .duplicateCommitteeParticipationClaimV1
  .ok (group.participations.foldl (addClaim group.targetBlock) (pool, false))

def contains (pool : LqcCommitteeClaimPool) (group : CommitteeParticipationClaimGroupV1) : Bool :=
  decide (group.target ≠ 0 ∧ group.participations ≠ []) &&
    group.participations.all fun item =>
      (pool.claim? group.targetBlock item.position).any (·.signature = item.signature)

end LqcCommitteeClaimPool

/-! ### Pending claims -/

def InClaimWindow (inclusionBlock target : Nat) : Prop :=
  target < inclusionBlock ∧ inclusionBlock - target ≤ committeeParticipationClaimWindowV1

instance (inclusionBlock target : Nat) : Decidable (InClaimWindow inclusionBlock target) :=
  inferInstanceAs (Decidable (_ ∧ _))

/-- The loop over the targets in order, with room for so many more claims. -/
def takeClaimGroups (byTarget : UInt64 → List CompactCommitteeParticipationV1) :
    Nat → List UInt64 → List CommitteeParticipationClaimGroupV1
  | _, [] => []
  | remaining, target :: rest =>
    let items := (sortOn (·.position.toNat) (byTarget target)).take remaining
    let groups := if items = [] then [] else [⟨target, items⟩]
    groups ++ if remaining - items.length = 0 then [] else takeClaimGroups byTarget (remaining - items.length) rest

namespace LqcCommitteeClaimPool

def prune (pool : LqcCommitteeClaimPool) (inclusionBlock : Nat) : LqcCommitteeClaimPool :=
  ⟨pool.claims.filter fun claim => InClaimWindow inclusionBlock claim.targetBlock.toNat⟩

def unclaimed (pool : LqcCommitteeClaimPool) (claimed : UInt64 → UInt8 → Bool) : List LqcCommitteeClaim :=
  pool.claims.items.filter fun claim => !claimed claim.targetBlock claim.compact.position

/-- The claims offered to a block, and the pool once the others are pruned. -/
def pending (pool : LqcCommitteeClaimPool) (inclusionBlock : Nat) (claimed : UInt64 → UInt8 → Bool) :
    List CommitteeParticipationClaimGroupV1 × LqcCommitteeClaimPool :=
  if inclusionBlock ≤ 1 then ([], pool)
  else
    let kept := pool.prune inclusionBlock
    let offered := kept.unclaimed claimed
    let byTarget := fun target => (offered.filter (·.targetBlock = target)).map (·.compact)
    (takeClaimGroups byTarget maxCommitteeParticipationsV1
      (sortOn UInt64.toNat (offered.map (·.targetBlock)).dedup), kept)

end LqcCommitteeClaimPool

/-! ### Claim packets -/

def lqcWorkV1MaxKnownPerPeer : Nat := 4096

def markKnown (known : List Hash) (hash : Hash) : List Hash :=
  if lqcWorkV1MaxKnownPerPeer ≤ known.length then [hash] else known.insert hash

def lqcCommitteeClaimGroupHash (crypto : Crypto) (group : CommitteeParticipationClaimGroupV1) : Hash :=
  crypto.keccak256 (Rlp.encode (RlpCodec.toItem group))

/-- The pool while a packet is taken in, what the sending peer is known to have (none for a local submission) and the
groups to relay. -/
structure ClaimIntake where
  pool : LqcCommitteeClaimPool
  peer : Option (List Hash)
  accepted : List CommitteeParticipationClaimGroupV1

namespace ClaimIntake

def knows (intake : ClaimIntake) (hash : Hash) : Bool := intake.peer.any (hash ∈ ·)

def marked (intake : ClaimIntake) (hash : Hash) : ClaimIntake :=
  { intake with peer := intake.peer.map (markKnown · hash) }

def stored (intake : ClaimIntake) (group : CommitteeParticipationClaimGroupV1) (added : LqcCommitteeClaimPool × Bool) :
    ClaimIntake :=
  { intake with pool := added.1, accepted := if added.2 then intake.accepted ++ [group] else intake.accepted }

end ClaimIntake

section Packets

variable (crypto : Crypto) (committeeContext : UInt64 → Except LqcError CommitteeParticipationVerificationContextV1)

def verifyCommitteeClaimGroup (group : CommitteeParticipationClaimGroupV1) : Except LqcError Unit := do
  ensure (group.target ≠ 0 ∧ group.participations ≠ [] ∧
    group.participations.length ≤ maxCommitteeParticipationsV1) .lqcWorkV1Context
  let ctx ← committeeContext group.targetBlock
  let _ ← verifyCommitteeParticipationClaimGroupV1 crypto ctx group
  .ok ()

/-- One turn of the packet loop, after the bound. What earlier groups changed stays when a later one fails. -/
def acceptClaimGroup (group : CommitteeParticipationClaimGroupV1) (intake : ClaimIntake) :
    Except LqcError Unit × ClaimIntake :=
  let hash := lqcCommitteeClaimGroupHash crypto group
  if intake.knows hash then (.ok (), intake)
  else if intake.pool.contains group then (.ok (), intake.marked hash)
  else match verifyCommitteeClaimGroup crypto committeeContext group with
    | .error failure =>
      -- a peer on a fork may relay a claim signed there; a local submission sees every failure
      if intake.peer.isSome ∧ failure = .invalidCommitteeSignatureV1 then (.ok (), intake)
      else (.error failure, intake)
    | .ok () => match intake.pool.add group with
      | .ok added => (.ok (), (intake.marked hash).stored group added)
      | .error failure =>
        if failure = .duplicateCommitteeParticipationClaimV1 then (.ok (), intake.marked hash)
        else (.error failure, intake)

def acceptClaimGroups : Nat → List CommitteeParticipationClaimGroupV1 → ClaimIntake → Except LqcError Unit × ClaimIntake
  | _, [], intake => (.ok (), intake)
  | total, group :: rest, intake =>
    if maxCommitteeParticipationsV1 < total + group.participations.length then
      (.error .tooManyCommitteeParticipationsV1, intake)
    else match acceptClaimGroup crypto committeeContext group intake with
      | (.ok (), next) => acceptClaimGroups (total + group.participations.length) rest next
      | (.error failure, next) => (.error failure, next)

def acceptCommitteeClaims (groups : List CommitteeParticipationClaimGroupV1) (peer : Option (List Hash))
    (pool : LqcCommitteeClaimPool) : Except LqcError Unit × ClaimIntake :=
  if groups = [] then (.error .emptyCommitteeClaimsPacket, ⟨pool, peer, []⟩)
  else acceptClaimGroups crypto committeeContext 0 groups ⟨pool, peer, []⟩

end Packets

end RabbitLqc
