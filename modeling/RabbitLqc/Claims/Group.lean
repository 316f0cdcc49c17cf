import RabbitLqc.Basic

/-!
# Committee participation claim groups

The claims a header carries, grouped by the block they are for, and the canonical form the
claim window, the batch bound and the duplicate checks leave.
-/

namespace RabbitLqc
open Lib

variable {u : Unit} {inclusionBlock : Nat}

def maxCommitteeParticipationsV1 : Nat := 128

def committeeParticipationClaimWindowV1 : Nat := 8

/-- One proof as it travels: the committee position stands for the seat. -/
structure CompactCommitteeParticipationV1 where
  position : UInt8
  signature : Bytes
  deriving DecidableEq, Repr

structure CommitteeParticipationClaimGroupV1 where
  targetBlock : UInt64
  participations : List CompactCommitteeParticipationV1
  deriving DecidableEq, Repr

variable {groups out : List CommitteeParticipationClaimGroupV1} {group : CommitteeParticipationClaimGroupV1}

instance : RlpCodec CompactCommitteeParticipationV1 where
  toItem item := .list [RlpCodec.toItem item.position, RlpCodec.toItem item.signature]
  ofItem
    | .list [position, signature] => do
      some ⟨← RlpCodec.ofItem position, ← RlpCodec.ofItem signature⟩
    | _ => none
  ofItem_toItem item := by simp

instance : RlpCodec CommitteeParticipationClaimGroupV1 where
  toItem group := .list [RlpCodec.toItem group.targetBlock, RlpCodec.toItem group.participations]
  ofItem
    | .list [targetBlock, participations] => do
      some ⟨← RlpCodec.ofItem targetBlock, ← RlpCodec.ofItem participations⟩
    | _ => none
  ofItem_toItem group := by simp

def CommitteeParticipationClaimGroupV1.target (group : CommitteeParticipationClaimGroupV1) : Nat :=
  group.targetBlock.toNat

/-- The position loop over one group, `seen` the positions already met. -/
def checkClaimPositions : List UInt8 → List CompactCommitteeParticipationV1 → Except LqcError Unit
  | _, [] => .ok ()
  | seen, item :: rest => do
    ensure (item.position.toNat < maxCommitteeParticipationsV1 ∧
      item.signature.length = signatureLength) .invalidCommitteeParticipationClaimV1
    ensure (item.position ∉ seen) .duplicateCommitteeParticipationClaimV1
    checkClaimPositions (item.position :: seen) rest

def CommitteeParticipationClaimGroupV1.sorted (group : CommitteeParticipationClaimGroupV1) :
    CommitteeParticipationClaimGroupV1 :=
  { group with participations := sortOn (·.position.toNat) group.participations }

/-- The group loop: `total` proofs and the targets in `seen` came before. -/
def canonicalClaimGroupsFrom (inclusionBlock : Nat) :
    Nat → List Nat → List CommitteeParticipationClaimGroupV1 →
    Except LqcError (List CommitteeParticipationClaimGroupV1)
  | _, _, [] => .ok []
  | total, seen, group :: rest => do
    ensure (group.target ≠ 0 ∧ group.target < inclusionBlock ∧
      group.participations ≠ []) .invalidCommitteeParticipationClaimV1
    ensure (inclusionBlock - group.target ≤ committeeParticipationClaimWindowV1)
      .expiredCommitteeParticipationClaimV1
    ensure (group.target ∉ seen) .duplicateCommitteeParticipationClaimV1
    ensure (total + group.participations.length ≤ maxCommitteeParticipationsV1)
      .tooManyCommitteeParticipationsV1
    checkClaimPositions [] group.participations
    let out ← canonicalClaimGroupsFrom inclusionBlock (total + group.participations.length)
      (group.target :: seen) rest
    pure (group.sorted :: out)

def canonicalCommitteeParticipationClaimGroupsV1 (inclusionBlock : Nat)
    (input : List CommitteeParticipationClaimGroupV1) :
    Except LqcError (List CommitteeParticipationClaimGroupV1) := do
  ensure (1 < inclusionBlock) .invalidCommitteeParticipationClaimV1
  let out ← canonicalClaimGroupsFrom inclusionBlock 0 [] input
  pure (sortOn (·.target) out)

def validateCanonicalCommitteeParticipationClaimGroupsV1 (inclusionBlock : Nat)
    (input : List CommitteeParticipationClaimGroupV1) : Except LqcError Unit := do
  let canonical ← canonicalCommitteeParticipationClaimGroupsV1 inclusionBlock input
  ensure (canonical = input) .nonCanonicalCommitteeClaimsV1

/-! ### What is accepted -/

/-- A group one block may include, by its own content. -/
structure CommitteeParticipationClaimGroupV1.Valid (inclusionBlock : Nat)
    (group : CommitteeParticipationClaimGroupV1) : Prop where
  positive : group.target ≠ 0
  past : group.target < inclusionBlock
  inWindow : inclusionBlock ≤ group.target + committeeParticipationClaimWindowV1
  nonempty : group.participations ≠ []
  position_lt : ∀ item ∈ group.participations, item.position.toNat < maxCommitteeParticipationsV1
  signature_length : ∀ item ∈ group.participations, item.signature.length = signatureLength
  distinct : (group.participations.map (·.position)).Nodup

def claimCount (groups : List CommitteeParticipationClaimGroupV1) : Nat :=
  (groups.map (·.participations.length)).sum

/-- The claim groups block `inclusionBlock` may include, whatever was claimed before. -/
structure ValidClaimGroups (inclusionBlock : Nat)
    (groups : List CommitteeParticipationClaimGroupV1) : Prop where
  inclusion : 1 < inclusionBlock
  each : ∀ group ∈ groups, group.Valid inclusionBlock
  targets : (groups.map (·.target)).Nodup
  count : claimCount groups ≤ maxCommitteeParticipationsV1

theorem checkClaimPositions_ok_iff {seen : List UInt8} {items : List CompactCommitteeParticipationV1} :
    checkClaimPositions seen items = .ok u ↔
      (∀ item ∈ items, item.position.toNat < maxCommitteeParticipationsV1) ∧
      (∀ item ∈ items, item.signature.length = signatureLength) ∧
      (items.map (·.position)).Nodup ∧ ∀ item ∈ items, item.position ∉ seen := by
  induction items generalizing seen with
  | nil => simp [checkClaimPositions]
  | cons item rest ih =>
    simp only [checkClaimPositions, ensure_bind_ok_iff, ih, List.mem_cons, forall_eq_or_imp, List.map_cons,
      List.nodup_cons, List.mem_map, not_exists, not_and, not_or]
    grind

theorem canonicalClaimGroupsFrom_ok_iff {total : Nat} {seen : List Nat} :
    canonicalClaimGroupsFrom inclusionBlock total seen groups = .ok out ↔
      (∀ group ∈ groups, group.Valid inclusionBlock) ∧
      (groups.map (·.target)).Nodup ∧ (∀ group ∈ groups, group.target ∉ seen) ∧
      (groups = [] ∨ total + claimCount groups ≤ maxCommitteeParticipationsV1) ∧
      out = groups.map (·.sorted) := by
  induction groups generalizing total seen out with
  | nil => simp [canonicalClaimGroupsFrom, eq_comm]
  | cons group rest ih =>
    simp only [canonicalClaimGroupsFrom, bind_ok_iff, ensure_ok_iff, exists_unit, ih,
      checkClaimPositions_ok_iff, pure_ok_iff]
    constructor
    · rintro ⟨⟨positive, past, nonempty⟩, window, fresh, small, ⟨lt, len, distinct, -⟩, _,
        ⟨each, targets, apart, count, rfl⟩, rfl⟩
      refine ⟨?_, ?_, ?_, .inr ?_, rfl⟩
      · rintro g (_ | ⟨_, member⟩)
        · exact ⟨positive, past, by omega, nonempty, lt, len, distinct⟩
        · exact each g member
      · simp only [List.map_cons, List.nodup_cons, List.mem_map, not_exists, not_and]
        exact ⟨fun g member same => apart g member (same ▸ List.mem_cons_self), targets⟩
      · rintro g (_ | ⟨_, member⟩)
        · exact fresh
        · exact fun old => apart g member (List.mem_cons_of_mem _ old)
      · rcases count with rfl | count
        · simpa [claimCount] using small
        · simp only [claimCount, List.map_cons, List.sum_cons] at count ⊢
          omega
    · rintro ⟨each, targets, apart, count, rfl⟩
      have valid := each group List.mem_cons_self
      have bound : total + claimCount (group :: rest) ≤ maxCommitteeParticipationsV1 := by
        simpa using count
      simp only [claimCount, List.map_cons, List.sum_cons] at bound
      simp only [List.map_cons, List.nodup_cons, List.mem_map, not_exists, not_and] at targets
      refine ⟨⟨valid.positive, valid.past, valid.nonempty⟩, by have := valid.inWindow; omega,
        apart group List.mem_cons_self, by omega,
        ⟨valid.position_lt, valid.signature_length, valid.distinct, by simp⟩, _,
        ⟨fun g member => each g (List.mem_cons_of_mem _ member), targets.2, ?_, .inr ?_, rfl⟩, rfl⟩
      · intro g member old
        rcases List.mem_cons.mp old with same | old
        · exact targets.1 g member same
        · exact apart g (List.mem_cons_of_mem _ member) old
      · simp only [claimCount]
        omega

def canonicalGroups (groups : List CommitteeParticipationClaimGroupV1) :
    List CommitteeParticipationClaimGroupV1 :=
  sortOn (·.target) (groups.map (·.sorted))

theorem canonicalClaimGroups_ok_iff :
    canonicalCommitteeParticipationClaimGroupsV1 inclusionBlock groups = .ok out ↔
      ValidClaimGroups inclusionBlock groups ∧
      out = canonicalGroups groups := by
  simp only [canonicalCommitteeParticipationClaimGroupsV1, bind_ok_iff, ensure_ok_iff, exists_unit,
    canonicalClaimGroupsFrom_ok_iff, pure_ok_iff]
  constructor
  · rintro ⟨inclusion, _, ⟨each, targets, -, count, rfl⟩, rfl⟩
    refine ⟨⟨inclusion, each, targets, ?_⟩, rfl⟩
    rcases count with rfl | count
    · simp [claimCount]
    · simpa using count
  · rintro ⟨valid, rfl⟩
    exact ⟨valid.inclusion, _, ⟨valid.each, valid.targets, by simp, .inr (by simpa using valid.count),
      rfl⟩, rfl⟩

@[simp] theorem CommitteeParticipationClaimGroupV1.sorted_sorted
    (group : CommitteeParticipationClaimGroupV1) : group.sorted.sorted = group.sorted := by
  unfold sorted
  rw [sortOn_sortOn]

theorem CommitteeParticipationClaimGroupV1.Valid.sorted (valid : group.Valid inclusionBlock) :
    group.sorted.Valid inclusionBlock where
  positive := valid.positive
  past := valid.past
  inWindow := valid.inWindow
  nonempty empty := by
    have size : group.sorted.participations.length = group.participations.length := length_sortOn
    rw [empty] at size
    exact valid.nonempty (List.length_eq_zero_iff.mp size.symm)
  position_lt item member := valid.position_lt item (mem_sortOn.mp member)
  signature_length item member := valid.signature_length item (mem_sortOn.mp member)
  distinct := (sortOn_perm.map _).nodup_iff.mpr valid.distinct

theorem mem_canonicalGroups : group ∈ canonicalGroups groups ↔ ∃ original ∈ groups, original.sorted = group := by
  simp [canonicalGroups]

theorem claimCount_canonicalGroups (groups : List CommitteeParticipationClaimGroupV1) :
    claimCount (canonicalGroups groups) = claimCount groups := by
  have perm : (canonicalGroups groups).Perm (groups.map (·.sorted)) := sortOn_perm
  unfold claimCount
  rw [(perm.map _).sum_eq, List.map_map]
  congr 1
  exact List.map_congr_left fun group _ => length_sortOn

theorem ValidClaimGroups.canonical (valid : ValidClaimGroups inclusionBlock groups) :
    ValidClaimGroups inclusionBlock (canonicalGroups groups) where
  inclusion := valid.inclusion
  each group member := by
    obtain ⟨original, inGroups, rfl⟩ := mem_canonicalGroups.mp member
    exact (valid.each original inGroups).sorted
  targets := by
    have perm : (canonicalGroups groups).Perm (groups.map (·.sorted)) := sortOn_perm
    rw [(perm.map _).nodup_iff, List.map_map]
    exact valid.targets
  count := (claimCount_canonicalGroups groups).trans_le valid.count

@[simp] theorem canonicalGroups_idem (groups : List CommitteeParticipationClaimGroupV1) :
    canonicalGroups (canonicalGroups groups) = canonicalGroups groups := by
  have sortedAlready : (canonicalGroups groups).map (·.sorted) = canonicalGroups groups := by
    refine (List.map_congr_left fun group member => ?_).trans (List.map_id _)
    obtain ⟨original, _, rfl⟩ := mem_canonicalGroups.mp member
    exact original.sorted_sorted
  unfold canonicalGroups at sortedAlready ⊢
  rw [sortedAlready, sortOn_sortOn]

theorem validateCanonicalClaimGroups_ok_iff :
    validateCanonicalCommitteeParticipationClaimGroupsV1 inclusionBlock groups = .ok u ↔
      ValidClaimGroups inclusionBlock groups ∧ canonicalGroups groups = groups := by
  simp only [validateCanonicalCommitteeParticipationClaimGroupsV1, bind_ok_iff, ensure_ok_iff,
    canonicalClaimGroups_ok_iff]
  constructor
  · intro checks
    obtain ⟨_, ⟨valid, rfl⟩, same⟩ := checks
    exact ⟨valid, same⟩
  · intro listed
    obtain ⟨valid, same⟩ := listed
    exact ⟨_, ⟨valid, rfl⟩, same⟩

end RabbitLqc
