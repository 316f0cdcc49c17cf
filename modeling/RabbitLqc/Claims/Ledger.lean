import RabbitLqc.Claims.Group
import RabbitLqc.Lib.Bitmap

/-!
# The committee claim ledger

The ledger records the claimed committee positions of the eight target blocks that can still be
claimed. `apply` is what one block does to it; a run is one `apply` after another.
-/

namespace RabbitLqc
open Lib

variable {u : Unit} {target position inclusionBlock : Nat} {group : CommitteeParticipationClaimGroupV1}
  {groups : List CommitteeParticipationClaimGroupV1} {items : List CompactCommitteeParticipationV1}

abbrev committeeClaimBitmapBytesV1 : Nat := 16

structure CommitteeClaimBitmapV1 where
  targetBlock : Nat
  claimed : Bitmap committeeClaimBitmapBytesV1
  deriving DecidableEq

variable {windows out : List CommitteeClaimBitmapV1} {window : CommitteeClaimBitmapV1}

structure CommitteeClaimLedgerV1 where
  windows : List CommitteeClaimBitmapV1
  deriving DecidableEq

def newCommitteeClaimLedgerV1 : CommitteeClaimLedgerV1 := ⟨[]⟩

/-- The window loop of `validate`; `previous` is the target of the window before. -/
def validateWindows : Option Nat → List CommitteeClaimBitmapV1 → Except LqcError Unit
  | _, [] => .ok ()
  | previous, window :: rest => do
    ensure (window.targetBlock ≠ 0 ∧ window.claimed.isEmpty = false ∧
      ∀ target ∈ previous, target < window.targetBlock) .invalidCommitteeClaimLedgerV1
    validateWindows (some window.targetBlock) rest

namespace CommitteeClaimLedgerV1

def validate (ledger : CommitteeClaimLedgerV1) : Except LqcError Unit := do
  ensure (ledger.windows.length ≤ committeeParticipationClaimWindowV1) .invalidCommitteeClaimLedgerV1
  validateWindows none ledger.windows

def isClaimed (ledger : CommitteeClaimLedgerV1) (targetBlock : Nat) (position : UInt8) : Bool :=
  decide (position.toNat < maxCommitteeParticipationsV1) &&
    match ledger.windows.find? (·.targetBlock = targetBlock) with
    | some window => window.claimed.test position.toNat
    | none => false

end CommitteeClaimLedgerV1

/-- Mark the proofs of one group in its window, refusing a bit that is already set. -/
def CommitteeClaimBitmapV1.mark :
    CommitteeClaimBitmapV1 → List CompactCommitteeParticipationV1 →
    Except LqcError CommitteeClaimBitmapV1
  | window, [] => .ok window
  | window, claim :: rest => do
    ensure (window.claimed.test claim.position.toNat = false) .committeeParticipationClaimedV1
    mark { window with claimed := window.claimed.insert claim.position.toNat } rest

/-- Mark a group in the window of its target, which is appended when there is none. -/
def markGroup (group : CommitteeParticipationClaimGroupV1) :
    List CommitteeClaimBitmapV1 → Except LqcError (List CommitteeClaimBitmapV1)
  | [] => do
    let window ← CommitteeClaimBitmapV1.mark ⟨group.target, Bitmap.empty _⟩ group.participations
    pure [window]
  | window :: rest =>
    if window.targetBlock = group.target then do
      let marked ← window.mark group.participations
      pure (marked :: rest)
    else do
      let tail ← markGroup group rest
      pure (window :: tail)

def markGroups : List CommitteeClaimBitmapV1 → List CommitteeParticipationClaimGroupV1 →
    Except LqcError (List CommitteeClaimBitmapV1)
  | windows, [] => .ok windows
  | windows, group :: rest => do
    let next ← markGroup group windows
    markGroups next rest

namespace CommitteeClaimLedgerV1

/-- The windows block `inclusionBlock` can still add claims to. -/
def keptWindows (ledger : CommitteeClaimLedgerV1) (inclusionBlock : Nat) :
    List CommitteeClaimBitmapV1 :=
  ledger.windows.filter fun window => window.targetBlock < inclusionBlock ∧
    inclusionBlock - window.targetBlock ≤ committeeParticipationClaimWindowV1

/-- `apply` up to its last validation. -/
def applyUnchecked (ledger : CommitteeClaimLedgerV1) (inclusionBlock : Nat)
    (groups : List CommitteeParticipationClaimGroupV1) :
    Except LqcError CommitteeClaimLedgerV1 := do
  ledger.validate
  let canonical ← canonicalCommitteeParticipationClaimGroupsV1 inclusionBlock groups
  let windows ← markGroups (ledger.keptWindows inclusionBlock) canonical
  pure ⟨sortOn (·.targetBlock) windows⟩

def apply (ledger : CommitteeClaimLedgerV1) (inclusionBlock : Nat)
    (groups : List CommitteeParticipationClaimGroupV1) :
    Except LqcError CommitteeClaimLedgerV1 := do
  let next ← ledger.applyUnchecked inclusionBlock groups
  next.validate
  pure next

end CommitteeClaimLedgerV1

/-! ### Well-formed windows -/

/-- Position `position` of target `target` is marked in some window. -/
def Recorded (windows : List CommitteeClaimBitmapV1) (target position : Nat) : Prop :=
  ∃ window ∈ windows, window.targetBlock = target ∧ window.claimed.test position = true

/-- Every window has a target and a mark, and no two windows share a target. -/
structure WellFormedWindows (windows : List CommitteeClaimBitmapV1) : Prop where
  positive : ∀ window ∈ windows, window.targetBlock ≠ 0
  marked : ∀ window ∈ windows, ∃ position < maxCommitteeParticipationsV1,
    window.claimed.test position = true
  targets : (windows.map (·.targetBlock)).Nodup

theorem validateWindows_ok_iff {previous : Option Nat} : validateWindows previous windows = .ok u ↔
      (∀ window ∈ windows, window.targetBlock ≠ 0 ∧ window.claimed.isEmpty = false) ∧
      (windows.Pairwise fun a b => a.targetBlock < b.targetBlock) ∧
      ∀ target ∈ previous, ∀ window ∈ windows, target < window.targetBlock := by
  induction windows generalizing previous with
  | nil => simp [validateWindows]
  | cons window rest ih =>
    simp only [validateWindows, ensure_bind_ok_iff, ih, List.mem_cons, forall_eq_or_imp, List.pairwise_cons,
      Option.mem_some_iff, forall_eq']
    constructor
    · rintro ⟨⟨positive, marked, above⟩, each, sorted, below⟩
      exact ⟨⟨⟨positive, marked⟩, each⟩, ⟨below, sorted⟩, fun target member =>
        ⟨above target member, fun w inRest => (above target member).trans (below w inRest)⟩⟩
    · rintro ⟨⟨⟨positive, marked⟩, each⟩, ⟨below, sorted⟩, above⟩
      exact ⟨⟨positive, marked, fun target member => (above target member).1⟩, each, sorted, below⟩

theorem CommitteeClaimLedgerV1.validate_ok_iff {ledger : CommitteeClaimLedgerV1} :
    ledger.validate = .ok u ↔
      ledger.windows.length ≤ committeeParticipationClaimWindowV1 ∧
      (ledger.windows.Pairwise fun a b => a.targetBlock < b.targetBlock) ∧
      WellFormedWindows ledger.windows := by
  simp only [validate, ensure_bind_ok_iff, validateWindows_ok_iff, Bitmap.isEmpty_eq_false_iff]
  constructor
  · rintro ⟨few, each, sorted, -⟩
    exact ⟨few, sorted, fun w member => (each w member).1, fun w member => (each w member).2,
      strict_keys_nodup sorted⟩
  · rintro ⟨few, sorted, wellFormed⟩
    exact ⟨few, fun w member => ⟨wellFormed.positive w member, wellFormed.marked w member⟩, sorted,
      by simp⟩

/-! ### Marking -/

/-- Some group claims position `position` of target `target`. -/
def Claims (groups : List CommitteeParticipationClaimGroupV1) (target position : Nat) : Prop :=
  ∃ group ∈ groups, group.target = target ∧
    ∃ item ∈ group.participations, item.position.toNat = position

@[simp] theorem claims_nil : ¬ Claims [] target position := by
  simp [Claims]

theorem claims_cons :
    Claims (group :: groups) target position ↔
      (group.target = target ∧ ∃ item ∈ group.participations,
        item.position.toNat = position) ∨ Claims groups target position := by
  simp [Claims]

theorem position_byte_lt (small : position < maxCommitteeParticipationsV1) :
    position / 8 < committeeClaimBitmapBytesV1 := by
  simp only [maxCommitteeParticipationsV1] at small
  simp only [committeeClaimBitmapBytesV1]
  omega

theorem mark_ok {out : CommitteeClaimBitmapV1}
    (small : ∀ item ∈ items, item.position.toNat < maxCommitteeParticipationsV1) (h : window.mark items = .ok out) :
    out.targetBlock = window.targetBlock ∧ ∀ position, out.claimed.test position = true ↔
      window.claimed.test position = true ∨ ∃ item ∈ items, item.position.toNat = position := by
  induction items generalizing window with
  | nil =>
    obtain rfl : window = out := Except.ok.inj h
    simp
  | cons claim rest ih =>
    obtain ⟨_, _, h⟩ := bind_ok h
    obtain ⟨target, tests⟩ := ih (fun item member => small item (List.mem_cons_of_mem _ member)) h
    refine ⟨target, fun position => ?_⟩
    rw [tests, Bitmap.test_insert _ (position_byte_lt (small claim List.mem_cons_self))]
    simp only [List.mem_cons, exists_eq_or_imp]
    rw [or_assoc, eq_comm (a := position)]

theorem mark_exists_iff (small : ∀ item ∈ items, item.position.toNat < maxCommitteeParticipationsV1)
    (distinct : (items.map (·.position)).Nodup) :
    (∃ out, window.mark items = .ok out) ↔
      ∀ item ∈ items, ¬ window.claimed.test item.position.toNat = true := by
  induction items generalizing window with
  | nil => simp [CommitteeClaimBitmapV1.mark]
  | cons claim rest ih =>
    obtain ⟨fresh, distinct⟩ := List.nodup_cons.mp distinct
    have restSmall : ∀ item ∈ rest, item.position.toNat < maxCommitteeParticipationsV1 :=
      fun item member => small item (List.mem_cons_of_mem _ member)
    simp only [CommitteeClaimBitmapV1.mark, ensure_bind_ok_iff, exists_and_left, ih restSmall distinct,
      List.mem_cons, forall_eq_or_imp, Bool.not_eq_true]
    refine and_congr_right fun _ => forall₂_congr fun item member => ?_
    have apart : item.position.toNat ≠ claim.position.toNat := fun same =>
      fresh (List.mem_map.mpr ⟨item, member, UInt8.toNat_inj.mp same⟩)
    rw [← Bool.not_eq_true, ← Bool.not_eq_true,
      Bitmap.test_insert _ (position_byte_lt (small claim List.mem_cons_self))]
    simp [apart]

theorem markGroup_targets (small : ∀ item ∈ group.participations, item.position.toNat < maxCommitteeParticipationsV1)
    (h : markGroup group windows = .ok out) :
    out.map (·.targetBlock) = if group.target ∈ windows.map (·.targetBlock)
      then windows.map (·.targetBlock)
      else windows.map (·.targetBlock) ++ [group.target] := by
  induction windows generalizing out with
  | nil =>
    obtain ⟨window, marked, h⟩ := bind_ok h
    obtain rfl := Except.ok.inj h
    simp [(mark_ok small marked).1]
  | cons window rest ih =>
    unfold markGroup at h
    split at h
    · rename_i same
      obtain ⟨marked, run, h⟩ := bind_ok h
      obtain rfl := Except.ok.inj h
      simp [(mark_ok small run).1, same]
    · rename_i different
      obtain ⟨tail, run, h⟩ := bind_ok h
      obtain rfl := Except.ok.inj h
      simp only [List.map_cons, ih run, List.mem_cons, Ne.symm different, false_or]
      split <;> simp

theorem markGroup_recorded (small : ∀ item ∈ group.participations, item.position.toNat < maxCommitteeParticipationsV1)
    (h : markGroup group windows = .ok out) (target position : Nat) :
    Recorded out target position ↔
      Recorded windows target position ∨ Claims [group] target position := by
  induction windows generalizing out with
  | nil =>
    obtain ⟨window, run, h⟩ := bind_ok h
    obtain rfl := Except.ok.inj h
    obtain ⟨targetEq, tests⟩ := mark_ok small run
    simp [Recorded, claims_cons, targetEq, tests]
  | cons window rest ih =>
    unfold markGroup at h
    split at h
    · rename_i same
      obtain ⟨marked, run, h⟩ := bind_ok h
      obtain rfl := Except.ok.inj h
      obtain ⟨targetEq, tests⟩ := mark_ok small run
      simp only [Recorded, List.mem_cons, exists_eq_or_imp, targetEq, tests, same, claims_cons,
        claims_nil, or_false, and_or_left]
      exact or_right_comm
    · obtain ⟨tail, run, h⟩ := bind_ok h
      obtain rfl := Except.ok.inj h
      have tailRecorded := ih run
      simp only [Recorded, List.mem_cons, exists_eq_or_imp] at tailRecorded ⊢
      rw [tailRecorded, or_assoc]

theorem markGroup_exists_iff
    (small : ∀ item ∈ group.participations, item.position.toNat < maxCommitteeParticipationsV1)
    (distinct : (group.participations.map (·.position)).Nodup) (targets : (windows.map (·.targetBlock)).Nodup) :
    (∃ out, markGroup group windows = .ok out) ↔
      ∀ item ∈ group.participations,
        ¬ Recorded windows group.target item.position.toNat := by
  induction windows with
  | nil =>
    simp only [markGroup, bind_ok_iff, pure_ok_iff]
    rw [exists_comm]
    simp only [exists_and_left, exists_eq', and_true, mark_exists_iff small distinct]
    simp [Recorded]
  | cons window rest ih =>
    obtain ⟨fresh, targets⟩ := List.nodup_cons.mp targets
    unfold markGroup
    split
    · rename_i same
      simp only [bind_ok_iff, pure_ok_iff]
      rw [exists_comm]
      simp only [exists_and_left, exists_eq', and_true, mark_exists_iff small distinct]
      refine forall₂_congr fun item _ => not_congr ?_
      have elsewhere : ¬ ∃ w ∈ rest, w.targetBlock = group.target ∧
          w.claimed.test item.position.toNat = true := by
        intro found
        obtain ⟨w, member, target, _⟩ := found
        exact fresh (List.mem_map.mpr ⟨w, member, target.trans same.symm⟩)
      simp only [Recorded, List.mem_cons, exists_eq_or_imp, same, true_and, elsewhere, or_false]
    · rename_i different
      simp only [bind_ok_iff, pure_ok_iff]
      rw [exists_comm]
      simp only [exists_and_left, exists_eq', and_true, ih targets]
      simp [Recorded, different]

theorem markGroup_wellFormed (valid : group.Valid inclusionBlock) (wellFormed : WellFormedWindows windows)
    (h : markGroup group windows = .ok out) : WellFormedWindows out := by
  have targets := markGroup_targets valid.position_lt h
  have unique : (out.map (·.targetBlock)).Nodup := by
    rw [targets]
    split
    · exact wellFormed.targets
    · rename_i fresh
      simpa using wellFormed.targets.concat fresh
  have known : ∀ window ∈ out, window.targetBlock ∈ windows.map (·.targetBlock) ∨
      window.targetBlock = group.target := by
    intro window member
    have listed : window.targetBlock ∈ out.map (·.targetBlock) := List.mem_map_of_mem member
    rw [targets] at listed
    split at listed
    · exact .inl listed
    · simpa using listed
  refine ⟨fun window member => ?_, fun window member => ?_, unique⟩
  · rcases known window member with old | new
    · obtain ⟨w, inWindows, same⟩ := List.mem_map.mp old
      exact same ▸ wellFormed.positive w inWindows
    · exact new ▸ valid.positive
  · -- the window of a target is unique, so the position recorded for that target is marked in it
    have found : ∃ position < maxCommitteeParticipationsV1,
        Recorded out window.targetBlock position := by
      rcases known window member with old | new
      · obtain ⟨w, inWindows, same⟩ := List.mem_map.mp old
        obtain ⟨position, small, hit⟩ := wellFormed.marked w inWindows
        exact ⟨position, small, (markGroup_recorded valid.position_lt h _ _).mpr
          (.inl ⟨w, inWindows, same, hit⟩)⟩
      · obtain ⟨item, inGroup⟩ := List.exists_mem_of_ne_nil _ valid.nonempty
        exact ⟨item.position.toNat, valid.position_lt item inGroup,
          (markGroup_recorded valid.position_lt h _ _).mpr
            (.inr ⟨group, List.mem_singleton_self _, new.symm, item, inGroup, rfl⟩)⟩
    obtain ⟨position, small, w, inOut, same, hit⟩ := found
    exact ⟨position, small, (List.inj_on_of_nodup_map unique inOut member same) ▸ hit⟩

theorem markGroups_ok (valid : ∀ group ∈ groups, group.Valid inclusionBlock) (wellFormed : WellFormedWindows windows)
    (h : markGroups windows groups = .ok out) :
    WellFormedWindows out ∧ ∀ target position, Recorded out target position ↔
      Recorded windows target position ∨ Claims groups target position := by
  induction groups generalizing windows with
  | nil =>
    obtain rfl := Except.ok.inj h
    exact ⟨wellFormed, by simp⟩
  | cons group rest ih =>
    obtain ⟨next, run, h⟩ := bind_ok h
    have groupValid := valid group List.mem_cons_self
    obtain ⟨outWellFormed, recorded⟩ :=
      ih (fun g member => valid g (List.mem_cons_of_mem _ member))
        (markGroup_wellFormed groupValid wellFormed run) h
    refine ⟨outWellFormed, fun target position => ?_⟩
    rw [recorded, markGroup_recorded groupValid.position_lt run, or_assoc]
    simp [claims_cons]

theorem markGroups_exists_iff (valid : ∀ group ∈ groups, group.Valid inclusionBlock)
    (targets : (groups.map (·.target)).Nodup) (wellFormed : WellFormedWindows windows) :
    (∃ out, markGroups windows groups = .ok out) ↔
      ∀ target position, Claims groups target position → ¬ Recorded windows target position := by
  induction groups generalizing windows with
  | nil => simp [markGroups]
  | cons group rest ih =>
    obtain ⟨fresh, targets⟩ := List.nodup_cons.mp targets
    have groupValid := valid group List.mem_cons_self
    have restValid : ∀ g ∈ rest, g.Valid inclusionBlock :=
      fun g member => valid g (List.mem_cons_of_mem _ member)
    have first := markGroup_exists_iff groupValid.position_lt groupValid.distinct wellFormed.targets
    constructor
    · rintro ⟨out, h⟩ target position claim
      obtain ⟨next, run, h⟩ := bind_ok h
      obtain ⟨g, member, rfl, item, inGroup, rfl⟩ := claim
      rcases List.mem_cons.mp member with rfl | member
      · exact first.mp ⟨next, run⟩ item inGroup
      · intro old
        have later := (ih restValid targets (markGroup_wellFormed groupValid wellFormed run)).mp ⟨out, h⟩
        exact later _ _ ⟨g, member, rfl, item, inGroup, rfl⟩
          ((markGroup_recorded groupValid.position_lt run _ _).mpr (.inl old))
    · intro unclaimed
      obtain ⟨next, run⟩ := first.mpr fun item inGroup =>
        unclaimed _ _ ⟨group, List.mem_cons_self, rfl, item, inGroup, rfl⟩
      have remaining : ∀ target position, Claims rest target position →
          ¬ Recorded next target position := by
        rintro target position ⟨g, member, rfl, item, inGroup, rfl⟩ recorded
        rcases (markGroup_recorded groupValid.position_lt run _ _).mp recorded with old | new
        · exact unclaimed _ _ ⟨g, List.mem_cons_of_mem _ member, rfl, item, inGroup, rfl⟩ old
        · obtain ⟨_, isGroup, same, _⟩ := new
          rw [List.mem_singleton.mp isGroup] at same
          exact fresh (List.mem_map.mpr ⟨g, member, same.symm⟩)
      obtain ⟨out, h⟩ := (ih restValid targets
        (markGroup_wellFormed groupValid wellFormed run)).mpr remaining
      exact ⟨out, by simp only [markGroups, run]; exact h⟩

/-! ### One block -/

theorem claims_sorted : Claims (canonicalGroups groups) target position ↔ Claims groups target position := by
  simp [Claims, canonicalGroups, CommitteeParticipationClaimGroupV1.sorted,
    CommitteeParticipationClaimGroupV1.target]

theorem ValidClaimGroups.claim_inWindow (valid : ValidClaimGroups inclusionBlock groups)
    (claim : Claims groups target position) :
    target < inclusionBlock ∧ inclusionBlock ≤ target + committeeParticipationClaimWindowV1 ∧
      position < maxCommitteeParticipationsV1 := by
  obtain ⟨group, member, rfl, item, inGroup, rfl⟩ := claim
  have groupValid := valid.each group member
  exact ⟨groupValid.past, groupValid.inWindow, groupValid.position_lt item inGroup⟩

namespace CommitteeClaimLedgerV1

variable {ledger next : CommitteeClaimLedgerV1} {inclusionBlock : Nat}
  {groups : List CommitteeParticipationClaimGroupV1}

theorem keptWindows_wellFormed (wellFormed : WellFormedWindows ledger.windows) :
    WellFormedWindows (ledger.keptWindows inclusionBlock) where
  positive window member := wellFormed.positive window (List.mem_of_mem_filter member)
  marked window member := wellFormed.marked window (List.mem_of_mem_filter member)
  targets := wellFormed.targets.sublist (List.filter_sublist.map _)

theorem keptWindows_recorded {position : Nat} :
    Recorded (ledger.keptWindows inclusionBlock) target position ↔
      Recorded ledger.windows target position ∧ target < inclusionBlock ∧
        inclusionBlock ≤ target + committeeParticipationClaimWindowV1 := by
  simp only [Recorded, keptWindows, List.mem_filter, decide_eq_true_eq]
  constructor
  · rintro ⟨window, ⟨member, past, inWindow⟩, rfl, hit⟩
    exact ⟨⟨window, member, rfl, hit⟩, past, by omega⟩
  · rintro ⟨⟨window, member, rfl, hit⟩, past, inWindow⟩
    exact ⟨window, ⟨member, past, by omega⟩, rfl, hit⟩

theorem isClaimed_iff (valid : ledger.validate = .ok ()) {position : UInt8} :
    ledger.isClaimed target position = true ↔
      position.toNat < maxCommitteeParticipationsV1 ∧
        Recorded ledger.windows target position.toNat := by
  have unique := (validate_ok_iff.mp valid).2.2.targets
  simp only [isClaimed, Bool.and_eq_true, decide_eq_true_eq]
  refine and_congr_right fun _ => ?_
  split
  · rename_i window found
    have member := List.mem_of_find?_eq_some found
    have target : window.targetBlock = target := by simpa using List.find?_some found
    constructor
    · exact fun hit => ⟨window, member, target, hit⟩
    · rintro ⟨w, inWindows, same, hit⟩
      exact (List.inj_on_of_nodup_map unique inWindows member (same.trans target.symm)) ▸ hit
  · rename_i absent
    simp only [Bool.false_eq_true, false_iff]
    rintro ⟨w, inWindows, same, _⟩
    simpa [same] using List.find?_eq_none.mp absent w inWindows

/-- What `apply` establishes before it validates its result. -/
theorem applyUnchecked_ok (h : ledger.applyUnchecked inclusionBlock groups = .ok next) :
    ledger.validate = .ok () ∧ ValidClaimGroups inclusionBlock groups ∧
      WellFormedWindows next.windows ∧
      (next.windows.Pairwise fun a b => a.targetBlock < b.targetBlock) ∧
      ∀ target position, Recorded next.windows target position ↔
        (Recorded ledger.windows target position ∧ target < inclusionBlock ∧
          inclusionBlock ≤ target + committeeParticipationClaimWindowV1) ∨
        Claims groups target position := by
  obtain ⟨_, valid, h⟩ := bind_ok h
  obtain ⟨canonical, run, h⟩ := bind_ok h
  obtain ⟨windows, marked, h⟩ := bind_ok h
  obtain rfl := Except.ok.inj h
  obtain ⟨groupsValid, rfl⟩ := canonicalClaimGroups_ok_iff.mp run
  have before := (validate_ok_iff.mp valid).2.2
  obtain ⟨wellFormed, recorded⟩ :=
    markGroups_ok groupsValid.canonical.each (keptWindows_wellFormed before) marked
  have sameWindows : ∀ target position, Recorded (sortOn (·.targetBlock) windows) target position ↔
      Recorded windows target position := by
    intro target position
    simp [Recorded]
  refine ⟨valid, groupsValid, ⟨?_, ?_, ?_⟩, sortOn_strict wellFormed.targets, ?_⟩
  · exact fun window member => wellFormed.positive window (mem_sortOn.mp member)
  · exact fun window member => wellFormed.marked window (mem_sortOn.mp member)
  · exact ((sortOn_perm.map _).nodup_iff).mpr wellFormed.targets
  · intro target position
    rw [sameWindows, recorded, keptWindows_recorded, claims_sorted]

theorem targets_length_le {windows : List CommitteeClaimBitmapV1}
    (wellFormed : WellFormedWindows windows)
    (bounds : ∀ window ∈ windows, window.targetBlock < inclusionBlock ∧
      inclusionBlock ≤ window.targetBlock + committeeParticipationClaimWindowV1) :
    windows.length ≤ committeeParticipationClaimWindowV1 := by
  have inside : (windows.map (·.targetBlock)).toFinset ⊆
      Finset.Ico (inclusionBlock - committeeParticipationClaimWindowV1) inclusionBlock := by
    intro target member
    obtain ⟨window, inWindows, rfl⟩ := List.mem_map.mp (List.mem_toFinset.mp member)
    have := bounds window inWindows
    exact Finset.mem_Ico.mpr ⟨by omega, this.1⟩
  have size := Finset.card_le_card inside
  rw [List.toFinset_card_of_nodup wellFormed.targets, List.length_map, Nat.card_Ico] at size
  omega

/-- The last validation inside `apply` passes whenever it is reached. -/
theorem applyUnchecked_validate (h : ledger.applyUnchecked inclusionBlock groups = .ok next) :
    next.validate = .ok () := by
  obtain ⟨_, groupsValid, wellFormed, sorted, recorded⟩ := applyUnchecked_ok h
  refine validate_ok_iff.mpr ⟨?_, sorted, wellFormed⟩
  refine targets_length_le wellFormed (fun window member => (?_ : _ < inclusionBlock ∧ _))
  obtain ⟨position, _, hit⟩ := wellFormed.marked window member
  rcases (recorded _ _).mp ⟨window, member, rfl, hit⟩ with ⟨_, past, inWindow⟩ | claim
  · exact ⟨past, inWindow⟩
  · exact ⟨(groupsValid.claim_inWindow claim).1, (groupsValid.claim_inWindow claim).2.1⟩

theorem apply_ok_iff : ledger.apply inclusionBlock groups = .ok next ↔
    ledger.applyUnchecked inclusionBlock groups = .ok next := by
  simp only [apply, bind_ok_iff, pure_ok_iff]
  constructor
  · rintro ⟨_, run, _, _, rfl⟩
    exact run
  · exact fun run => ⟨next, run, (), applyUnchecked_validate run, rfl⟩

theorem apply_exists_iff (valid : ledger.validate = .ok ()) :
    (∃ next, ledger.apply inclusionBlock groups = .ok next) ↔
      ValidClaimGroups inclusionBlock groups ∧
      ∀ target position, Claims groups target position → ¬ Recorded ledger.windows target position := by
  have before := (validate_ok_iff.mp valid).2.2
  simp only [apply_ok_iff]
  constructor
  · rintro ⟨next, h⟩
    obtain ⟨_, _, h⟩ := bind_ok h
    obtain ⟨canonical, run, h⟩ := bind_ok h
    obtain ⟨windows, marked, _⟩ := bind_ok h
    obtain ⟨groupsValid, rfl⟩ := canonicalClaimGroups_ok_iff.mp run
    refine ⟨groupsValid, fun target position claim old => ?_⟩
    have fresh := (markGroups_exists_iff groupsValid.canonical.each groupsValid.canonical.targets
      (keptWindows_wellFormed before)).mp ⟨windows, marked⟩ target position (claims_sorted.mpr claim)
    have bounds := groupsValid.claim_inWindow claim
    exact fresh (keptWindows_recorded.mpr ⟨old, bounds.1, bounds.2.1⟩)
  · rintro ⟨groupsValid, fresh⟩
    obtain ⟨windows, marked⟩ := (markGroups_exists_iff groupsValid.canonical.each
      groupsValid.canonical.targets (keptWindows_wellFormed before)).mpr
      fun target position claim old =>
        fresh target position (claims_sorted.mp claim) (keptWindows_recorded.mp old).1
    refine ⟨⟨sortOn (·.targetBlock) windows⟩, ?_⟩
    simp only [applyUnchecked, bind_ok_iff, pure_ok_iff]
    exact ⟨(), valid, _, canonicalClaimGroups_ok_iff.mpr ⟨groupsValid, rfl⟩, _, marked, rfl⟩

end CommitteeClaimLedgerV1

end RabbitLqc
