import RabbitLqc.Claims.Ledger

/-!
# Runs of the claim ledger

One `apply` after another from the empty ledger, with growing inclusion blocks. A position that
was accepted once stays refused: while its target can be claimed it is recorded, and when it is
pruned its target is out of every later claim window.
-/

namespace RabbitLqc
open Lib

structure LedgerCall where
  inclusionBlock : Nat
  groups : List CommitteeParticipationClaimGroupV1

namespace CommitteeClaimLedgerV1

def step (ledger : CommitteeClaimLedgerV1) (call : LedgerCall) : CommitteeClaimLedgerV1 :=
  match ledger.apply call.inclusionBlock call.groups with
  | .ok next => next
  | .error _ => ledger

def Accepts (ledger : CommitteeClaimLedgerV1) (call : LedgerCall) : Prop :=
  ∃ next, ledger.apply call.inclusionBlock call.groups = .ok next

def run (calls : List LedgerCall) : CommitteeClaimLedgerV1 :=
  calls.foldl step newCommitteeClaimLedgerV1

theorem run_concat (calls : List LedgerCall) (call : LedgerCall) :
    run (calls ++ [call]) = (run calls).step call := by
  simp [run]

theorem new_validate : newCommitteeClaimLedgerV1.validate = .ok () := rfl

theorem step_cases (ledger : CommitteeClaimLedgerV1) (call : LedgerCall) :
    ledger.apply call.inclusionBlock call.groups = .ok (ledger.step call) ∨
      (¬ ledger.Accepts call ∧ ledger.step call = ledger) := by
  unfold step Accepts
  cases ledger.apply call.inclusionBlock call.groups with
  | ok next => exact .inl rfl
  | error e => exact .inr ⟨by simp, rfl⟩

theorem step_validate {ledger : CommitteeClaimLedgerV1} (call : LedgerCall)
    (valid : ledger.validate = .ok ()) : (ledger.step call).validate = .ok () := by
  rcases ledger.step_cases call with accepted | ⟨_, same⟩
  · exact applyUnchecked_validate (apply_ok_iff.mp accepted)
  · rw [same]
    exact valid

theorem run_validate (calls : List LedgerCall) : (run calls).validate = .ok () := by
  induction calls using List.reverseRecOn with
  | nil => exact new_validate
  | append_singleton calls call ih => exact run_concat calls call ▸ step_validate call ih

/-- Some accepted call of the run claimed `position` of `target`. -/
def ClaimedBy (calls : List LedgerCall) (target position : Nat) : Prop :=
  ∃ before call after, calls = before ++ call :: after ∧ (run before).Accepts call ∧
    Claims call.groups target position

theorem claimedBy_concat {calls : List LedgerCall} {call : LedgerCall} {target position : Nat}
    (claimed : ClaimedBy (calls ++ [call]) target position) :
    ClaimedBy calls target position ∨
      ((run calls).Accepts call ∧ Claims call.groups target position) := by
  obtain ⟨before, accepted, after, split, accepts, claim⟩ := claimed
  rcases List.eq_nil_or_concat after with rfl | ⟨rest, last, rfl⟩
  · obtain ⟨rfl, same⟩ := List.append_inj' split rfl
    obtain rfl := List.singleton_inj.mp same
    exact .inr ⟨accepts, claim⟩
  · have regroup : calls ++ [call] = (before ++ accepted :: rest) ++ [last] := by simp [split]
    obtain ⟨rfl, _⟩ := List.append_inj' regroup rfl
    exact .inl ⟨before, accepted, rest, rfl, accepts, claim⟩

theorem run_recorded {calls : List LedgerCall} {bound : Nat}
    (increasing : calls.Pairwise fun a b => a.inclusionBlock < b.inclusionBlock)
    (bounded : ∀ call ∈ calls, call.inclusionBlock ≤ bound) {target position : Nat}
    (claimed : ClaimedBy calls target position) :
    target < bound ∧ (bound ≤ target + committeeParticipationClaimWindowV1 →
      Recorded (run calls).windows target position) := by
  induction calls using List.reverseRecOn generalizing bound with
  | nil =>
    obtain ⟨before, call, after, split, _⟩ := claimed
    simp at split
  | append_singleton calls call ih =>
    have earlier := List.pairwise_append.mp increasing
    have callBound : call.inclusionBlock ≤ bound := bounded call (by simp)
    rw [run_concat]
    rcases (run calls).step_cases call with accepted | ⟨refused, same⟩
    · obtain ⟨_, valid, _, _, recorded⟩ := applyUnchecked_ok (apply_ok_iff.mp accepted)
      rcases claimedBy_concat claimed with old | ⟨_, new⟩
      · have before : ∀ c ∈ calls, c.inclusionBlock ≤ call.inclusionBlock :=
          fun c member => (earlier.2.2 c member call (by simp)).le
        obtain ⟨past, kept⟩ := ih earlier.1 before old
        refine ⟨by omega, fun inWindow => (recorded target position).mpr (.inl ⟨kept ?_, past, ?_⟩)⟩
        · omega
        · omega
      · have past := (valid.claim_inWindow new).1
        exact ⟨by omega, fun _ => (recorded target position).mpr (.inr new)⟩
    · rw [same]
      rcases claimedBy_concat claimed with old | ⟨accepts, _⟩
      · exact ih earlier.1 (fun c member => bounded c (by simp [member])) old
      · exact absurd accepts refused

theorem apply_error_iff {ledger : CommitteeClaimLedgerV1} (valid : ledger.validate = .ok ())
    (call : LedgerCall) :
    (∃ e, ledger.apply call.inclusionBlock call.groups = .error e) ↔
      ¬ ValidClaimGroups call.inclusionBlock call.groups ∨
      ∃ group ∈ call.groups, ∃ item ∈ group.participations,
        ledger.isClaimed group.target item.position = true := by
  rw [exists_error_iff, apply_exists_iff valid, not_and_or]
  by_cases groupsValid : ValidClaimGroups call.inclusionBlock call.groups
  · simp only [groupsValid, not_true_eq_false, false_or, isClaimed_iff valid, not_forall, not_not]
    constructor
    · rintro ⟨_, _, ⟨group, member, rfl, item, inGroup, rfl⟩, recorded⟩
      exact ⟨group, member, item, inGroup, (groupsValid.each group member).position_lt item inGroup,
        recorded⟩
    · rintro ⟨group, member, item, inGroup, _, recorded⟩
      exact ⟨_, _, ⟨group, member, rfl, item, inGroup, rfl⟩, recorded⟩
  · simp [groupsValid]

/-- Over every run with growing inclusion blocks no position of a target is accepted twice, a call
fails exactly on invalid groups or a recorded position, and the closing validation never fails. -/
theorem run_accepts_once (calls : List LedgerCall)
    (increasing : calls.Pairwise fun a b => a.inclusionBlock < b.inclusionBlock) :
    (∀ before call between later after,
      calls = before ++ call :: between ++ later :: after →
      (run before).Accepts call → (run (before ++ call :: between)).Accepts later →
      ∀ target position, Claims call.groups target position →
        ¬ Claims later.groups target position) ∧
    ∀ before call after, calls = before ++ call :: after →
      ((∃ e, (run before).apply call.inclusionBlock call.groups = .error e) ↔
        ¬ ValidClaimGroups call.inclusionBlock call.groups ∨
        ∃ group ∈ call.groups, ∃ item ∈ group.participations,
          (run before).isClaimed group.target item.position = true) ∧
      ∀ next, (run before).applyUnchecked call.inclusionBlock call.groups = .ok next →
        next.validate = .ok () := by
  refine ⟨?_, fun before call after _ =>
    ⟨apply_error_iff (run_validate before) call, fun _ => applyUnchecked_validate⟩⟩
  rintro before call between later after rfl accepts laterAccepts target position claim again
  obtain ⟨prior, _, order⟩ := List.pairwise_append.mp increasing
  obtain ⟨laterValid, fresh⟩ := (apply_exists_iff (run_validate _)).mp laterAccepts
  have bounded : ∀ c ∈ before ++ call :: between, c.inclusionBlock ≤ later.inclusionBlock :=
    fun c member => (order c member later List.mem_cons_self).le
  have recorded := (run_recorded prior bounded
    ⟨before, call, between, rfl, accepts, claim⟩).2 (laterValid.claim_inWindow again).2.1
  exact fresh target position again recorded

/-- Block `inclusionBlock` claims position 3 of block 5. -/
def claimFive (inclusionBlock : Nat) : LedgerCall :=
  ⟨inclusionBlock, [⟨5, [⟨3, List.replicate 65 1⟩]⟩]⟩

/-- The claim is accepted in block 6, and the same claim is refused in block 7. -/
theorem run_accepts_once_twoBlocks :
    (run []).Accepts (claimFive 6) ∧ ¬ (run [claimFive 6]).Accepts (claimFive 7) := by
  have first : (run []).Accepts (claimFive 6) := ⟨run [claimFive 6], by decide +kernel⟩
  have claims : ∀ inclusionBlock, Claims (claimFive inclusionBlock).groups 5 3 := fun _ =>
    ⟨_, List.mem_singleton_self _, rfl, _, List.mem_singleton_self _, rfl⟩
  exact ⟨first, fun second => (run_accepts_once [claimFive 6, claimFive 7] (by simp [claimFive])).1
    [] _ [] _ [] rfl first second 5 3 (claims 6) (claims 7)⟩

end CommitteeClaimLedgerV1

end RabbitLqc
