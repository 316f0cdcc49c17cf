import RabbitLqc.Engine.Growth
import RabbitLqc.Lib.Words

/-!
# Slots and recovery

A block is accepted only once the slot of its author is reached, by the time it claims and by the clock of the
node that receives it. Its claimed time alone opens no recovery either.
-/

namespace RabbitLqc
open Lib

/-! ### The queue below the registry -/

/-- Below the registry protocol the table of participants gives the queue; where it has nobody the author of the
header stands alone in it. -/
def legacySelectionForHeader (participants : Branch → Header → HybridSelection) (branch : Branch) (header : Header) :
    HybridSelection :=
  let selection := participants branch header
  if selection.ordered = [] ∧ header.coinbase ≠ 0 then { selection with ordered := [header.coinbase] } else selection

theorem legacySelectionForHeader_ordered {participants : Branch → Header → HybridSelection} {branch : Branch}
    {header : Header} (named : header.coinbase ≠ 0) :
    (legacySelectionForHeader participants branch header).ordered ≠ [] := by
  unfold legacySelectionForHeader
  dsimp only
  split
  · exact List.cons_ne_nil _ _
  · next listed => exact fun empty => listed ⟨empty, named⟩

/-- The engine with a table of participants for the time before the registry. -/
def LQC.withParticipants (lqc : LQC) (participants : Branch → Header → HybridSelection) : LQC :=
  { lqc with legacySelection := legacySelectionForHeader participants }

/-! ### Slot times -/

section Slots

variable {config : LqcConfig} {parentTime queuePos time : Nat}

theorem minAllowedTimeChecked_strict {later laterTime : Nat} (behind : queuePos < later)
    (slot : config.minAllowedTimeChecked parentTime queuePos = .ok time)
    (next : config.minAllowedTimeChecked parentTime later = .ok laterTime) : time < laterTime := by
  rw [minAllowedTimeChecked_eq] at slot next
  split at slot
  · split at next
    · obtain rfl := Except.ok.inj slot
      obtain rfl := Except.ok.inj next
      exact Nat.add_lt_add_left (Nat.mul_lt_mul_of_pos_right behind (fallbackWindowSeconds_pos config)) _
    · cases next
  · cases slot

end Slots

/-! ### Slot times in words

The code adds and multiplies words that wrap. Its guards refuse a sum or a product before it would.
-/

namespace Words

def checkedRegistryBlockAdd (values : List UInt64) : Option UInt64 :=
  values.foldlM (fun total value => if ~~~0 - total < value then none else some (total + value)) 0

def minAllowedTimeChecked (base window parentTime : UInt64) (queuePos : Int64) : Except LqcError UInt64 :=
  let minTime :=
    if queuePos ≤ 0 then checkedRegistryBlockAdd [parentTime, base]
    else
      let position := queuePos.toUInt64
      if window ≠ 0 ∧ ~~~0 / window < position then none
      else checkedRegistryBlockAdd [parentTime, base, position * window]
  orFail .blockTimeOverflow minTime

theorem checkedRegistryBlockAdd_toNat (values : List UInt64) :
    (checkedRegistryBlockAdd values).map UInt64.toNat =
      RabbitLqc.checkedRegistryBlockAdd (values.map UInt64.toNat) := by
  have folded : ∀ total : UInt64,
      (values.foldlM (fun total value => if ~~~0 - total < value then none else some (total + value)) total).map
          UInt64.toNat =
        (values.map UInt64.toNat).foldlM
          (fun total value => if maxUint64 - total < value then none else some (total + value)) total.toNat := by
    induction values with
    | nil => exact fun _ => rfl
    | cons value values ih =>
      intro total
      have bounded : total.toNat ≤ maxUint64 := Nat.le_pred_of_lt total.toNat_lt
      have room : (~~~0 - total).toNat = maxUint64 - total.toNat := Word.toNat_sub bounded
      have same : ~~~0 - total < value ↔ maxUint64 - total.toNat < value.toNat := by
        rw [UInt64.lt_iff_toNat_lt, room]
      rw [List.map_cons, List.foldlM_cons, List.foldlM_cons]
      by_cases exceeds : ~~~0 - total < value
      · rw [if_pos exceeds, if_pos (same.mp exceeds)]
        rfl
      · have fits : total.toNat + value.toNat < 2 ^ 64 := by
          have inside := mt same.mpr exceeds
          have top : maxUint64 = 2 ^ 64 - 1 := rfl
          omega
        rw [if_neg exceeds, if_neg (mt same.mpr exceeds), ← Word.toNat_add fits]
        exact ih (total + value)
  exact folded 0

/-- In words the slot is the one in numbers: the sum, or an error where it is no word. -/
theorem minAllowedTimeChecked_toNat {config : LqcConfig} {base window : UInt64}
    (target : base.toNat = config.targetBlockSeconds) (fallback : window.toNat = config.fallbackWindowSeconds)
    (parentTime : UInt64) (queuePos : Int64) :
    (minAllowedTimeChecked base window parentTime queuePos).map UInt64.toNat =
      config.minAllowedTimeChecked parentTime.toNat queuePos.toNatClampNeg := by
  have outcome (minTime : Option UInt64) :
      (orFail LqcError.blockTimeOverflow minTime).map UInt64.toNat =
        orFail .blockTimeOverflow (minTime.map UInt64.toNat) := by
    cases minTime <;> rfl
  unfold minAllowedTimeChecked LqcConfig.minAllowedTimeChecked
  dsimp only
  rw [outcome, ← target, ← fallback]
  by_cases first : queuePos ≤ 0
  · rw [if_pos first, if_pos (Int64.toNatClampNeg_eq_zero_iff.mpr first), checkedRegistryBlockAdd_toNat]
    rfl
  · have position : queuePos.toUInt64.toNat = queuePos.toNatClampNeg :=
      Int64.toNat_toUInt64_of_le (Int64.le_of_lt (Int64.not_le.mp first))
    rw [if_neg first, if_neg (mt Int64.toNatClampNeg_eq_zero_iff.mp first), ← position]
    have guard : (window ≠ 0 ∧ ~~~0 / window < queuePos.toUInt64) ↔
        window.toNat ≠ 0 ∧ maxUint64 / window.toNat < queuePos.toUInt64.toNat := by
      rw [Word.ne_zero_iff, UInt64.lt_iff_toNat_lt, UInt64.toNat_div]
      rfl
    by_cases exceeds : window ≠ 0 ∧ ~~~0 / window < queuePos.toUInt64
    · rw [if_pos exceeds, if_pos (guard.mp exceeds)]
      rfl
    · have positive : 0 < window.toNat := by
        rw [fallback]
        exact fallbackWindowSeconds_pos config
      have inside : queuePos.toUInt64.toNat * window.toNat ≤ maxUint64 := by
        refine Nat.le_of_not_lt fun above => mt guard.mpr exceeds ⟨positive.ne', ?_⟩
        exact (Nat.div_lt_iff_lt_mul positive).mpr above
      have product : (queuePos.toUInt64 * window).toNat = queuePos.toUInt64.toNat * window.toNat :=
        Word.toNat_mul (Nat.lt_of_le_of_lt inside (by decide))
      rw [if_neg exceeds, if_neg (mt guard.mpr exceeds), checkedRegistryBlockAdd_toNat, ← product]
      rfl

end Words

/-! ### The queue that authorized a header -/

namespace LQC

variable {lqc : LQC} {branch : Branch} {header : Header} {entry : Entry} {selection : HybridSelection}

theorem verifyCanonicalRegistryHeader_ordered {snapshot : RegistrySnapshot}
    (verified : lqc.verifyCanonicalRegistryHeader branch header = .ok (selection, snapshot)) :
    selection.ordered ≠ [] := by
  unfold verifyCanonicalRegistryHeader at verified
  obtain ⟨parent, _, verified⟩ := bind_ok verified
  obtain ⟨canonical, queued, verified⟩ := bind_ok verified
  obtain ⟨child, apply, verified⟩ := bind_ok verified
  obtain ⟨rfl, rfl⟩ := Prod.mk.inj (Except.ok.inj verified)
  split
  · exact List.cons_ne_nil _ _
  · next closed =>
    unfold canonicalSelection at queued
    obtain ⟨registry, opened, queued⟩ := bind_ok queued
    obtain rfl := Except.ok.inj queued
    unfold applyRegistryHeaderWithOpenActivation RegistrySnapshot.applyHeaderWithOpenActivation at apply
    obtain ⟨again, open_eq, apply⟩ := bind_ok apply
    obtain rfl := Except.ok.inj (opened.symm.trans open_eq)
    obtain ⟨_, _, apply⟩ := bind_ok apply
    obtain ⟨_, _, apply⟩ := bind_ok apply
    obtain ⟨_, _, apply⟩ := bind_ok apply
    obtain ⟨moved, move, _⟩ := bind_ok apply
    unfold CanonicalRegistry.headerTurn at move
    rw [if_neg closed] at move
    unfold CanonicalRegistry.queueTurns at move
    -- with nobody in the queue no author is allowed
    intro empty
    have empty : registry.orderedParticipantsForBlock lqc.crypto header.parentHash header.number
        lqc.config.registryRules.activationDelay = [] := empty
    rw [empty] at move
    cases move

theorem verifyRegistryOf_ordered {envelope : LQCHeaderEnvelopeV3} {runtime : CanonicalWorkRuntimeStateV1}
    {parent snapshot : RegistrySnapshot}
    (verified : lqc.verifyRegistryOf branch header envelope runtime parent = .ok (selection, snapshot)) :
    selection.ordered ≠ [] := by
  have synthetic (verified : lqc.verifySyntheticRegistryHeader branch header envelope = .ok (selection, snapshot)) :
      selection.ordered ≠ [] := by
    unfold verifySyntheticRegistryHeader at verified
    obtain ⟨extra, _, verified⟩ := bind_ok verified
    obtain ⟨⟨queue, child⟩, ran, verified⟩ := bind_ok verified
    obtain ⟨_, _, verified⟩ := bind_ok verified
    obtain ⟨rfl, _⟩ := Prod.mk.inj (Except.ok.inj verified)
    exact verifyCanonicalRegistryHeader_ordered ran
  unfold verifyRegistryOf at verified
  split at verified
  · exact synthetic verified
  · obtain ⟨selected, _, verified⟩ := bind_ok verified
    split at verified
    · next called =>
      obtain ⟨_, _, verified⟩ := bind_ok verified
      obtain ⟨rfl, _⟩ := Prod.mk.inj (Except.ok.inj verified)
      exact called
    · exact synthetic verified

theorem verifyContent_ordered (legacy : (lqc.legacySelection branch header).ordered ≠ [])
    (verified : lqc.verifyContent branch header = .ok (selection, entry)) : selection.ordered ≠ [] := by
  have registry {selection : HybridSelection} {entry : Entry}
      (verified : lqc.verifyCanonicalRegistryHeaderMaybeWorkV1Lab branch header = .ok (selection, entry)) :
      selection.ordered ≠ [] := by
    unfold verifyCanonicalRegistryHeaderMaybeWorkV1Lab at verified
    obtain ⟨envelope, _, verified⟩ := bind_ok verified
    cases envelope with
    | none =>
      unfold verifyPlainHeader at verified
      obtain ⟨⟨queue, child⟩, ran, verified⟩ := bind_ok verified
      obtain ⟨rfl, _⟩ := Prod.mk.inj (Except.ok.inj verified)
      exact verifyCanonicalRegistryHeader_ordered ran
    | some envelope =>
      unfold verifyWorkHeader at verified
      obtain ⟨runtime, _, verified⟩ := bind_ok verified
      obtain ⟨parent, _, verified⟩ := bind_ok verified
      obtain ⟨⟨queue, child⟩, ran, verified⟩ := bind_ok verified
      obtain ⟨_, _, verified⟩ := bind_ok verified
      obtain ⟨_, _, verified⟩ := bind_ok verified
      obtain ⟨_, _, verified⟩ := bind_ok verified
      obtain ⟨rfl, _⟩ := Prod.mk.inj (Except.ok.inj verified)
      exact verifyRegistryOf_ordered ran
  unfold verifyContent at verified
  split at verified
  · obtain ⟨_, _, verified⟩ := bind_ok verified
    split at verified
    · obtain ⟨_, _, verified⟩ := bind_ok verified
      obtain ⟨rfl, _⟩ := Prod.mk.inj (Except.ok.inj verified)
      exact List.cons_ne_nil _ _
    · obtain ⟨_, _, verified⟩ := bind_ok verified
      obtain ⟨rfl, _⟩ := Prod.mk.inj (Except.ok.inj verified)
      exact List.cons_ne_nil _ _
  · split at verified
    · exact registry verified
    · obtain ⟨_, _, verified⟩ := bind_ok verified
      obtain ⟨rfl, _⟩ := Prod.mk.inj (Except.ok.inj verified)
      exact legacy

theorem verifyTurn_slot {unixNow : Nat} {parent : Header} {u : Unit} (called : selection.ordered ≠ [])
    (fair : lqc.config.consensusFairnessActive header.number = true)
    (turn : lqc.verifyTurn header unixNow parent selection = .ok u) :
    ∃ queuePos slot, lqc.config.isAuthorAllowedAt header.number selection header.coinbase = some queuePos ∧
      lqc.config.minAllowedTimeChecked parent.time queuePos = .ok slot ∧ slot ≤ header.time ∧ slot ≤ unixNow := by
  unfold verifyTurn at turn
  rw [if_neg called] at turn
  split at turn
  · cases turn
  · next queuePos allowed =>
    simp only [bind_ok_iff, ensure_ok_iff, exists_unit] at turn
    obtain ⟨slot, checked, clock, due⟩ := turn
    exact ⟨queuePos, slot, allowed, checked, due, clock fair⟩

theorem openActivationForHeader_recovery {parent : Entry} {rest : Branch} (above : 1 < header.number)
    (opens : lqc.openActivationForHeader (parent :: rest) header = true) :
    lqc.config.isConsensusFairnessBlock header.number = false ∧
      lqc.config.recoveryOpenAt parent.header header.time = true := by
  unfold openActivationForHeader at opens
  rw [if_neg (by omega), if_neg (show ¬ header.number = 1 by omega)] at opens
  split at opens
  · cases opens
  · next ordinary =>
    obtain ⟨_, unfair⟩ := Bool.or_eq_false_iff.mp (Bool.eq_false_iff.mpr ordinary)
    exact ⟨unfair, opens⟩

theorem recoveryOpenAt_reached {config : LqcConfig} {parent : Header} {time : Nat}
    (opens : config.recoveryOpenAt parent time = true) :
    config.recoveryTimeoutSeconds ≠ 0 ∧ parent.time + config.recoveryTimeoutSeconds ≤ time := by
  unfold LqcConfig.recoveryOpenAt at opens
  simp only [Bool.and_eq_true, decide_eq_true_eq, Option.any_eq_true, checkedRegistryBlockAdd_eq_some,
    List.sum_cons, List.sum_nil, Nat.add_zero] at opens
  obtain ⟨⟨set, _⟩, _, ⟨_, rfl⟩, reached⟩ := opens
  exact ⟨set, reached⟩

end LQC

/-- Under the fairness rules a header above the first block is accepted only when its own time and the clock of
the node have reached the slot of its author in the queue that authorized it, and through an open activation only
when the clock has reached the recovery time of its parent. Slots are later for later positions, one that does not
fit is an error, and so the words of the code compute them. -/
theorem slot_fairness (lqc : LQC) (participants : Branch → Header → HybridSelection) (branch : Branch) (header : Header)
    (unixNow : Nat) (entry : Entry)
    (verified : (lqc.withParticipants participants).verifyHeaderAt branch header unixNow = .ok entry)
    (above : 1 < header.number) (fair : lqc.config.consensusFairnessActive header.number = true) :
    (∃ parent rest selection queuePos slot, branch = parent :: rest ∧
      (lqc.withParticipants participants).verifyContent branch header = .ok (selection, entry) ∧
      lqc.config.isAuthorAllowedAt header.number selection header.coinbase = some queuePos ∧
      lqc.config.minAllowedTimeChecked parent.header.time queuePos = .ok slot ∧
      slot ≤ header.time ∧ slot ≤ unixNow ∧
      ((lqc.withParticipants participants).openActivationForHeader branch header = true →
        lqc.config.recoveryTimeoutSeconds ≠ 0 ∧
          parent.header.time + lqc.config.recoveryTimeoutSeconds ≤ unixNow)) ∧
    (∀ parentTime position later time laterTime, position < later →
      lqc.config.minAllowedTimeChecked parentTime position = .ok time →
      lqc.config.minAllowedTimeChecked parentTime later = .ok laterTime → time < laterTime) ∧
    (∀ parentTime position, lqc.config.minAllowedTimeChecked parentTime position =
      if parentTime + lqc.config.targetBlockSeconds + position * lqc.config.fallbackWindowSeconds ≤ maxUint64 then
        .ok (parentTime + lqc.config.targetBlockSeconds + position * lqc.config.fallbackWindowSeconds)
      else .error .blockTimeOverflow) ∧
    ∀ base window : UInt64, base.toNat = lqc.config.targetBlockSeconds →
      window.toNat = lqc.config.fallbackWindowSeconds → ∀ (parentTime : UInt64) (position : Int64),
        (Words.minAllowedTimeChecked base window parentTime position).map UInt64.toNat =
          lqc.config.minAllowedTimeChecked parentTime.toNat position.toNatClampNeg := by
  refine ⟨?_, fun _ _ _ _ _ behind slot next => minAllowedTimeChecked_strict behind slot next,
    minAllowedTimeChecked_eq lqc.config, fun _ _ => Words.minAllowedTimeChecked_toNat⟩
  cases branch with
  | nil => cases verified
  | cons parent rest =>
    unfold LQC.verifyHeaderAt at verified
    obtain ⟨_, fields, verified⟩ := bind_ok verified
    obtain ⟨⟨selection, entry⟩, content, verified⟩ := bind_ok verified
    obtain ⟨_, turn, verified⟩ := bind_ok verified
    obtain rfl := Except.ok.inj verified
    simp only [LQC.verifyFields, bind_ok_iff, ensure_ok_iff, exists_unit] at fields
    obtain ⟨_, _, _, _, _, recovers, _, _, _, _, sealed⟩ := fields
    have named := verifyProducerSeal_coinbase sealed
    have called := LQC.verifyContent_ordered (legacySelectionForHeader_ordered named) content
    obtain ⟨queuePos, slot, allowed, checked, due, clock⟩ := LQC.verifyTurn_slot called fair turn
    refine ⟨parent, rest, selection, queuePos, slot, rfl, content, allowed, checked, due, clock, fun opens => ?_⟩
    obtain ⟨unfair, claimed⟩ := LQC.openActivationForHeader_recovery above opens
    have reached := recovers ⟨fair, by rw [unfair]; exact Bool.false_ne_true, claimed⟩
    exact LQC.recoveryOpenAt_reached reached

def fairConfig : LqcConfig where
  proofDifficulty := 1
  registryProtocolBlock := 1
  consensusFairnessBlock := 2

def fairLqc : LQC := (plainLqc fairConfig).withParticipants fun _ _ => {}

/-- The second block of a network under the fairness rules. -/
theorem slot_fairness_second :
    ∃ parent rest entry queuePos slot, entry.header.number = 2 ∧
      fairLqc.verifyHeaderAt (parent :: rest) entry.header entry.header.time = .ok entry ∧
      fairConfig.minAllowedTimeChecked parent.header.time queuePos = .ok slot ∧ slot ≤ entry.header.time := by
  obtain ⟨branch, entry, _, _, verified, _, checks⟩ := fairLqc.exists_sample
    [{ signer := 1, registry := openedRegistry 1 }, { signer := 1, registry := openedRegistry 1 }]
    (fun _ entry _ => decide (entry.header.number = 2)) (by decide +kernel)
  have second : entry.header.number = 2 := of_decide_eq_true checks
  obtain ⟨⟨parent, rest, _, queuePos, slot, rfl, _, _, checked, reached, _⟩, _⟩ :=
    slot_fairness (plainLqc fairConfig) (fun _ _ => {}) branch entry.header _ entry verified (by rw [second]; decide)
      (by rw [second]; decide)
  exact ⟨parent, rest, entry, queuePos, slot, second, verified, checked, reached⟩

end RabbitLqc
