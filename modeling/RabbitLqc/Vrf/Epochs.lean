import RabbitLqc.Lib.Words
import RabbitLqc.Vrf.Committee

/-!
# The epoch schedules in machine words

The schedule functions compute with 64-bit words. Each one returns the exact number or an error, never a wrapped value,
and so agrees with the same function over natural numbers. From the exact values follow the schedules themselves: which
epoch a block lies in, commits and selects by, and which blocks anchor its tickets.
-/

namespace RabbitLqc
open Lib

namespace Words

def maxWord : UInt64 := 0xffffffffffffffff

/-! ### Work epochs -/

def workEpochForBlockV1 (blockNumber epochLength : UInt64) : Except LqcError UInt64 := do
  ensure (blockNumber ≠ 0 ∧ epochLength ≠ 0) .invalidWorkEpochLengthV1
  .ok ((blockNumber - 1) / epochLength + 1)

def workEpochStartBlockV1 (epoch epochLength : UInt64) : Except LqcError UInt64 := do
  ensure (epoch ≠ 0 ∧ epochLength ≠ 0) .invalidWorkEpochLengthV1
  ensure (epoch - 1 ≤ (maxWord - 1) / epochLength) .invalidWorkEpochLengthV1
  .ok ((epoch - 1) * epochLength + 1)

def workEpochAnchorBlockV1 (epoch epochLength : UInt64) : Except LqcError UInt64 := do
  let start ← workEpochStartBlockV1 epoch epochLength
  .ok (start - 1)

def earlierWorkEpoch (delay blockNumber epochLength : UInt64) : Except LqcError (Option UInt64) := do
  let current ← workEpochForBlockV1 blockNumber epochLength
  .ok (if current ≤ delay then none else some (current - delay))

def workCommitTargetEpochV1 : UInt64 → UInt64 → Except LqcError (Option UInt64) := earlierWorkEpoch 1

def workSelectionSourceEpochV1 : UInt64 → UInt64 → Except LqcError (Option UInt64) := earlierWorkEpoch 2

def anchorBlock (delay first epoch epochLength : UInt64) : Except LqcError UInt64 := do
  ensure (epoch ≠ 0 ∧ epochLength ≠ 0) .invalidWorkAnchorScheduleV1
  if epoch ≤ delay then .ok first
  else do
    ensure (epoch - delay ≤ maxWord / epochLength) .invalidWorkAnchorScheduleV1
    .ok ((epoch - delay) * epochLength)

def workDatasetAnchorBlockV1 : UInt64 → UInt64 → Except LqcError UInt64 := anchorBlock 2 0

def workChallengeAnchorBlockV1 : UInt64 → UInt64 → Except LqcError UInt64 := anchorBlock 1 1

/-! ### VRF epochs -/

def rabbitVRFDKGPreparationEpochForSourceV1 (sourceWorkEpoch : UInt64) : Except LqcError UInt64 := do
  ensure (sourceWorkEpoch ≠ 0 ∧ sourceWorkEpoch ≤ maxWord - 2) .invalidRabbitVRFEpochV1
  .ok (sourceWorkEpoch + 2)

def rabbitVRFTargetEpochForSourceWorkEpochV1 (sourceWorkEpoch : UInt64) : Except LqcError UInt64 := do
  let preparationEpoch ← rabbitVRFDKGPreparationEpochForSourceV1 sourceWorkEpoch
  ensure (preparationEpoch ≤ maxWord - 1) .invalidRabbitVRFEpochV1
  .ok (preparationEpoch + 1)

def rabbitVRFSourceWorkEpochForTargetEpochV1 (targetVRFEpoch : UInt64) : Except LqcError (Option UInt64) := do
  ensure (targetVRFEpoch ≠ 0) .invalidRabbitVRFEpochV1
  .ok (if targetVRFEpoch ≤ 3 then none else some (targetVRFEpoch - 3))

def rabbitVRFEpochForBlockV1 (blockNumber epochLength : UInt64) : Except LqcError UInt64 :=
  failAs .invalidRabbitVRFEpochV1 (workEpochForBlockV1 blockNumber epochLength)

def rabbitVRFEpochStartBlockV1 (vrfEpoch epochLength : UInt64) : Except LqcError UInt64 :=
  failAs .invalidRabbitVRFEpochV1 (workEpochStartBlockV1 vrfEpoch epochLength)

def rabbitVRFDKGPreparationStartBlockV1 (sourceWorkEpoch epochLength : UInt64) : Except LqcError UInt64 := do
  let preparationEpoch ← rabbitVRFDKGPreparationEpochForSourceV1 sourceWorkEpoch
  rabbitVRFEpochStartBlockV1 preparationEpoch epochLength

def rabbitVRFTargetEpochStartBlockForSourceV1 (sourceWorkEpoch epochLength : UInt64) : Except LqcError UInt64 := do
  let targetEpoch ← rabbitVRFTargetEpochForSourceWorkEpochV1 sourceWorkEpoch
  rabbitVRFEpochStartBlockV1 targetEpoch epochLength

/-! ### Words and numbers -/

theorem toNat_maxWord : maxWord.toNat = maxUint64 := rfl

section Exact

variable {block epoch length start source target : UInt64}

theorem both_ne_zero : (epoch ≠ 0 ∧ length ≠ 0) ↔ (epoch.toNat ≠ 0 ∧ length.toNat ≠ 0) :=
  and_congr Word.ne_zero_iff Word.ne_zero_iff

theorem toNat_pred (started : epoch ≠ 0) : (epoch - 1).toNat = epoch.toNat - 1 :=
  Word.toNat_sub (Nat.one_le_iff_ne_zero.mpr (Word.toNat_ne_zero started))

theorem workEpochForBlockV1_toNat (block length : UInt64) : (workEpochForBlockV1 block length).map UInt64.toNat =
    RabbitLqc.workEpochForBlockV1 block.toNat length.toNat := by
  refine Word.map_guarded both_ne_zero ?_
  rintro ⟨started, _⟩
  have before := toNat_pred started
  have quotient := Nat.div_le_self (block.toNat - 1) length.toNat
  have small := block.toNat_lt
  change Except.ok ((block - 1) / length + 1).toNat = Except.ok ((block.toNat - 1) / length.toNat + 1)
  rw [Word.toNat_add, UInt64.toNat_div, before]
  · rfl
  · rw [UInt64.toNat_div, before]
    change _ + 1 < _
    have := Word.toNat_ne_zero started
    omega

theorem workEpochStartBlockV1_toNat (epoch length : UInt64) : (workEpochStartBlockV1 epoch length).map UInt64.toNat =
    RabbitLqc.workEpochStartBlockV1 epoch.toNat length.toNat := by
  refine Word.map_guarded both_ne_zero ?_
  rintro ⟨started, _⟩
  have limit : ((maxWord - 1) / length).toNat = (maxUint64 - 1) / length.toNat := UInt64.toNat_div ..
  have guard : epoch - 1 ≤ (maxWord - 1) / length ↔ epoch.toNat - 1 ≤ (maxUint64 - 1) / length.toNat := by
    rw [UInt64.le_iff_toNat_le, toNat_pred started, limit]
  refine Word.map_guarded guard ?_
  intro below
  have exact : (epoch.toNat - 1) * length.toNat ≤ maxUint64 - 1 :=
    (Nat.mul_le_mul_right _ (guard.mp below)).trans (Nat.div_mul_le_self ..)
  have product : ((epoch - 1) * length).toNat = (epoch.toNat - 1) * length.toNat := by
    rw [Word.toNat_mul, toNat_pred started]
    rw [toNat_pred started]
    exact exact.trans_lt (by decide)
  change Except.ok ((epoch - 1) * length + 1).toNat = Except.ok ((epoch.toNat - 1) * length.toNat + 1)
  rw [Word.toNat_add, product]
  · rfl
  · rw [product]
    exact (Nat.add_le_add_right exact 1).trans_lt (by decide)

theorem earlier_toNat (current delay : UInt64) :
    (if current ≤ delay then none else some (current - delay)).map UInt64.toNat =
      if current.toNat ≤ delay.toNat then none else some (current.toNat - delay.toNat) := by
  by_cases early : current ≤ delay
  · rw [if_pos early, if_pos (UInt64.le_iff_toNat_le.mp early)]
    rfl
  · have late : ¬ current.toNat ≤ delay.toNat := fun below => early (UInt64.le_iff_toNat_le.mpr below)
    rw [if_neg early, if_neg late, Option.map_some, Word.toNat_sub (Nat.le_of_not_le late)]

theorem anchorBlock_toNat (delay first epoch length : UInt64) :
    (anchorBlock delay first epoch length).map UInt64.toNat =
      RabbitLqc.anchorBlock delay.toNat first.toNat epoch.toNat length.toNat := by
  refine Word.map_guarded both_ne_zero ?_
  intro _
  by_cases early : epoch ≤ delay
  · rw [if_pos early, if_pos (UInt64.le_iff_toNat_le.mp early)]
    rfl
  · have late : ¬ epoch.toNat ≤ delay.toNat := fun below => early (UInt64.le_iff_toNat_le.mpr below)
    have past : (epoch - delay).toNat = epoch.toNat - delay.toNat := Word.toNat_sub (Nat.le_of_not_le late)
    rw [if_neg early, if_neg late]
    have guard : epoch - delay ≤ maxWord / length ↔ epoch.toNat - delay.toNat ≤ maxUint64 / length.toNat := by
      rw [UInt64.le_iff_toNat_le, past, UInt64.toNat_div, toNat_maxWord]
    refine Word.map_guarded guard ?_
    intro below
    have exact : (epoch.toNat - delay.toNat) * length.toNat ≤ maxUint64 :=
      (Nat.mul_le_mul_right _ (guard.mp below)).trans (Nat.div_mul_le_self ..)
    change Except.ok ((epoch - delay) * length).toNat = Except.ok ((epoch.toNat - delay.toNat) * length.toNat)
    rw [Word.toNat_mul, past]
    rw [past]
    exact exact.trans_lt (by decide)

theorem rabbitVRFDKGPreparationEpochForSourceV1_toNat (source : UInt64) :
    (rabbitVRFDKGPreparationEpochForSourceV1 source).map UInt64.toNat =
      RabbitLqc.rabbitVRFDKGPreparationEpochForSourceV1 source.toNat := by
  have guard : (source ≠ 0 ∧ source ≤ maxWord - 2) ↔ (source.toNat ≠ 0 ∧ source.toNat ≤ maxUint64 - 2) :=
    and_congr Word.ne_zero_iff UInt64.le_iff_toNat_le
  refine Word.map_guarded guard ?_
  intro checked
  change Except.ok (source + 2).toNat = Except.ok (source.toNat + 2)
  rw [Word.toNat_add]
  · rfl
  · exact (Nat.add_le_add_right (guard.mp checked).2 2).trans_lt (by decide)

theorem rabbitVRFTargetEpochForSourceWorkEpochV1_toNat (source : UInt64) :
    (rabbitVRFTargetEpochForSourceWorkEpochV1 source).map UInt64.toNat =
      RabbitLqc.rabbitVRFTargetEpochForSourceWorkEpochV1 source.toNat := by
  refine Word.map_bind (rabbitVRFDKGPreparationEpochForSourceV1_toNat source) ?_
  intro preparation _
  have guard : preparation ≤ maxWord - 1 ↔ preparation.toNat ≤ maxUint64 - 1 := UInt64.le_iff_toNat_le
  refine Word.map_guarded guard ?_
  intro below
  change Except.ok (preparation + 1).toNat = Except.ok (preparation.toNat + 1)
  rw [Word.toNat_add]
  · rfl
  · exact (Nat.add_le_add_right (guard.mp below) 1).trans_lt (by decide)

theorem rabbitVRFSourceWorkEpochForTargetEpochV1_toNat (target : UInt64) :
    (rabbitVRFSourceWorkEpochForTargetEpochV1 target).map (Option.map UInt64.toNat) =
      RabbitLqc.rabbitVRFSourceWorkEpochForTargetEpochV1 target.toNat :=
  Word.map_guarded Word.ne_zero_iff fun _ => congrArg Except.ok (earlier_toNat target 3)

/-! ### Exact values -/

theorem workEpochForBlockV1_ok_iff : workEpochForBlockV1 block length = .ok epoch ↔
    block.toNat ≠ 0 ∧ length.toNat ≠ 0 ∧ epoch.toNat = (block.toNat - 1) / length.toNat + 1 := by
  rw [Word.ok_iff_toNat (workEpochForBlockV1_toNat block length), RabbitLqc.workEpochForBlockV1]
  simp only [ensure_bind_ok_iff, Except.ok.injEq, and_assoc]
  exact and_congr_right fun _ => and_congr_right fun _ => eq_comm

theorem epoch_ne_zero (here : workEpochForBlockV1 block length = .ok epoch) : epoch.toNat ≠ 0 := by
  rw [(workEpochForBlockV1_ok_iff.mp here).2.2]
  exact Nat.succ_ne_zero _

theorem workEpochStartBlockV1_ok_iff : workEpochStartBlockV1 epoch length = .ok start ↔
    epoch.toNat ≠ 0 ∧ length.toNat ≠ 0 ∧ start.toNat = (epoch.toNat - 1) * length.toNat + 1 := by
  rw [Word.ok_iff_toNat (workEpochStartBlockV1_toNat epoch length), RabbitLqc.workEpochStartBlockV1]
  simp only [ensure_bind_ok_iff, Except.ok.injEq, and_assoc]
  have word := start.toNat_lt
  constructor
  · rintro ⟨started, positive, _, value⟩
    exact ⟨started, positive, value.symm⟩
  · rintro ⟨started, positive, value⟩
    -- the exact value is a word, so the guard against overflow passes
    refine ⟨started, positive, (Nat.le_div_iff_mul_le (Nat.pos_of_ne_zero positive)).mpr ?_, value.symm⟩
    rw [maxUint64]
    omega

theorem workEpochAnchorBlockV1_ok_iff {anchor : UInt64} : workEpochAnchorBlockV1 epoch length = .ok anchor ↔
    ∃ start, workEpochStartBlockV1 epoch length = .ok start ∧ anchor.toNat + 1 = start.toNat := by
  unfold workEpochAnchorBlockV1
  simp only [bind_ok_iff, Except.ok.injEq]
  refine exists_congr fun start => and_congr_right fun found => ?_
  have value := (workEpochStartBlockV1_ok_iff.mp found).2.2
  have exact : (start - 1).toNat = start.toNat - 1 := toNat_pred (Word.ne_zero_iff.mpr (by omega))
  rw [← UInt64.toNat_inj, exact]
  omega

theorem earlierWorkEpoch_ok_iff {delay : UInt64} : earlierWorkEpoch delay block length = .ok (some epoch) ↔
    epoch.toNat ≠ 0 ∧ ∃ current, workEpochForBlockV1 block length = .ok current ∧
      current.toNat = epoch.toNat + delay.toNat := by
  unfold earlierWorkEpoch
  rw [bind_ok_iff, ← exists_and_left]
  refine exists_congr fun current => ?_
  rw [and_left_comm]
  refine and_congr_right fun _ => ?_
  rw [Except.ok.injEq, ← Option.map_injective (fun _ _ => UInt64.toNat.inj) |>.eq_iff, earlier_toNat, Option.map_some]
  split
  · simp
    omega
  · rw [Option.some.injEq]
    omega

theorem earlierWorkEpoch_none_iff {delay : UInt64} : earlierWorkEpoch delay block length = .ok none ↔
    ∃ current, workEpochForBlockV1 block length = .ok current ∧ current.toNat ≤ delay.toNat := by
  unfold earlierWorkEpoch
  rw [bind_ok_iff]
  refine exists_congr fun current => and_congr_right fun _ => ?_
  rw [Except.ok.injEq, ite_eq_left_iff, UInt64.le_iff_toNat_le]
  simp

theorem anchorBlock_ok_iff {delay first anchor : UInt64} : anchorBlock delay first epoch length = .ok anchor ↔
    epoch.toNat ≠ 0 ∧ length.toNat ≠ 0 ∧ anchor.toNat =
      if epoch.toNat ≤ delay.toNat then first.toNat else (epoch.toNat - delay.toNat) * length.toNat := by
  rw [Word.ok_iff_toNat (anchorBlock_toNat delay first epoch length), RabbitLqc.anchorBlock]
  simp only [ensure_bind_ok_iff, and_assoc]
  have word := anchor.toNat_lt
  refine and_congr_right fun _ => and_congr_right fun positive => ?_
  split
  · rw [Except.ok.injEq, eq_comm]
  · simp only [ensure_bind_ok_iff, Except.ok.injEq]
    constructor
    · rintro ⟨_, value⟩
      exact value.symm
    · intro value
      refine ⟨(Nat.le_div_iff_mul_le (Nat.pos_of_ne_zero positive)).mpr ?_, value.symm⟩
      rw [maxUint64]
      omega

theorem rabbitVRFDKGPreparationEpochForSourceV1_ok_iff {preparation : UInt64} :
    rabbitVRFDKGPreparationEpochForSourceV1 source = .ok preparation ↔
      source.toNat ≠ 0 ∧ preparation.toNat = source.toNat + 2 := by
  rw [Word.ok_iff_toNat (rabbitVRFDKGPreparationEpochForSourceV1_toNat source),
    RabbitLqc.rabbitVRFDKGPreparationEpochForSourceV1]
  simp only [ensure_bind_ok_iff, Except.ok.injEq]
  rw [maxUint64]
  have word := preparation.toNat_lt
  omega

theorem rabbitVRFTargetEpochForSourceWorkEpochV1_ok_iff :
    rabbitVRFTargetEpochForSourceWorkEpochV1 source = .ok target ↔
      source.toNat ≠ 0 ∧ target.toNat = source.toNat + 3 := by
  rw [Word.ok_iff_toNat (rabbitVRFTargetEpochForSourceWorkEpochV1_toNat source),
    RabbitLqc.rabbitVRFTargetEpochForSourceWorkEpochV1, RabbitLqc.rabbitVRFDKGPreparationEpochForSourceV1]
  simp only [bind_ok_iff, ensure_ok_iff, exists_unit, Except.ok.injEq]
  rw [maxUint64]
  have word := target.toNat_lt
  constructor
  · rintro ⟨_, ⟨⟨started, _⟩, rfl⟩, _, value⟩
    exact ⟨started, by omega⟩
  · rintro ⟨started, value⟩
    exact ⟨_, ⟨⟨started, by omega⟩, rfl⟩, by omega, by omega⟩

theorem rabbitVRFSourceWorkEpochForTargetEpochV1_ok_iff :
    rabbitVRFSourceWorkEpochForTargetEpochV1 target = .ok (some source) ↔
      source.toNat ≠ 0 ∧ target.toNat = source.toNat + 3 := by
  rw [Word.ok_some_iff_toNat (rabbitVRFSourceWorkEpochForTargetEpochV1_toNat target),
    RabbitLqc.rabbitVRFSourceWorkEpochForTargetEpochV1]
  simp only [ensure_bind_ok_iff, Except.ok.injEq]
  split
  · simp
    omega
  · rw [Option.some.injEq]
    omega

theorem rabbitVRFEpochForBlockV1_ok_iff :
    rabbitVRFEpochForBlockV1 block length = .ok epoch ↔ workEpochForBlockV1 block length = .ok epoch :=
  failAs_ok_iff

theorem rabbitVRFDKGPreparationStartBlockV1_ok_iff (positive : length.toNat ≠ 0) :
    rabbitVRFDKGPreparationStartBlockV1 source length = .ok start ↔
      source.toNat ≠ 0 ∧ start.toNat = (source.toNat + 1) * length.toNat + 1 := by
  unfold rabbitVRFDKGPreparationStartBlockV1 rabbitVRFEpochStartBlockV1
  simp only [bind_ok_iff, failAs_ok_iff, rabbitVRFDKGPreparationEpochForSourceV1_ok_iff, workEpochStartBlockV1_ok_iff]
  have word := start.toNat_lt
  constructor
  · rintro ⟨preparation, ⟨started, value⟩, _, _, exact⟩
    rw [value] at exact
    exact ⟨started, exact⟩
  · rintro ⟨started, exact⟩
    -- the start fits in a word, and with it the epoch
    have fits : source.toNat + 2 < 2 ^ 64 := by
      have := Nat.le_mul_of_pos_right (source.toNat + 1) (Nat.pos_of_ne_zero positive)
      omega
    have value : (source + 2).toNat = source.toNat + 2 := Word.toNat_add fits
    exact ⟨source + 2, ⟨started, value⟩, by omega, positive, by rw [value]; exact exact⟩

theorem rabbitVRFTargetEpochStartBlockForSourceV1_ok_iff (positive : length.toNat ≠ 0) :
    rabbitVRFTargetEpochStartBlockForSourceV1 source length = .ok start ↔
      source.toNat ≠ 0 ∧ start.toNat = (source.toNat + 2) * length.toNat + 1 := by
  unfold rabbitVRFTargetEpochStartBlockForSourceV1 rabbitVRFEpochStartBlockV1
  simp only [bind_ok_iff, failAs_ok_iff, rabbitVRFTargetEpochForSourceWorkEpochV1_ok_iff,
    workEpochStartBlockV1_ok_iff]
  have word := start.toNat_lt
  constructor
  · rintro ⟨target, ⟨started, value⟩, _, _, exact⟩
    rw [value] at exact
    exact ⟨started, exact⟩
  · rintro ⟨started, exact⟩
    have fits : source.toNat + 3 < 2 ^ 64 := by
      have := Nat.le_mul_of_pos_right (source.toNat + 2) (Nat.pos_of_ne_zero positive)
      omega
    have value : (source + 3).toNat = source.toNat + 3 := Word.toNat_add fits
    exact ⟨source + 3, ⟨started, value⟩, by omega, positive, by rw [value]; exact exact⟩

end Exact

/-! ### The schedules -/

/-- Every function that could leave the range of a word returns the exact number when that is a word, and an error
otherwise. -/
structure Exact (length : UInt64) : Prop where
  start : ∀ epoch block, workEpochStartBlockV1 epoch length = .ok block ↔
    epoch ≠ 0 ∧ block.toNat = (epoch.toNat - 1) * length.toNat + 1
  anchor : ∀ epoch block, workEpochAnchorBlockV1 epoch length = .ok block ↔
    ∃ start, workEpochStartBlockV1 epoch length = .ok start ∧ block.toNat + 1 = start.toNat
  dataset : ∀ epoch block, workDatasetAnchorBlockV1 epoch length = .ok block ↔
    epoch ≠ 0 ∧ block.toNat = (epoch.toNat - 2) * length.toNat
  challenge : ∀ epoch block, workChallengeAnchorBlockV1 epoch length = .ok block ↔
    epoch ≠ 0 ∧ block.toNat = if epoch = 1 then 1 else (epoch.toNat - 1) * length.toNat
  preparation : ∀ source epoch, rabbitVRFDKGPreparationEpochForSourceV1 source = .ok epoch ↔
    source ≠ 0 ∧ epoch.toNat = source.toNat + 2
  target : ∀ source epoch, rabbitVRFTargetEpochForSourceWorkEpochV1 source = .ok epoch ↔
    source ≠ 0 ∧ epoch.toNat = source.toNat + 3
  preparationStart : ∀ source block, rabbitVRFDKGPreparationStartBlockV1 source length = .ok block ↔
    source ≠ 0 ∧ block.toNat = (source.toNat + 1) * length.toNat + 1
  targetStart : ∀ source block, rabbitVRFTargetEpochStartBlockForSourceV1 source length = .ok block ↔
    source ≠ 0 ∧ block.toNat = (source.toNat + 2) * length.toNat + 1

/-- What the schedules of epochs of one length have to agree on. -/
structure Consistent (length : UInt64) : Prop where
  /-- A block lies in the epoch that began last. -/
  containing : ∀ block, block ≠ 0 → ∃ epoch start, workEpochForBlockV1 block length = .ok epoch ∧
    workEpochStartBlockV1 epoch length = .ok start ∧ start.toNat ≤ block.toNat ∧
    block.toNat < start.toNat + length.toNat
  first : ∀ epoch start, workEpochStartBlockV1 epoch length = .ok start → workEpochForBlockV1 start length = .ok epoch
  /-- The next block lies in the same epoch or begins the next one. -/
  next : ∀ block epoch, block ≠ maxWord → workEpochForBlockV1 block length = .ok epoch →
    workEpochForBlockV1 (block + 1) length = .ok epoch ∨
      ∃ following, following.toNat = epoch.toNat + 1 ∧ workEpochForBlockV1 (block + 1) length = .ok following ∧
        workEpochStartBlockV1 following length = .ok (block + 1)
  /-- Tickets of an epoch are committed in the next one. -/
  commits : ∀ block epoch, workCommitTargetEpochV1 block length = .ok (some epoch) ↔
    epoch ≠ 0 ∧ ∃ current, workEpochForBlockV1 block length = .ok current ∧ current.toNat = epoch.toNat + 1
  commitsNone : ∀ block, workCommitTargetEpochV1 block length = .ok none ↔ workEpochForBlockV1 block length = .ok 1
  /-- Its seats elect in the one after that. -/
  selects : ∀ block epoch, workSelectionSourceEpochV1 block length = .ok (some epoch) ↔
    epoch ≠ 0 ∧ ∃ current, workEpochForBlockV1 block length = .ok current ∧ current.toNat = epoch.toNat + 2
  selectsNone : ∀ block, workSelectionSourceEpochV1 block length = .ok none ↔
    workEpochForBlockV1 block length = .ok 1 ∨ workEpochForBlockV1 block length = .ok 2
  /-- Source and target epochs of a key generation determine each other. -/
  inverse : ∀ source target, rabbitVRFTargetEpochForSourceWorkEpochV1 source = .ok target ↔
    rabbitVRFSourceWorkEpochForTargetEpochV1 target = .ok (some source)
  /-- A committee generates its keyset in the blocks that its source epoch elects for. -/
  prepares : ∀ block source, workSelectionSourceEpochV1 block length = .ok (some source) ↔
    ∃ preparation, rabbitVRFDKGPreparationEpochForSourceV1 source = .ok preparation ∧
      rabbitVRFEpochForBlockV1 block length = .ok preparation
  /-- The anchors of an epoch lie before every block that commits its tickets or is elected by its seats. -/
  anchored : ∀ block epoch, workCommitTargetEpochV1 block length = .ok (some epoch) ∨
      workSelectionSourceEpochV1 block length = .ok (some epoch) →
    ∃ dataset challenge, workDatasetAnchorBlockV1 epoch length = .ok dataset ∧
      workChallengeAnchorBlockV1 epoch length = .ok challenge ∧ dataset < block ∧ challenge < block
  /-- Mining can begin with the epoch; the first epoch waits for its first block. -/
  minable : ∀ epoch start, workEpochStartBlockV1 epoch length = .ok start →
    ∃ dataset challenge, workDatasetAnchorBlockV1 epoch length = .ok dataset ∧
      workChallengeAnchorBlockV1 epoch length = .ok challenge ∧ dataset < start ∧
      (challenge < start ∨ epoch = 1 ∧ challenge = start)

section Schedules

variable {length : UInt64}

theorem exact_schedules (positive : length ≠ 0) : Exact length := by
  have number := Word.toNat_ne_zero positive
  have one (epoch : UInt64) : epoch = 1 ↔ epoch.toNat = 1 := UInt64.toNat_inj.symm
  constructor
  · intro epoch block
    simp only [workEpochStartBlockV1_ok_iff, Word.ne_zero_iff, number, ne_eq, not_false_eq_true, true_and]
  · exact fun epoch block => workEpochAnchorBlockV1_ok_iff
  · intro epoch block
    rw [workDatasetAnchorBlockV1, anchorBlock_ok_iff, Word.ne_zero_iff]
    refine and_congr_right fun started => (and_iff_right number).trans ?_
    change block.toNat = (if epoch.toNat ≤ 2 then 0 else (epoch.toNat - 2) * length.toNat) ↔ _
    split
    · next early => rw [Nat.sub_eq_zero_of_le early, Nat.zero_mul]
    · rfl
  · intro epoch block
    rw [workChallengeAnchorBlockV1, anchorBlock_ok_iff, Word.ne_zero_iff]
    refine and_congr_right fun started => (and_iff_right number).trans ?_
    change block.toNat = (if epoch.toNat ≤ 1 then 1 else (epoch.toNat - 1) * length.toNat) ↔ _
    have same : epoch.toNat ≤ 1 ↔ epoch = 1 := by
      rw [one]
      omega
    simp only [same]
  · intro source epoch
    rw [rabbitVRFDKGPreparationEpochForSourceV1_ok_iff, Word.ne_zero_iff]
  · intro source epoch
    rw [rabbitVRFTargetEpochForSourceWorkEpochV1_ok_iff, Word.ne_zero_iff]
  · intro source block
    rw [rabbitVRFDKGPreparationStartBlockV1_ok_iff number, Word.ne_zero_iff]
  · intro source block
    rw [rabbitVRFTargetEpochStartBlockForSourceV1_ok_iff number, Word.ne_zero_iff]

theorem epoch_containing (positive : length ≠ 0) {block : UInt64} (started : block ≠ 0) :
    ∃ epoch start, workEpochForBlockV1 block length = .ok epoch ∧ workEpochStartBlockV1 epoch length = .ok start ∧
      start.toNat ≤ block.toNat ∧ block.toNat < start.toNat + length.toNat := by
  have number := Word.toNat_ne_zero positive
  have word := block.toNat_lt
  obtain ⟨before, height⟩ : ∃ before, block.toNat = before + 1 :=
    Nat.exists_eq_succ_of_ne_zero (Word.toNat_ne_zero started)
  have below := Nat.div_mul_le_self before length.toNat
  have above := Nat.lt_div_mul_add (a := before) (Nat.pos_of_ne_zero number)
  have quotient := Nat.div_le_self before length.toNat
  obtain ⟨epoch, epochValue⟩ := @Word.exists_toNat (before / length.toNat + 1) (by omega)
  obtain ⟨start, startValue⟩ := @Word.exists_toNat (before / length.toNat * length.toNat + 1) (by omega)
  have inside : workEpochForBlockV1 block length = .ok epoch :=
    workEpochForBlockV1_ok_iff.mpr ⟨by omega, number, by rw [epochValue, height, Nat.add_sub_cancel]⟩
  have starts : workEpochStartBlockV1 epoch length = .ok start :=
    workEpochStartBlockV1_ok_iff.mpr ⟨by simp [epochValue], number, by rw [epochValue, startValue,
      Nat.add_sub_cancel]⟩
  exact ⟨epoch, start, inside, starts, by omega, by omega⟩

theorem epoch_first {epoch start : UInt64} (starts : workEpochStartBlockV1 epoch length = .ok start) :
    workEpochForBlockV1 start length = .ok epoch := by
  obtain ⟨started, number, value⟩ := workEpochStartBlockV1_ok_iff.mp starts
  refine workEpochForBlockV1_ok_iff.mpr ⟨by omega, number, ?_⟩
  rw [value, Nat.add_sub_cancel, Nat.mul_div_cancel _ (Nat.pos_of_ne_zero number)]
  omega

theorem epoch_next {block epoch : UInt64} (last : block ≠ maxWord)
    (here : workEpochForBlockV1 block length = .ok epoch) :
    workEpochForBlockV1 (block + 1) length = .ok epoch ∨
      ∃ following, following.toNat = epoch.toNat + 1 ∧ workEpochForBlockV1 (block + 1) length = .ok following ∧
        workEpochStartBlockV1 following length = .ok (block + 1) := by
  obtain ⟨height, number, value⟩ := workEpochForBlockV1_ok_iff.mp here
  have word := block.toNat_lt
  have notLast : block.toNat ≠ maxUint64 := fun same => last (UInt64.toNat.inj (same.trans toNat_maxWord.symm))
  rw [maxUint64] at notLast
  have after : (block + 1).toNat = block.toNat + 1 := Word.toNat_add (show block.toNat + 1 < 2 ^ 64 by omega)
  obtain ⟨before, same⟩ : ∃ before, block.toNat = before + 1 := Nat.exists_eq_succ_of_ne_zero height
  rw [same, Nat.add_sub_cancel] at value
  by_cases divides : length.toNat ∣ before + 1
  · have step : (before + 1) / length.toNat = before / length.toNat + 1 := Nat.succ_div_of_dvd divides
    have whole := Nat.div_mul_cancel divides
    have quotient := Nat.div_le_self (before + 1) length.toNat
    obtain ⟨following, followingValue⟩ := @Word.exists_toNat (epoch.toNat + 1) (by omega)
    right
    refine ⟨following, followingValue, workEpochForBlockV1_ok_iff.mpr ⟨by omega, number, ?_⟩,
      workEpochStartBlockV1_ok_iff.mpr ⟨by omega, number, ?_⟩⟩
    · rw [followingValue, after, same, Nat.add_sub_cancel, step, value]
    · rw [followingValue, after, same, Nat.add_sub_cancel, value, ← step, whole]
  · left
    refine workEpochForBlockV1_ok_iff.mpr ⟨by omega, number, ?_⟩
    rw [value, after, same, Nat.add_sub_cancel, Nat.succ_div_of_not_dvd divides]

theorem anchors_exist (positive : length ≠ 0) {epoch : UInt64} (started : epoch ≠ 0)
    (fits : (epoch.toNat - 1) * length.toNat < 2 ^ 64) :
    ∃ dataset challenge, workDatasetAnchorBlockV1 epoch length = .ok dataset ∧
      workChallengeAnchorBlockV1 epoch length = .ok challenge ∧ dataset.toNat ≤ (epoch.toNat - 1) * length.toNat ∧
      (challenge.toNat = (epoch.toNat - 1) * length.toNat ∨ epoch = 1 ∧ challenge.toNat = 1) := by
  have exact := exact_schedules positive
  have earlier : (epoch.toNat - 2) * length.toNat ≤ (epoch.toNat - 1) * length.toNat :=
    Nat.mul_le_mul_right _ (by omega)
  obtain ⟨dataset, datasetValue⟩ := Word.exists_toNat (earlier.trans_lt fits)
  have found := (exact.dataset epoch dataset).mpr ⟨started, datasetValue⟩
  by_cases one : epoch = 1
  · exact ⟨dataset, 1, found, (exact.challenge epoch 1).mpr ⟨started, by rw [if_pos one]; rfl⟩,
      datasetValue.trans_le earlier, .inr ⟨one, rfl⟩⟩
  · obtain ⟨challenge, challengeValue⟩ := Word.exists_toNat fits
    exact ⟨dataset, challenge, found, (exact.challenge epoch challenge).mpr ⟨started, by rw [if_neg one,
      challengeValue]⟩,
      datasetValue.trans_le earlier, .inl challengeValue⟩

theorem anchors_before (positive : length ≠ 0) {block epoch : UInt64} (started : epoch.toNat ≠ 0)
    (past : epoch.toNat * length.toNat < block.toNat) :
    ∃ dataset challenge, workDatasetAnchorBlockV1 epoch length = .ok dataset ∧
      workChallengeAnchorBlockV1 epoch length = .ok challenge ∧ dataset < block ∧ challenge < block := by
  have number := Nat.pos_of_ne_zero (Word.toNat_ne_zero positive)
  have word := block.toNat_lt
  have previous : (epoch.toNat - 1) * length.toNat ≤ epoch.toNat * length.toNat := Nat.mul_le_mul_right _ (by omega)
  have some : epoch.toNat ≤ epoch.toNat * length.toNat := Nat.le_mul_of_pos_right _ number
  obtain ⟨dataset, challenge, first, second, early, late⟩ :=
    anchors_exist positive (Word.ne_zero_iff.mpr started) (by omega)
  refine ⟨dataset, challenge, first, second, UInt64.lt_iff_toNat_lt.mpr (by omega), UInt64.lt_iff_toNat_lt.mpr ?_⟩
  rcases late with value | ⟨_, value⟩ <;> omega

/-- The blocks of the epoch `delay` later come after the end of the epoch. -/
theorem earlier_past {block epoch delay : UInt64} (later : delay.toNat ≠ 0)
    (found : earlierWorkEpoch delay block length = .ok (some epoch)) :
    epoch.toNat ≠ 0 ∧ epoch.toNat * length.toNat < block.toNat := by
  obtain ⟨started, current, here, delayed⟩ := earlierWorkEpoch_ok_iff.mp found
  obtain ⟨height, _, value⟩ := workEpochForBlockV1_ok_iff.mp here
  refine ⟨started, ?_⟩
  have reached : epoch.toNat ≤ (block.toNat - 1) / length.toNat := by omega
  have product := (Nat.mul_le_mul_right length.toNat reached).trans (Nat.div_mul_le_self ..)
  omega

theorem consistent_schedules (positive : length ≠ 0) : Consistent length where
  containing _ := epoch_containing positive
  first _ _ := epoch_first
  next _ _ := epoch_next
  commits block epoch := by
    rw [workCommitTargetEpochV1, earlierWorkEpoch_ok_iff, Word.ne_zero_iff]
    rfl
  commitsNone block := by
    rw [workCommitTargetEpochV1, earlierWorkEpoch_none_iff]
    constructor
    · rintro ⟨current, here, early⟩
      have started := epoch_ne_zero here
      change current.toNat ≤ 1 at early
      have one : current = 1 := UInt64.toNat.inj (show current.toNat = 1 by omega)
      exact one ▸ here
    · exact fun here => ⟨1, here, le_rfl⟩
  selects block epoch := by
    rw [workSelectionSourceEpochV1, earlierWorkEpoch_ok_iff, Word.ne_zero_iff]
    rfl
  selectsNone block := by
    rw [workSelectionSourceEpochV1, earlierWorkEpoch_none_iff]
    constructor
    · rintro ⟨current, here, early⟩
      have started := epoch_ne_zero here
      change current.toNat ≤ 2 at early
      rcases (show current.toNat = 1 ∨ current.toNat = 2 by omega) with one | two
      · exact .inl ((UInt64.toNat.inj one : current = 1) ▸ here)
      · exact .inr ((UInt64.toNat.inj two : current = 2) ▸ here)
    · rintro (here | here)
      · exact ⟨1, here, Nat.le_succ 1⟩
      · exact ⟨2, here, le_rfl⟩
  inverse source target := by
    rw [rabbitVRFTargetEpochForSourceWorkEpochV1_ok_iff, rabbitVRFSourceWorkEpochForTargetEpochV1_ok_iff]
  prepares block source := by
    rw [workSelectionSourceEpochV1, earlierWorkEpoch_ok_iff, ← exists_and_left]
    refine exists_congr fun epoch => ?_
    rw [rabbitVRFDKGPreparationEpochForSourceV1_ok_iff, rabbitVRFEpochForBlockV1_ok_iff, and_assoc]
    exact and_congr_right fun _ => and_comm
  anchored block epoch := by
    rintro (commits | selects)
    · obtain ⟨started, past⟩ := earlier_past (show UInt64.toNat 1 ≠ 0 by decide) commits
      exact anchors_before positive started past
    · obtain ⟨started, past⟩ := earlier_past (show UInt64.toNat 2 ≠ 0 by decide) selects
      exact anchors_before positive started past
  minable epoch start starts := by
    obtain ⟨started, _, value⟩ := workEpochStartBlockV1_ok_iff.mp starts
    have word := start.toNat_lt
    obtain ⟨dataset, challenge, first, second, early, late⟩ :=
      anchors_exist positive (Word.ne_zero_iff.mpr started) (by omega)
    refine ⟨dataset, challenge, first, second, UInt64.lt_iff_toNat_lt.mpr (by omega), ?_⟩
    rcases late with late | ⟨one, late⟩
    · exact .inl (UInt64.lt_iff_toNat_lt.mpr (by omega))
    · subst one
      exact .inr ⟨rfl, UInt64.toNat.inj (by rw [late, value]; simp)⟩

end Schedules

end Words

/-- The epoch schedules of any length agree with each other at every block, and no function of them wraps. -/
theorem epoch_schedules_consistent (length : UInt64) (positive : length ≠ 0) :
    Words.Consistent length ∧ Words.Exact length :=
  ⟨Words.consistent_schedules positive, Words.exact_schedules positive⟩

theorem epoch_schedules_consistent_protocol : Words.Consistent 128 ∧ Words.Exact 128 :=
  epoch_schedules_consistent 128 (by decide)

end RabbitLqc
