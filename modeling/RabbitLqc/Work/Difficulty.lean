import RabbitLqc.Work.Runtime

/-!
# Difficulties of the epochs

What the retargeting rule makes of a sequence of admissions, and how two scheduled difficulties
follow it: closing an epoch replaces the head of its parity by the one two epochs later.
-/

namespace RabbitLqc
open Lib

/-! ### The schedule of a sequence of admissions -/

/-- The difficulty two epochs after one of difficulty `current`. -/
def retargetedDifficulty (current observed : Nat) : Nat :=
  max 1 ((current * effectiveWorkTicketCountV1 observed + targetWorkTicketsPerEpochV1 / 2) /
    targetWorkTicketsPerEpochV1)

theorem nextWorkDifficultyV1_ok_iff {current observed next : Nat} :
    nextWorkDifficultyV1 current observed = .ok next ↔
      current ≠ 0 ∧ next = retargetedDifficulty current observed := by
  unfold nextWorkDifficultyV1 retargetedDifficulty
  simp only [ensure_bind_ok_iff, Except.ok.injEq]
  refine and_congr_right fun _ => ?_
  split
  · rename_i zero
    rw [zero]
    exact eq_comm
  · rename_i positive
    rw [max_eq_right (Nat.one_le_iff_ne_zero.mpr positive)]
    exact eq_comm

/-- The difficulty of each epoch when epoch `n` admits `admitted n` tickets. -/
def epochDifficulty (initial : Nat) (admitted : Nat → Nat) : Nat → Nat
  | 0 | 1 | 2 => initial
  | epoch + 3 => retargetedDifficulty (epochDifficulty initial admitted (epoch + 1)) (admitted (epoch + 1))

section EpochDifficulty

variable {initial : Nat} {admitted : Nat → Nat}

theorem epochDifficulty_ne_zero (positive : initial ≠ 0) (epoch : Nat) :
    epochDifficulty initial admitted epoch ≠ 0 := by
  match epoch with
  | 0 | 1 | 2 => exact positive
  | epoch + 3 => exact Nat.one_le_iff_ne_zero.mp (le_max_left _ _)

theorem epochDifficulty_next (positive : initial ≠ 0) {epoch : Nat} (started : epoch ≠ 0) :
    nextWorkDifficultyV1 (epochDifficulty initial admitted epoch) (admitted epoch) =
      .ok (epochDifficulty initial admitted (epoch + 2)) := by
  refine nextWorkDifficultyV1_ok_iff.mpr ⟨epochDifficulty_ne_zero positive epoch, ?_⟩
  obtain ⟨before, rfl⟩ := Nat.exists_eq_succ_of_ne_zero started
  rfl

theorem epochDifficulty_congr {other : Nat → Nat} (epoch : Nat)
    (same : ∀ earlier, earlier + 2 ≤ epoch → admitted earlier = other earlier) :
    epochDifficulty initial admitted epoch = epochDifficulty initial other epoch := by
  induction epoch using Nat.strongRecOn with
  | ind epoch ih =>
    match epoch with
    | 0 | 1 | 2 => rfl
    | epoch + 3 =>
      have before := ih (epoch + 1) (by omega) fun earlier bound => same earlier (by omega)
      simp only [epochDifficulty, before, same (epoch + 1) (by omega)]

end EpochDifficulty

/-! ### The two heads -/

namespace WorkDifficultyStateV1

variable {crypto : Crypto} {chainID : Nat} {state next : WorkDifficultyStateV1}

/-- The difficulties of `epoch` and the one after it. -/
def heads (difficulty : Nat → Nat) (epoch : Nat) : WorkDifficultyStateV1 :=
  if epoch % 2 = 1 then ⟨epoch, difficulty epoch, epoch + 1, difficulty (epoch + 1)⟩
  else ⟨epoch + 1, difficulty (epoch + 1), epoch, difficulty epoch⟩

theorem heads_congr {difficulty other : Nat → Nat} {epoch : Nat} (now : difficulty epoch = other epoch)
    (after : difficulty (epoch + 1) = other (epoch + 1)) : heads difficulty epoch = heads other epoch := by
  unfold heads
  rw [now, after]

theorem heads_valid {difficulty : Nat → Nat} {epoch : Nat} (positive : ∀ epoch, difficulty epoch ≠ 0)
    (started : epoch ≠ 0) : (heads difficulty epoch).Valid := by
  unfold heads
  by_cases odd : epoch % 2 = 1
  · rw [if_pos odd]
    exact ⟨⟨odd, positive _⟩, Nat.succ_ne_zero epoch, show (epoch + 1) % 2 = 0 by omega, positive _⟩
  · rw [if_neg odd]
    exact ⟨⟨show (epoch + 1) % 2 = 1 by omega, positive _⟩, started, show epoch % 2 = 0 by omega, positive _⟩

def scheduled (state : WorkDifficultyStateV1) (epoch : Nat) : Option Nat :=
  if epoch = state.oddEpoch then some state.oddDifficulty
  else if epoch = state.evenEpoch then some state.evenDifficulty
  else none

theorem scheduled_heads {difficulty : Nat → Nat} {epoch : Nat} :
    (heads difficulty epoch).scheduled epoch = some (difficulty epoch) := by
  unfold heads scheduled
  by_cases odd : epoch % 2 = 1
  · simp [odd]
  · simp [odd]

theorem difficultyForEpochV1_ok_iff (nonzero : ∀ bytes, crypto.keccak256 bytes ≠ 0) {epoch difficulty : Nat} :
    state.difficultyForEpochV1 crypto chainID epoch = .ok difficulty ↔
      (chainID ≠ 0 ∧ state.Valid) ∧ state.scheduled epoch = some difficulty := by
  unfold difficultyForEpochV1 scheduled
  simp only [bind_ok_iff, exists_unit, validate_ok_iff nonzero]
  refine and_congr_right fun _ => ?_
  by_cases odd : epoch = state.oddEpoch
  · rw [if_pos odd, if_pos odd, Except.ok.injEq, Option.some.injEq]
  · rw [if_neg odd, if_neg odd]
    by_cases even : epoch = state.evenEpoch
    · rw [if_pos even, if_pos even, Except.ok.injEq, Option.some.injEq]
    · rw [if_neg even, if_neg even]
      constructor
      · intro made
        cases made
      · intro scheduled
        cases scheduled

/-- The schedule with `difficulty` for the epoch two after `epoch`. -/
def reschedule (epoch difficulty : Nat) (state : WorkDifficultyStateV1) : WorkDifficultyStateV1 :=
  if epoch % 2 = 1 then { state with oddEpoch := epoch + 2, oddDifficulty := difficulty }
  else { state with evenEpoch := epoch + 2, evenDifficulty := difficulty }

theorem heads_reschedule (difficulty : Nat → Nat) (epoch : Nat) :
    (heads difficulty epoch).reschedule epoch (difficulty (epoch + 2)) = heads difficulty (epoch + 1) := by
  unfold heads reschedule
  by_cases odd : epoch % 2 = 1
  · have even : ¬ (epoch + 1) % 2 = 1 := by omega
    rw [if_pos odd, if_pos odd, if_neg even]
  · have next : (epoch + 1) % 2 = 1 := by omega
    rw [if_neg odd, if_neg odd, if_pos next]

theorem advanceClosedEpochV1_ok_iff (nonzero : ∀ bytes, crypto.keccak256 bytes ≠ 0)
    {closed : WorkEpochSnapshotV1} :
    state.advanceClosedEpochV1 crypto chainID closed = .ok next ↔
      (chainID ≠ 0 ∧ state.Valid) ∧ closed.validate crypto chainID = .ok () ∧
        state.scheduled closed.epoch = some closed.difficulty ∧ closed.difficulty ≠ 0 ∧
        closed.epoch ≤ maxUint64 - 2 ∧ next.Valid ∧
        next = state.reschedule closed.epoch (retargetedDifficulty closed.difficulty closed.seats.length) := by
  unfold advanceClosedEpochV1
  simp only [bind_ok_iff, exists_unit, validate_ok_iff nonzero, difficultyForEpochV1_ok_iff nonzero,
    nextWorkDifficultyV1_ok_iff, ensure_ok_iff, Except.ok.injEq]
  constructor
  · intro advanced
    obtain ⟨valid, checked, current, ⟨_, known⟩, same, difficulty, ⟨positive, rfl⟩, room, root, rooted,
      rfl⟩ := advanced
    subst same
    exact ⟨valid, checked, known, positive, room, (workDifficultyStateRootV1_ok_iff.mp ⟨root, rooted⟩).2, rfl⟩
  · intro given
    obtain ⟨valid, checked, known, positive, room, nextValid, rfl⟩ := given
    obtain ⟨root, rooted⟩ := (@workDifficultyStateRootV1_ok_iff crypto _ _).mpr ⟨valid.1, nextValid⟩
    exact ⟨valid, checked, _, ⟨valid, known⟩, rfl, _, ⟨positive, rfl⟩, room, root, rooted, rfl⟩

end WorkDifficultyStateV1

end RabbitLqc
