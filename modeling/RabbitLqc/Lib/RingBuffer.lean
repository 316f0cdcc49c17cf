import Mathlib.Data.List.Basic
import Mathlib.Logic.Function.Basic
import Mathlib.Tactic.Common

/-!
# Rings of recent values

A fixed number of cells written round and round: the cell written last and how many have been written say what the ring
retains. Read from the newest back, it retains the last values pushed.
-/

namespace RabbitLqc.Lib

structure RingBuffer (α : Type) where
  cells : Nat → α
  /-- The cell written last. -/
  index : Nat
  /-- How many cells have been written. -/
  count : Nat

namespace RingBuffer

variable {α : Type} (size : Nat) (ring : RingBuffer α)

/-- The value written `offset` pushes before the last one. -/
def back (offset : Nat) : α := ring.cells ((ring.index + size - offset) % size)

def retained : List α := (List.range ring.count).map (ring.back size)

def start (value : α) : RingBuffer α := { cells := Function.update ring.cells 0 value, index := 0, count := 1 }

def push (value : α) : RingBuffer α :=
  let next := (ring.index + 1) % size
  { cells := Function.update ring.cells next value
    index := next
    count := if ring.count < size then ring.count + 1 else ring.count }

structure WellFormed : Prop where
  index_lt : ring.index < size
  count_le : ring.count ≤ size

variable {size ring}

theorem wellFormed_start (positive : 0 < size) (value : α) : (ring.start value).WellFormed size := ⟨positive, positive⟩

theorem WellFormed.push (wf : ring.WellFormed size) (value : α) : (ring.push size value).WellFormed size := by
  have positive : 0 < size := Nat.zero_lt_of_lt wf.index_lt
  refine ⟨Nat.mod_lt _ positive, ?_⟩
  have count := wf.count_le
  show (if ring.count < size then ring.count + 1 else ring.count) ≤ size
  split <;> omega

theorem retained_start (value : α) : (ring.start value).retained size = [value] := by
  simp [retained, back, start]

theorem back_zero (wf : ring.WellFormed size) : ring.back size 0 = ring.cells ring.index := by
  rw [back, Nat.sub_zero, Nat.add_mod_right, Nat.mod_eq_of_lt wf.index_lt]

theorem back_push_zero (wf : ring.WellFormed size) (value : α) : (ring.push size value).back size 0 = value := by
  rw [back_zero (wf.push value)]
  exact Function.update_self _ _ _

theorem back_push_succ (wf : ring.WellFormed size) (value : α) {offset : Nat} (inside : offset + 1 < size) :
    (ring.push size value).back size (offset + 1) = ring.back size offset := by
  have index := wf.index_lt
  have moved : ((ring.index + 1) % size + size - (offset + 1)) % size = (ring.index + size - offset) % size := by
    rcases Nat.lt_or_ge (ring.index + 1) size with below | last
    · rw [Nat.mod_eq_of_lt below]
      congr 1
      omega
    · have full : ring.index + 1 = size := by omega
      have turn : ring.index + size - offset = size - (offset + 1) + size := by omega
      rw [full, Nat.mod_self, turn, Nat.add_mod_right, Nat.zero_add]
  have other : (ring.index + size - offset) % size ≠ (ring.index + 1) % size := by
    have place : (ring.index + size - offset) % size = if offset ≤ ring.index then ring.index - offset
        else ring.index + size - offset := by
      split
      · have turn : ring.index + size - offset = ring.index - offset + size := by omega
        rw [turn, Nat.add_mod_right, Nat.mod_eq_of_lt (by omega)]
      · exact Nat.mod_eq_of_lt (by omega)
    have next : (ring.index + 1) % size = if ring.index + 1 < size then ring.index + 1 else 0 := by
      split
      · rename_i below
        exact Nat.mod_eq_of_lt below
      · rw [show ring.index + 1 = size by omega, Nat.mod_self]
    rw [place, next]
    split <;> split <;> omega
  show Function.update ring.cells ((ring.index + 1) % size) value
    (((ring.index + 1) % size + size - (offset + 1)) % size) = _
  rw [moved, Function.update_of_ne other]
  rfl

/-- A push puts the value in front and forgets the oldest one once the ring is full. -/
theorem retained_push (wf : ring.WellFormed size) (value : α) :
    (ring.push size value).retained size = (value :: ring.retained size).take size := by
  have count := wf.count_le
  have length : (ring.push size value).count = min size (ring.count + 1) := by
    show (if ring.count < size then ring.count + 1 else ring.count) = _
    split <;> omega
  apply List.ext_getElem
  · simp [retained, length]
  · intro i inside _
    simp only [retained, List.length_map, List.length_range, length] at inside
    cases i with
    | zero => simp [retained, back_push_zero wf]
    | succ i => simp [retained, back_push_succ wf value (show i + 1 < size by omega)]

end RingBuffer

end RabbitLqc.Lib
