import Mathlib

/-!
# Balances in words

The balance of every account is a word, and adding to one wraps around as words do. As long as all balances together fit
into a word nothing wraps: amounts added and taken away are what the balances change by.
-/

namespace RabbitLqc.Lib

/-- Changing one entry of a table moves the total by the difference of the entry. -/
theorem sum_update_add {α β : Type} [Fintype α] [DecidableEq α] (weight : β → Nat) (table : α → β) (place : α)
    (value : β) :
    ∑ a, weight (Function.update table place value a) + weight (table place) =
      ∑ a, weight (table a) + weight value := by
  have after := Finset.add_sum_erase Finset.univ (fun a => weight (Function.update table place value a))
    (Finset.mem_univ place)
  have before := Finset.add_sum_erase Finset.univ (fun a => weight (table a)) (Finset.mem_univ place)
  have others : ∑ a ∈ Finset.univ.erase place, weight (Function.update table place value a) =
      ∑ a ∈ Finset.univ.erase place, weight (table a) :=
    Finset.sum_congr rfl fun a member => by rw [Function.update_of_ne (Finset.ne_of_mem_erase member)]
  simp only [Function.update_self] at after
  omega

namespace Balances

variable {Account : Type} [DecidableEq Account] {width : Nat}

def addBalance (balance : Account → BitVec width) (account : Account) (amount : BitVec width) :
    Account → BitVec width :=
  Function.update balance account (balance account + amount)

def subBalance (balance : Account → BitVec width) (account : Account) (amount : BitVec width) :
    Account → BitVec width :=
  Function.update balance account (balance account - amount)

/-- The same amount for every account of a list, as often as it is listed. -/
def addEach (balance : Account → BitVec width) (accounts : List Account) (amount : BitVec width) :
    Account → BitVec width :=
  accounts.foldl (fun balance account => addBalance balance account amount) balance

/-- All balances together, as a number. -/
def supply [Fintype Account] (balance : Account → BitVec width) : Nat := ∑ account, (balance account).toNat

variable {balance : Account → BitVec width} {account : Account} {amount : BitVec width}

@[simp] theorem addBalance_zero (balance : Account → BitVec width) (account : Account) :
    addBalance balance account 0 = balance := by
  rw [addBalance, add_zero, Function.update_eq_self]

@[simp] theorem subBalance_zero (balance : Account → BitVec width) (account : Account) :
    subBalance balance account 0 = balance := by
  rw [subBalance, sub_zero, Function.update_eq_self]

/-- Taking away no more than is there is exact for every account. -/
theorem toNat_subBalance (enough : amount ≤ balance account) (other : Account) :
    (subBalance balance account amount other).toNat + (if other = account then amount.toNat else 0) =
      (balance other).toNat := by
  by_cases same : other = account
  · subst same
    rw [subBalance, Function.update_self, if_pos rfl, BitVec.toNat_sub_of_le enough, Nat.sub_add_cancel enough]
  · rw [subBalance, Function.update_of_ne same, if_neg same, Nat.add_zero]

variable [Fintype Account]

omit [DecidableEq Account] in
theorem toNat_le_supply (balance : Account → BitVec width) (account : Account) :
    (balance account).toNat ≤ supply balance :=
  Finset.single_le_sum (f := fun a => (balance a).toNat) (fun _ _ => Nat.zero_le _) (Finset.mem_univ account)

theorem supply_subBalance (enough : amount ≤ balance account) :
    supply (subBalance balance account amount) + amount.toNat = supply balance := by
  have change := sum_update_add (fun word : BitVec width => word.toNat) balance account (balance account - amount)
  rw [BitVec.toNat_sub_of_le enough] at change
  have bound : amount.toNat ≤ (balance account).toNat := enough
  unfold supply subBalance
  omega

/-- No balance is above the supply, so a credit within it does not wrap. -/
theorem toNat_addBalance (fits : supply balance + amount.toNat < 2 ^ width) (other : Account) :
    (addBalance balance account amount other).toNat = (balance other).toNat +
      if other = account then amount.toNat else 0 := by
  by_cases same : other = account
  · subst same
    have bound := toNat_le_supply balance other
    rw [addBalance, Function.update_self, if_pos rfl, BitVec.toNat_add_of_lt (by omega)]
  · rw [addBalance, Function.update_of_ne same, if_neg same, Nat.add_zero]

theorem supply_addBalance (fits : supply balance + amount.toNat < 2 ^ width) :
    supply (addBalance balance account amount) = supply balance + amount.toNat := by
  have change := sum_update_add (fun word : BitVec width => word.toNat) balance account (balance account + amount)
  have bound := toNat_le_supply balance account
  rw [BitVec.toNat_add_of_lt (by omega)] at change
  unfold supply addBalance
  unfold supply at fits
  omega

/-- Credits that fit next to the supply add up to it and reach each account as often as it is listed. -/
theorem addEach_spec {accounts : List Account} (fits : supply balance + accounts.length * amount.toNat < 2 ^ width) :
    supply (addEach balance accounts amount) = supply balance + accounts.length * amount.toNat ∧
    ∀ other, (addEach balance accounts amount other).toNat =
      (balance other).toNat + accounts.count other * amount.toNat := by
  induction accounts generalizing balance with
  | nil => simp [addEach]
  | cons account rest ih =>
    rw [List.length_cons, Nat.add_mul, Nat.one_mul] at fits
    have first : supply balance + amount.toNat < 2 ^ width := by omega
    obtain ⟨total, each⟩ := @ih (addBalance balance account amount) (by rw [supply_addBalance first]; omega)
    rw [supply_addBalance first] at total
    have unfolded : addEach balance (account :: rest) amount =
        addEach (addBalance balance account amount) rest amount := rfl
    rw [unfolded, List.length_cons, Nat.add_mul, Nat.one_mul]
    refine ⟨by omega, ?_⟩
    intro other
    rw [each other, toNat_addBalance first, List.count_cons, Nat.add_mul]
    by_cases same : other = account
    · rw [if_pos same, if_pos (beq_iff_eq.mpr same.symm)]
      omega
    · rw [if_neg same, if_neg (fun equal => same (beq_iff_eq.mp equal).symm)]
      omega

end Balances

end RabbitLqc.Lib
