import Mathlib

/-!
# A key-value store

What a database or an index answers for each key. Writing or erasing one key leaves the answers for all others.
-/

namespace RabbitLqc.Lib

/-- What is stored under each key. -/
structure Store (K V : Type) where
  get : K → Option V

namespace Store

variable {K V : Type}

def has (store : Store K V) (key : K) : Bool := (store.get key).isSome

def put [DecidableEq K] (store : Store K V) (key : K) (value : V) : Store K V :=
  ⟨Function.update store.get key (some value)⟩

@[simp] theorem get_put_same [DecidableEq K] (store : Store K V) (key : K) (value : V) :
    (store.put key value).get key = some value :=
  Function.update_self ..

theorem get_put_other [DecidableEq K] (store : Store K V) {key other : K} (value : V) (different : other ≠ key) :
    (store.put key value).get other = store.get other :=
  Function.update_of_ne different ..

def erase [DecidableEq K] (store : Store K V) (key : K) : Store K V :=
  ⟨Function.update store.get key none⟩

@[simp] theorem get_erase_same [DecidableEq K] (store : Store K V) (key : K) : (store.erase key).get key = none :=
  Function.update_self ..

theorem get_erase_other [DecidableEq K] (store : Store K V) {key other : K} (different : other ≠ key) :
    (store.erase key).get other = store.get other :=
  Function.update_of_ne different ..

/-- A store is what it answers. -/
theorem ext_get {left right : Store K V} (same : ∀ key value, left.get key = some value ↔ right.get key = some value) :
    left = right := by
  cases left
  cases right
  exact congrArg Store.mk (funext fun key => Option.ext (same key))

theorem has_iff {store : Store K V} {key : K} : store.has key = true ↔ ∃ value, store.get key = some value :=
  Option.isSome_iff_exists

end Store

end RabbitLqc.Lib
