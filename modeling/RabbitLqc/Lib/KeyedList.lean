import Mathlib

/-!
# Records in key order

A finite map from keys to the records that carry them, kept as the list of its records in
strictly increasing key order, so that a map has one representation.
-/

namespace RabbitLqc.Lib

structure KeyedList (α : Type) (key : α → Nat) where
  items : List α
  sorted : items.Pairwise fun a b => key a < key b
deriving DecidableEq

namespace KeyedList

variable {α : Type} {key : α → Nat}

variable {map : KeyedList α key}

variable {value a : α} {items : List α} {k : Nat}

/-- Put `value` into a sorted list, in place of the record with its key. -/
def insert (key : α → Nat) (value : α) : List α → List α
  | [] => [value]
  | head :: rest =>
    if key value < key head then value :: head :: rest
    else if key value = key head then value :: rest
    else head :: insert key value rest

theorem insert_last (below : ∀ a ∈ items, key a < key value) : insert key value items = items ++ [value] := by
  induction items with
  | nil => rfl
  | cons head rest ih =>
    obtain ⟨first, others⟩ := List.forall_mem_cons.mp below
    unfold insert
    rw [if_neg (Nat.not_lt.mpr first.le), if_neg first.ne', ih others]
    rfl

theorem insert_perm (fresh : ∀ a ∈ items, key a ≠ key value) : (insert key value items).Perm (value :: items) := by
  induction items with
  | nil => exact .rfl
  | cons head rest ih =>
    obtain ⟨first, others⟩ := List.forall_mem_cons.mp fresh
    unfold insert
    split
    · exact .rfl
    · rw [if_neg (Ne.symm first)]
      exact ((ih others).cons head).trans (List.Perm.swap value head rest)

theorem mem_insert (sorted : items.Pairwise fun a b => key a < key b) :
    a ∈ insert key value items ↔ a = value ∨ (a ∈ items ∧ key a ≠ key value) := by
  induction items with
  | nil => simp [insert]
  | cons head rest ih =>
    obtain ⟨above, restSorted⟩ := List.pairwise_cons.mp sorted
    unfold insert
    split
    · rename_i below
      have apart : ∀ b ∈ head :: rest, key b ≠ key value := by
        intro b member
        rcases List.mem_cons.mp member with rfl | inRest
        · omega
        · have := above b inRest
          omega
      simp only [List.mem_cons]
      constructor
      · rintro (rfl | member)
        · exact .inl rfl
        · exact .inr ⟨member, apart a (List.mem_cons.mpr member)⟩
      · rintro (rfl | ⟨member, _⟩)
        · exact .inl rfl
        · exact .inr member
    · split
      · rename_i same
        simp only [List.mem_cons]
        constructor
        · rintro (rfl | member)
          · exact .inl rfl
          · have := above a member
            exact .inr ⟨.inr member, by omega⟩
        · rintro (rfl | ⟨rfl | member, different⟩)
          · exact .inl rfl
          · exact absurd same.symm different
          · exact .inr member
      · rename_i notBelow notSame
        simp only [List.mem_cons, ih restSorted]
        constructor
        · rintro (rfl | rfl | ⟨member, different⟩)
          · exact .inr ⟨.inl rfl, fun same => notSame same.symm⟩
          · exact .inl rfl
          · exact .inr ⟨.inr member, different⟩
        · rintro (rfl | ⟨rfl | member, different⟩)
          · exact .inr (.inl rfl)
          · exact .inl rfl
          · exact .inr (.inr ⟨member, different⟩)

theorem insert_sorted (sorted : items.Pairwise fun a b => key a < key b) :
    (insert key value items).Pairwise fun a b => key a < key b := by
  induction items with
  | nil => simp [insert]
  | cons head rest ih =>
    obtain ⟨above, restSorted⟩ := List.pairwise_cons.mp sorted
    unfold insert
    split
    · rename_i below
      refine List.pairwise_cons.mpr ⟨fun b member => ?_, sorted⟩
      rcases List.mem_cons.mp member with rfl | inRest
      · exact below
      · exact below.trans (above b inRest)
    · split
      · rename_i same
        exact List.pairwise_cons.mpr ⟨fun b member => same ▸ above b member, restSorted⟩
      · rename_i notBelow notSame
        refine List.pairwise_cons.mpr ⟨fun b member => ?_, ih restSorted⟩
        rcases (mem_insert restSorted).mp member with rfl | ⟨inRest, _⟩
        · omega
        · exact above b inRest

def empty : KeyedList α key := ⟨[], List.Pairwise.nil⟩

def put (map : KeyedList α key) (value : α) : KeyedList α key :=
  ⟨insert key value map.items, insert_sorted map.sorted⟩

def get? (map : KeyedList α key) (k : Nat) : Option α := map.items.find? (key · = k)

theorem get?_eq_some : map.get? k = some a ↔ a ∈ map.items ∧ key a = k := by
  constructor
  · intro found
    exact ⟨List.mem_of_find?_eq_some found, by simpa using List.find?_some found⟩
  · rintro ⟨member, rfl⟩
    cases found : map.get? (key a) with
    | none => simpa using List.find?_eq_none.mp found a member
    | some b =>
      have inItems := List.mem_of_find?_eq_some found
      have same : key b = key a := by simpa using List.find?_some found
      have unique : (map.items.map key).Nodup := List.pairwise_map.mpr (map.sorted.imp ne_of_lt)
      rw [List.inj_on_of_nodup_map unique inItems member same]

theorem get?_put_same (map : KeyedList α key) (value : α) :
    (map.put value).get? (key value) = some value :=
  get?_eq_some.mpr ⟨(mem_insert map.sorted).mpr (.inl rfl), rfl⟩

theorem get?_put_other (map : KeyedList α key) (different : k ≠ key value) : (map.put value).get? k = map.get? k := by
  apply Option.ext
  intro a
  rw [get?_eq_some, get?_eq_some]
  change a ∈ insert key value map.items ∧ key a = k ↔ _
  rw [mem_insert map.sorted]
  constructor
  · rintro ⟨rfl | ⟨member, _⟩, rfl⟩
    · exact absurd rfl different
    · exact ⟨member, rfl⟩
  · rintro ⟨member, rfl⟩
    exact ⟨.inr ⟨member, different⟩, rfl⟩

/-- Putting a record replaces the one with its key and leaves the others. -/
theorem mem_put : a ∈ (map.put value).items ↔ a = value ∨ (a ∈ map.items ∧ key a ≠ key value) :=
  mem_insert map.sorted

theorem get?_eq_none : map.get? k = none ↔ ∀ a ∈ map.items, key a ≠ k := by
  simp [get?, List.find?_eq_none]

theorem eq_of_key_eq {b : α} (left : a ∈ map.items) (right : b ∈ map.items) (same : key a = key b) : a = b :=
  List.inj_on_of_nodup_map (List.pairwise_map.mpr (map.sorted.imp ne_of_lt)) left right same

/-- The order is given by the keys, so the records alone make the map. -/
theorem ext_mem {left right : KeyedList α key} (same : ∀ a, a ∈ left.items ↔ a ∈ right.items) : left = right := by
  have nodup (map : KeyedList α key) : map.items.Nodup := map.sorted.imp fun below equal => by simp [equal] at below
  have perm := (List.perm_ext_iff_of_nodup (nodup left) (nodup right)).mpr same
  have items : left.items = right.items :=
    List.Perm.eq_of_pairwise (fun a b _ _ below above => absurd (below.trans above) (lt_irrefl _)) left.sorted
      right.sorted perm
  cases left
  cases right
  cases items
  rfl

def erase (map : KeyedList α key) (k : Nat) : KeyedList α key :=
  ⟨map.items.filter (key · ≠ k), map.sorted.filter _⟩

theorem mem_erase : a ∈ (map.erase k).items ↔ a ∈ map.items ∧ key a ≠ k := by
  simp [erase]

theorem get?_erase (map : KeyedList α key) (k j : Nat) : (map.erase k).get? j = if j = k then none else map.get? j := by
  apply Option.ext
  intro a
  rw [get?_eq_some, mem_erase]
  split
  · next same =>
    subst same
    simp
  · next different =>
    rw [get?_eq_some]
    constructor
    · rintro ⟨⟨member, _⟩, found⟩
      exact ⟨member, found⟩
    · rintro ⟨member, found⟩
      exact ⟨⟨member, fun same => different (found.symm.trans same)⟩, found⟩

theorem get?_put (map : KeyedList α key) (value : α) (j : Nat) :
    (map.put value).get? j = if j = key value then some value else map.get? j := by
  split
  · next same => rw [same, get?_put_same]
  · next different => exact get?_put_other map different

theorem put_erase (map : KeyedList α key) (value : α) : (map.erase (key value)).put value = map.put value := by
  apply ext_mem
  intro a
  rw [mem_put, mem_put, mem_erase]
  exact or_congr_right ⟨fun inside => inside.1, fun inside => ⟨inside, inside.2⟩⟩

theorem length_put_of_fresh (fresh : map.get? (key value) = none) :
    (map.put value).items.length = map.items.length + 1 :=
  (insert_perm (get?_eq_none.mp fresh)).length_eq

theorem length_erase_le (map : KeyedList α key) (k : Nat) : (map.erase k).items.length ≤ map.items.length :=
  List.length_filter_le ..

theorem length_erase_of_found (found : map.get? k = some a) : (map.erase k).items.length + 1 = map.items.length := by
  obtain ⟨member, rfl⟩ := get?_eq_some.mp found
  have nodup : map.items.Nodup := map.sorted.imp fun below equal => by simp [equal] at below
  have others : (a :: (map.erase (key a)).items).Perm map.items := by
    refine (List.perm_ext_iff_of_nodup ?_ nodup).mpr fun b => ?_
    · exact List.nodup_cons.mpr ⟨fun inside => (mem_erase.mp inside).2 rfl, nodup.filter _⟩
    · rw [List.mem_cons, mem_erase]
      constructor
      · rintro (rfl | ⟨inside, _⟩)
        · exact member
        · exact inside
      · intro inside
        by_cases same : key b = key a
        · exact .inl (eq_of_key_eq inside member same)
        · exact .inr ⟨inside, same⟩
  exact others.length_eq

def filter (map : KeyedList α key) (test : α → Bool) : KeyedList α key :=
  ⟨map.items.filter test, map.sorted.filter _⟩

end KeyedList

end RabbitLqc.Lib
