import RabbitLqc.Lib.Sorting

/-!
# Binary heaps

A heap in an array with its largest key at the root: an item is pushed at the end and moved up, or put
in place of the root and moved down. Out of range counts as below every key, so a parent is compared
with both places for its children whether or not they are taken.
-/

namespace RabbitLqc.Lib.Heap

variable {α κ : Type} [LinearOrder κ]

def parent (place : Nat) : Nat := (place - 1) / 2

section Operations

variable (key : α → κ)

/-- Move an item up while its parent has a smaller key. -/
def up (heap : Array α) (place : Nat) (inside : place < heap.size) : Array α :=
  if root : place = 0 then heap
  else
    have above : parent place < place := by unfold parent; omega
    if key heap[parent place] < key heap[place] then
      up (heap.swap (parent place) place) (parent place) (by rw [Array.size_swap]; omega)
    else heap
termination_by place

def largerChild (heap : Array α) (place : Nat) (left : 2 * place + 1 < heap.size) : Fin heap.size :=
  if right : 2 * place + 2 < heap.size then
    if key heap[2 * place + 1] < key heap[2 * place + 2] then ⟨2 * place + 2, right⟩ else ⟨2 * place + 1, left⟩
  else ⟨2 * place + 1, left⟩

theorem place_lt_largerChild (heap : Array α) (place : Nat) (left : 2 * place + 1 < heap.size) :
    place < (largerChild key heap place left).val := by
  unfold largerChild
  split
  · split
    · show place < 2 * place + 2
      omega
    · show place < 2 * place + 1
      omega
  · show place < 2 * place + 1
    omega

/-- Move an item down while one of its children has a larger key, past the larger child. -/
def down (heap : Array α) (place : Nat) : Array α :=
  if left : 2 * place + 1 < heap.size then
    have inside : place < heap.size := by omega
    let child := largerChild key heap place left
    if key heap[place] < key heap[child] then down (heap.swap place child) child else heap
  else heap
termination_by heap.size - place
decreasing_by
  have below := place_lt_largerChild key heap place left
  rw [Array.size_swap]
  omega

def push (heap : Array α) (item : α) : Array α :=
  up key (heap.push item) heap.size (by rw [Array.size_push]; omega)

def replaceRoot (heap : Array α) (item : α) : Array α := down key (heap.setIfInBounds 0 item) 0

/-- One more candidate for a heap of the items with the smallest keys: it enters while there is room,
and afterwards in place of the root, the worst one kept. -/
def keep (limit : Nat) (heap : Array α) (item : α) : Array α :=
  if heap.size < limit then push key heap item
  else match heap[0]? with
    | none => heap
    | some worst => if key item < key worst then replaceRoot key heap item else heap

end Operations

/-! ### Order -/

theorem parent_lt {place : Nat} (below : 0 < place) : parent place < place := by
  unfold parent
  omega

section Order

variable {β : Type} [LinearOrder β] {f : Nat → β} {hole : Nat}

/-- No place is above its parent. -/
def Ordered (f : Nat → β) : Prop := ∀ place, 0 < place → f place ≤ f (parent place)

theorem Ordered.root (ordered : Ordered f) (place : Nat) : f place ≤ f 0 := by
  induction place using Nat.strongRecOn with
  | ind place ih =>
    by_cases below : 0 < place
    · exact (ordered place below).trans (ih _ (parent_lt below))
    · obtain rfl : place = 0 := by omega
      exact le_rfl

/-- Ordered but for the place whose item may still have to move up. -/
structure UpHole (f : Nat → β) (hole : Nat) : Prop where
  except : ∀ place, 0 < place → place ≠ hole → f place ≤ f (parent place)
  across : ∀ place, 0 < place → parent place = hole → 0 < hole → f place ≤ f (parent hole)

/-- Ordered but for the children of the place whose item may still have to move down. -/
structure DownHole (f : Nat → β) (hole : Nat) : Prop where
  except : ∀ place, 0 < place → parent place ≠ hole → f place ≤ f (parent place)
  across : ∀ place, 0 < place → parent place = hole → 0 < hole → f place ≤ f (parent hole)

theorem UpHole.ordered (open' : UpHole f hole) (settled : hole = 0 ∨ f hole ≤ f (parent hole)) : Ordered f := by
  intro place below
  by_cases here : place = hole
  · subst here
    exact settled.resolve_left (Nat.pos_iff_ne_zero.mp below)
  · exact open'.except place below here

theorem DownHole.ordered (open' : DownHole f hole)
    (settled : ∀ place, 0 < place → parent place = hole → f place ≤ f hole) : Ordered f := by
  intro place below
  by_cases here : parent place = hole
  · rw [here]
    exact settled place below here
  · exact open'.except place below here

theorem UpHole.swap (open' : UpHole f hole) (below : 0 < hole) (larger : f (parent hole) < f hole) :
    UpHole (f ∘ Equiv.swap (parent hole) hole) (parent hole) := by
  have above := parent_lt below
  have other {place : Nat} (notParent : place ≠ parent hole) (notHole : place ≠ hole) :
      (f ∘ Equiv.swap (parent hole) hole) place = f place :=
    congrArg f (Equiv.swap_apply_of_ne_of_ne notParent notHole)
  have atParent : (f ∘ Equiv.swap (parent hole) hole) (parent hole) = f hole :=
    congrArg f (Equiv.swap_apply_left _ _)
  have atHole : (f ∘ Equiv.swap (parent hole) hole) hole = f (parent hole) :=
    congrArg f (Equiv.swap_apply_right _ _)
  constructor
  · intro place inner notParent
    by_cases here : place = hole
    · rw [here, atHole, atParent]
      exact larger.le
    · rw [other notParent here]
      have kept := open'.except place inner here
      by_cases sibling : parent place = parent hole
      · rw [sibling] at kept
        rw [sibling, atParent]
        exact kept.trans larger.le
      · by_cases child : parent place = hole
        · rw [child, atHole]
          exact open'.across place inner child below
        · rw [other sibling child]
          exact kept
  · intro place inner child up
    have grand := parent_lt up
    have level := open'.except (parent hole) up (Nat.ne_of_lt above)
    rw [other (Nat.ne_of_lt grand) (by omega)]
    by_cases here : place = hole
    · rw [here, atHole]
      exact level
    · have notParent : place ≠ parent hole := by
        have := parent_lt inner
        omega
      have kept := open'.except place inner here
      rw [child] at kept
      rw [other notParent here]
      exact kept.trans level

theorem DownHole.swap (open' : DownHole f hole) {child : Nat} (below : 0 < child) (own : parent child = hole)
    (largest : ∀ place, 0 < place → parent place = hole → f place ≤ f child) (larger : f hole < f child) :
    DownHole (f ∘ Equiv.swap hole child) child := by
  have above : hole < child := own ▸ parent_lt below
  have other {place : Nat} (notHole : place ≠ hole) (notChild : place ≠ child) :
      (f ∘ Equiv.swap hole child) place = f place :=
    congrArg f (Equiv.swap_apply_of_ne_of_ne notHole notChild)
  have atHole : (f ∘ Equiv.swap hole child) hole = f child := congrArg f (Equiv.swap_apply_left _ _)
  have atChild : (f ∘ Equiv.swap hole child) child = f hole := congrArg f (Equiv.swap_apply_right _ _)
  constructor
  · intro place inner notOwn
    by_cases here : place = hole
    · subst here
      have up := parent_lt inner
      rw [atHole, other (Nat.ne_of_lt up) (by omega)]
      exact open'.across child below own inner
    · by_cases moved : place = child
      · rw [moved, own, atHole, atChild]
        exact larger.le
      · rw [other here moved]
        by_cases sibling : parent place = hole
        · rw [sibling, atHole]
          exact largest place inner sibling
        · rw [other sibling notOwn]
          exact open'.except place inner sibling
  · intro place inner grandchild _
    have deep := parent_lt inner
    have kept := open'.except place inner (by omega)
    rw [grandchild] at kept
    rw [own, atHole, other (by omega) (by omega)]
    exact kept

end Order

/-! ### The array as a heap -/

section Arrays

variable {key : α → κ} {heap : Array α} {place : Nat}

def value (key : α → κ) (heap : Array α) (place : Nat) : WithBot κ :=
  match heap[place]? with
  | none => ⊥
  | some item => (key item : WithBot κ)

omit [LinearOrder κ] in
theorem value_of_lt (inside : place < heap.size) : value key heap place = (key heap[place] : WithBot κ) := by
  unfold value
  rw [Array.getElem?_eq_getElem inside]

omit [LinearOrder κ] in
theorem value_of_le (outside : heap.size ≤ place) : value key heap place = ⊥ := by
  unfold value
  rw [Array.getElem?_eq_none outside]

theorem value_lt_value {left right : Nat} (insideLeft : left < heap.size) (insideRight : right < heap.size) :
    value key heap left < value key heap right ↔ key heap[left] < key heap[right] := by
  rw [value_of_lt insideLeft, value_of_lt insideRight, WithBot.coe_lt_coe]

omit [LinearOrder κ] in
theorem value_swap {left right : Nat} (insideLeft : left < heap.size) (insideRight : right < heap.size) :
    value key (heap.swap left right) = value key heap ∘ Equiv.swap left right := by
  funext place
  unfold value
  rw [Function.comp_apply, Array.getElem?_swap]
  by_cases atRight : place = right
  · subst atRight
    rw [Equiv.swap_apply_right, if_pos rfl, Array.getElem?_eq_getElem insideLeft]
  · rw [if_neg (Ne.symm atRight)]
    by_cases atLeft : place = left
    · subst atLeft
      rw [Equiv.swap_apply_left, if_pos rfl, Array.getElem?_eq_getElem insideRight]
    · rw [if_neg (Ne.symm atLeft), Equiv.swap_apply_of_ne_of_ne atLeft atRight]

theorem up_ordered (inside : place < heap.size) (hole : UpHole (value key heap) place) :
    Ordered (value key (up key heap place inside)) := by
  induction place using Nat.strongRecOn generalizing heap with
  | ind place ih =>
    unfold up
    split
    · next root => exact hole.ordered (.inl root)
    · next below =>
      have above := parent_lt (Nat.pos_of_ne_zero below)
      have less := @value_lt_value _ _ _ key _ _ _ (above.trans inside) inside
      dsimp only
      split
      · next larger =>
        refine ih _ above _ ?_
        rw [value_swap]
        exact hole.swap (Nat.pos_of_ne_zero below) (less.mpr larger)
      · next settled => exact hole.ordered (.inr (not_lt.mp fun larger => settled (less.mp larger)))

theorem up_perm (inside : place < heap.size) : (up key heap place inside).Perm heap := by
  induction place using Nat.strongRecOn generalizing heap with
  | ind place ih =>
    unfold up
    split
    · exact .rfl
    · next below =>
      have above := parent_lt (Nat.pos_of_ne_zero below)
      dsimp only
      split
      · exact (ih _ above _).trans (Array.swap_perm _ _)
      · exact .rfl

theorem parent_eq_iff {child : Nat} (below : 0 < child) :
    parent child = place ↔ child = 2 * place + 1 ∨ child = 2 * place + 2 := by
  unfold parent
  omega

theorem largerChild_parent (left : 2 * place + 1 < heap.size) :
    0 < (largerChild key heap place left).val ∧ parent (largerChild key heap place left).val = place := by
  have below := Nat.zero_lt_of_lt (place_lt_largerChild key heap place left)
  refine ⟨below, (parent_eq_iff below).mpr ?_⟩
  unfold largerChild
  split
  · split
    · exact .inr rfl
    · exact .inl rfl
  · exact .inl rfl

theorem value_le_largerChild (left : 2 * place + 1 < heap.size) {child : Nat} (below : 0 < child)
    (own : parent child = place) : value key heap child ≤ value key heap (largerChild key heap place left) := by
  unfold largerChild
  split
  · next right =>
    have less := @value_lt_value _ _ _ key _ _ _ left right
    split
    · next larger =>
      rcases (parent_eq_iff below).mp own with rfl | rfl
      · exact (less.mpr larger).le
      · exact le_rfl
    · next settled =>
      rcases (parent_eq_iff below).mp own with rfl | rfl
      · exact le_rfl
      · exact not_lt.mp fun larger => settled (less.mp larger)
  · next none =>
    rcases (parent_eq_iff below).mp own with rfl | rfl
    · exact le_rfl
    · rw [value_of_le (Nat.le_of_not_lt none)]
      exact bot_le

theorem down_ordered (hole : DownHole (value key heap) place) : Ordered (value key (down key heap place)) := by
  fun_induction down key heap place with
  | case1 heap place left inside child larger ih =>
    obtain ⟨below, own⟩ := @largerChild_parent _ _ _ key _ _ left
    apply ih
    rw [value_swap]
    exact hole.swap below own (fun _ => value_le_largerChild left) ((value_lt_value inside child.isLt).mpr larger)
  | case2 heap place left inside child settled =>
    refine hole.ordered fun other below own => (value_le_largerChild left below own).trans ?_
    exact not_lt.mp fun larger => settled ((value_lt_value inside child.isLt).mp larger)
  | case3 heap place none =>
    refine hole.ordered fun other below own => ?_
    rw [value_of_le (by rcases (parent_eq_iff below).mp own with rfl | rfl <;> omega)]
    exact bot_le

theorem down_perm : (down key heap place).Perm heap := by
  fun_induction down key heap place with
  | case1 heap place left inside child larger ih => exact ih.trans (Array.swap_perm _ _)
  | case2 => exact .rfl
  | case3 => exact .rfl

theorem push_perm (item : α) : (push key heap item).toList.Perm (item :: heap.toList) := by
  unfold push
  refine (Array.perm_iff_toList_perm.mp (up_perm _)).trans ?_
  rw [Array.toList_push]
  exact List.perm_append_singleton _ _

theorem push_ordered (ordered : Ordered (value key heap)) (item : α) : Ordered (value key (push key heap item)) := by
  have old {place : Nat} (inside : place < heap.size) : value key (heap.push item) place = value key heap place := by
    unfold value
    rw [Array.getElem?_push_lt inside, Array.getElem?_eq_getElem inside]
  refine up_ordered _ ⟨fun place below notHole => ?_, fun place below own _ => ?_⟩
  · by_cases inside : place < heap.size
    · rw [old inside, old ((parent_lt below).trans inside)]
      exact ordered place below
    · rw [value_of_le (by rw [Array.size_push]; omega)]
      exact bot_le
  · have := parent_lt below
    rw [value_of_le (by rw [Array.size_push]; omega)]
    exact bot_le

theorem replaceRoot_ordered (ordered : Ordered (value key heap)) (item : α) :
    Ordered (value key (replaceRoot key heap item)) := by
  have old {place : Nat} (below : 0 < place) : value key (heap.setIfInBounds 0 item) place = value key heap place := by
    unfold value
    rw [Array.getElem?_setIfInBounds_ne (Nat.ne_of_lt below)]
  refine down_ordered ⟨fun place below notHole => ?_, fun _ _ _ none => absurd none (Nat.lt_irrefl 0)⟩
  rw [old below, old (Nat.pos_of_ne_zero notHole)]
  exact ordered place below

theorem replaceRoot_perm {worst : α} (root : heap[0]? = some worst) (item : α) :
    ∃ others, heap.toList = worst :: others ∧ (replaceRoot key heap item).toList.Perm (item :: others) := by
  obtain ⟨items⟩ := heap
  cases items with
  | nil => cases root
  | cons first others =>
    obtain rfl : first = worst := Option.some.inj root
    exact ⟨others, rfl, Array.perm_iff_toList_perm.mp down_perm⟩

theorem Ordered.le_root (ordered : Ordered (value key heap)) {worst : α} (root : heap[0]? = some worst) {item : α}
    (member : item ∈ heap) : key item ≤ key worst := by
  obtain ⟨place, inside, rfl⟩ := Array.mem_iff_getElem.mp member
  have bound := ordered.root place
  rw [value_of_lt inside] at bound
  unfold value at bound
  rw [root] at bound
  exact WithBot.coe_le_coe.mp bound

/-- One more candidate keeps the heap ordered and its items the best ones so far. -/
theorem keep_best {limit : Nat} (room : limit ≠ 0) (ordered : Ordered (value key heap)) {item : α} {items : List α}
    (best : Best key limit heap.toList items) :
    Ordered (value key (keep key limit heap item)) ∧
      Best key limit (keep key limit heap item).toList (item :: items) := by
  unfold keep
  split
  · next free => exact ⟨push_ordered ordered item, best.enter free (push_perm item)⟩
  · next full =>
    have full : limit ≤ heap.toList.length := Nat.le_of_not_lt full
    split
    · next none =>
      rw [Array.getElem?_eq_none_iff] at none
      rw [Array.length_toList] at full
      omega
    · next worst root =>
      have last : ∀ a ∈ heap.toList, key a ≤ key worst := by
        intro a member
        exact ordered.le_root root (Array.mem_toList_iff.mp member)
      split
      · next better =>
        obtain ⟨others, split, replaced⟩ := @replaceRoot_perm _ _ _ key _ _ root item
        exact ⟨replaceRoot_ordered ordered item,
          best.replace full (List.Perm.of_eq split) last better replaced⟩
      · next worse =>
        exact ⟨ordered, best.refuse full last (not_lt.mp worse)⟩

/-- What is kept of a list is the front of the sorted list. -/
theorem sortOn_foldl_keep {limit : Nat} (injective : Function.Injective key) (room : limit ≠ 0) (items : List α) :
    sortOn key (items.foldl (keep key limit) #[]).toList = (sortOn key items).take limit := by
  have empty : Ordered (value key (#[] : Array α)) := fun _ _ => bot_le
  obtain ⟨_, best⟩ := Best.foldl Array.toList (keep key limit) (fun heap => Ordered (value key heap))
    (fun ordered best => keep_best room ordered best) empty (Best.nil : Best key limit (#[] : Array α).toList [])
  exact best.sortOn_eq injective

end Arrays

end RabbitLqc.Lib.Heap
