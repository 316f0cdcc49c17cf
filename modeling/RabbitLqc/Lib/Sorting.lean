import Mathlib

/-!
# Sorting by a key

Sorting a list by a key whose values are distinct: the result is the one strictly increasing
arrangement of the list.
-/

namespace RabbitLqc.Lib

variable {α κ : Type} [LinearOrder κ]

variable {a item : α} {limit : Nat} {kept : List α}

/-- The list arranged by increasing `key`, equal keys in their old order. -/
def sortOn (key : α → κ) (items : List α) : List α :=
  items.insertionSort fun a b => key a ≤ key b

variable {key : α → κ} {items : List α}

theorem sortOn_perm : (sortOn key items).Perm items :=
  List.perm_insertionSort _ _

@[simp] theorem mem_sortOn : a ∈ sortOn key items ↔ a ∈ items :=
  sortOn_perm.mem_iff

@[simp] theorem length_sortOn : (sortOn key items).length = items.length :=
  sortOn_perm.length_eq

@[simp] theorem sortOn_nil : sortOn key ([] : List α) = [] := rfl

theorem sortOn_sorted : (sortOn key items).Pairwise fun a b => key a ≤ key b := by
  have : Std.Total fun a b : α => key a ≤ key b := ⟨fun a b => le_total (key a) (key b)⟩
  have : IsTrans α fun a b => key a ≤ key b := ⟨fun _ _ _ => le_trans⟩
  exact List.pairwise_insertionSort _ _

theorem sortOn_strict (distinct : (items.map key).Nodup) :
    (sortOn key items).Pairwise fun a b => key a < key b := by
  have unique : ((sortOn key items).map key).Nodup := (sortOn_perm.map key).nodup_iff.mpr distinct
  have apart := List.pairwise_map.mp unique
  exact sortOn_sorted.imp₂ (fun _ _ le ne => lt_of_le_of_ne le ne) apart

theorem sortOn_of_sorted (sorted : items.Pairwise fun a b => key a ≤ key b) :
    sortOn key items = items :=
  List.Pairwise.insertionSort_eq sorted

theorem sortOn_eq_self (sorted : items.Pairwise fun a b => key a < key b) :
    sortOn key items = items :=
  sortOn_of_sorted (sorted.imp le_of_lt)

@[simp] theorem sortOn_sortOn : sortOn key (sortOn key items) = sortOn key items :=
  sortOn_of_sorted sortOn_sorted

theorem sortOn_map {β : Type} (f : β → α) (items : List β) :
    sortOn key (items.map f) = (sortOn (fun item => key (f item)) items).map f :=
  (List.map_insertionSort (fun a b => key (f a) ≤ key (f b)) (fun a b => key a ≤ key b) f items fun _ _ _ _ =>
    Iff.rfl).symm

theorem strict_of_neighbours (sorted : items.Pairwise fun a b => key a ≤ key b)
    (apart : items.IsChain fun a b => key a ≠ key b) : items.Pairwise fun a b => key a < key b := by
  induction items with
  | nil => exact .nil
  | cons first rest ih =>
    obtain ⟨above, restSorted⟩ := List.pairwise_cons.mp sorted
    have restStrict := ih restSorted apart.tail
    refine List.pairwise_cons.mpr ⟨fun b member => ?_, restStrict⟩
    cases rest with
    | nil => cases member
    | cons second others =>
      have step : key first < key second := lt_of_le_of_ne (above _ (by simp)) (List.isChain_cons_cons.mp apart).1
      rcases List.mem_cons.mp member with rfl | later
      · exact step
      · exact step.trans ((List.pairwise_cons.mp restStrict).1 b later)

/-- In a sorted list equal keys are neighbours, so comparing neighbours finds every duplicate. -/
theorem sortOn_neighbours_iff :
    ((sortOn key items).IsChain fun a b => key a ≠ key b) ↔ (items.map key).Nodup := by
  have perm : ((sortOn key items).map key).Perm (items.map key) := sortOn_perm.map key
  rw [← perm.nodup_iff]
  constructor
  · intro apart
    exact List.pairwise_map.mpr ((strict_of_neighbours sortOn_sorted apart).imp ne_of_lt)
  · intro distinct
    exact (List.pairwise_map.mp distinct).isChain

theorem strict_keys_nodup (sorted : items.Pairwise fun a b => key a < key b) :
    (items.map key).Nodup :=
  List.pairwise_map.mpr (sorted.imp ne_of_lt)

/-- With distinct keys the order of the input makes no difference. -/
theorem sortOn_eq_of_perm {other : List α} (perm : items.Perm other) (distinct : (items.map key).Nodup) :
    sortOn key items = sortOn key other := by
  have same : (sortOn key items).Perm (sortOn key other) :=
    sortOn_perm.trans (perm.trans sortOn_perm.symm)
  refine List.Perm.eq_of_pairwise (fun a b left right below above => ?_)
    sortOn_sorted sortOn_sorted same
  exact List.inj_on_of_nodup_map distinct (mem_sortOn.mp left)
    (perm.mem_iff.mpr (mem_sortOn.mp right)) (le_antisymm below above)

theorem sortOn_filter (injective : Function.Injective key) (p : α → Bool) :
    sortOn key (items.filter p) = (sortOn key items).filter p := by
  refine List.Perm.eq_of_pairwise (fun a b _ _ below above => injective (le_antisymm below above)) sortOn_sorted
    (sortOn_sorted.filter p) ?_
  exact sortOn_perm.trans (sortOn_perm.filter p).symm

/-! ### Keys of several digits -/

theorem compare_digits {base a b x y : Nat} (small : x < base) (small' : y < base) :
    compare (a * base + x) (b * base + y) = (compare a b).then (compare x y) := by
  rcases Nat.lt_trichotomy a b with below | rfl | above
  · have room := Nat.mul_le_mul_right base (Nat.succ_le_of_lt below)
    rw [Nat.succ_mul] at room
    rw [Nat.compare_eq_lt.mpr below, Nat.compare_eq_lt.mpr (by omega)]
    rfl
  · rw [Nat.compare_eq_eq.mpr rfl, Ordering.then]
    rcases Nat.lt_trichotomy x y with below | rfl | above
    · rw [Nat.compare_eq_lt.mpr below, Nat.compare_eq_lt.mpr (by omega)]
    · rw [Nat.compare_eq_eq.mpr rfl, Nat.compare_eq_eq.mpr rfl]
    · rw [Nat.compare_eq_gt.mpr above, Nat.compare_eq_gt.mpr (by omega)]
  · have room := Nat.mul_le_mul_right base (Nat.succ_le_of_lt above)
    rw [Nat.succ_mul] at room
    rw [Nat.compare_eq_gt.mpr above, Nat.compare_eq_gt.mpr (by omega)]
    rfl

/-! ### The best of a list -/

/-- The items kept are as many as fit, and none refused is better. -/
def Best (key : α → κ) (limit : Nat) (kept items : List α) : Prop :=
  ∃ refused, (kept ++ refused).Perm items ∧ (∀ a ∈ kept, ∀ b ∈ refused, key a ≤ key b) ∧
    kept.length = min limit items.length

section Best

variable {limit : Nat} {kept next : List α} {item worst : α}

theorem Best.nil : Best key limit [] [] :=
  ⟨[], .nil, by simp, by simp⟩

theorem Best.enter (best : Best key limit kept items) (room : kept.length < limit) (enters : next.Perm (item :: kept)) :
    Best key limit next (item :: items) := by
  obtain ⟨refused, perm, _, length⟩ := best
  have size := perm.length_eq
  rw [List.length_append] at size
  obtain rfl : refused = [] := List.length_eq_zero_iff.mp (by omega)
  rw [List.append_nil] at perm
  refine ⟨[], ?_, by simp, ?_⟩
  · rw [List.append_nil]
    exact enters.trans (perm.cons item)
  · rw [enters.length_eq, List.length_cons, List.length_cons]
    omega

theorem Best.refuse (best : Best key limit kept items) (full : limit ≤ kept.length)
    (last : ∀ a ∈ kept, key a ≤ key worst) (worse : key worst ≤ key item) : Best key limit kept (item :: items) := by
  obtain ⟨refused, perm, apart, length⟩ := best
  refine ⟨item :: refused, List.perm_middle.trans (perm.cons item), ?_, ?_⟩
  · intro a inside b outside
    rcases List.mem_cons.mp outside with rfl | outside
    · exact (last a inside).trans worse
    · exact apart a inside b outside
  · rw [List.length_cons]
    omega

theorem Best.replace {others : List α} (best : Best key limit kept items) (full : limit ≤ kept.length)
    (holds : kept.Perm (worst :: others)) (last : ∀ a ∈ kept, key a ≤ key worst) (better : key item < key worst)
    (replaced : next.Perm (item :: others)) : Best key limit next (item :: items) := by
  obtain ⟨refused, perm, apart, length⟩ := best
  have rearranged : (next ++ worst :: refused).Perm (item :: (kept ++ refused)) :=
    (replaced.append_right _).trans
      ((List.perm_middle.trans ((holds.append_right refused).symm)).cons item)
  have inside : worst ∈ kept := holds.mem_iff.mpr List.mem_cons_self
  refine ⟨worst :: refused, rearranged.trans (perm.cons item), ?_, ?_⟩
  · intro a member b outside
    rcases List.mem_cons.mp (replaced.mem_iff.mp member) with rfl | old
    · rcases List.mem_cons.mp outside with rfl | outside
      · exact better.le
      · exact better.le.trans (apart worst inside b outside)
    · have before : a ∈ kept := holds.mem_iff.mpr (List.mem_cons_of_mem _ old)
      rcases List.mem_cons.mp outside with rfl | outside
      · exact last a before
      · exact apart a before b outside
  · have size := holds.length_eq
    rw [replaced.length_eq, List.length_cons]
    rw [List.length_cons] at size ⊢
    omega

theorem Best.of_perm {other : List α} (best : Best key limit kept items) (perm : items.Perm other) :
    Best key limit kept other := by
  obtain ⟨refused, split, apart, length⟩ := best
  exact ⟨refused, split.trans perm, apart, by rw [length, perm.length_eq]⟩

theorem Best.foldl {σ : Type} (contents : σ → List α) (step : σ → α → σ) (Sound : σ → Prop)
    (keeps : ∀ {state item items}, Sound state → Best key limit (contents state) items →
      Sound (step state item) ∧ Best key limit (contents (step state item)) (item :: items))
    {state : σ} {seen : List α} (sound : Sound state) (best : Best key limit (contents state) seen) :
    Sound (items.foldl step state) ∧ Best key limit (contents (items.foldl step state)) (seen ++ items) := by
  induction items generalizing state seen with
  | nil =>
    rw [List.append_nil]
    exact ⟨sound, best⟩
  | cons item rest ih =>
    obtain ⟨sound, grown⟩ := keeps sound best
    obtain ⟨sound, all⟩ := ih sound grown
    exact ⟨sound, all.of_perm List.perm_middle.symm⟩

/-- The best items, sorted, are the front of the sorted list. -/
theorem Best.sortOn_eq (injective : Function.Injective key) (best : Best key limit kept items) :
    sortOn key kept = (sortOn key items).take limit := by
  obtain ⟨refused, perm, apart, length⟩ := best
  have sorted : (sortOn key kept ++ sortOn key refused).Pairwise fun a b => key a ≤ key b := by
    refine List.pairwise_append.mpr ⟨sortOn_sorted, sortOn_sorted, ?_⟩
    intro a inside b outside
    exact apart a (mem_sortOn.mp inside) b (mem_sortOn.mp outside)
  have whole : sortOn key items = sortOn key kept ++ sortOn key refused := by
    refine List.Perm.eq_of_pairwise (fun a b _ _ below above => injective (le_antisymm below above)) sortOn_sorted
      sorted ?_
    exact sortOn_perm.trans (perm.symm.trans (sortOn_perm.append sortOn_perm).symm)
  have size := perm.length_eq
  rw [List.length_append] at size
  rw [whole]
  by_cases all : refused = []
  · rw [all, sortOn_nil, List.append_nil, List.take_of_length_le]
    rw [length_sortOn, length]
    exact Nat.min_le_left _ _
  · have some : 0 < refused.length := List.length_pos_iff.mpr all
    have full : (sortOn key kept).length = limit := by
      rw [length_sortOn]
      omega
    rw [← full, List.take_left']
    rfl

end Best

/-! ### Parts of a list -/

theorem mem_filter_append_filter_not {test : α → Bool} :
    a ∈ items.filter test ++ items.filter (!test ·) ↔ a ∈ items := by
  rw [List.mem_append, List.mem_filter, List.mem_filter]
  cases test a <;> simp

theorem take_append_take (left right : List α) (limit : Nat) :
    left.take limit ++ (right.take limit).take (limit - (left.take limit).length) = (left ++ right).take limit := by
  rw [List.take_append, List.take_take, List.length_take]
  congr 2
  omega

theorem sum_map_filter {weight : α → Nat} {p : α → Bool}
    (idle : ∀ a ∈ items, p a = false → weight a = 0) : ((items.filter p).map weight).sum = (items.map weight).sum := by
  induction items with
  | nil => rfl
  | cons a rest ih =>
    obtain ⟨here, later⟩ := List.forall_mem_cons.mp idle
    cases kept : p a with
    | true => rw [List.filter_cons_of_pos kept, List.map_cons, List.map_cons, List.sum_cons, List.sum_cons, ih later]
    | false =>
      rw [List.filter_cons_of_neg (by rw [kept]; decide), List.map_cons, List.sum_cons, here kept, ih later,
        Nat.zero_add]

end RabbitLqc.Lib
