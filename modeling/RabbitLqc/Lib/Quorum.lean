import Mathlib

/-!
# Quorums

Sets of positions that are large enough overlap, and in more positions than may be faulty. The size
of a set of positions is often known as a count over a list.
-/

namespace RabbitLqc.Lib

/-- Two sets that together are larger than the whole have that much in common. -/
theorem card_add_card_le_inter {α : Type} [Fintype α] [DecidableEq α] (left right : Finset α) :
    left.card + right.card ≤ Fintype.card α + (left ∩ right).card := by
  have both := Finset.card_union_add_card_inter left right
  have all := Finset.card_le_univ (left ∪ right)
  omega

theorem countP_le_card {α : Type} {entries : List α} {size : Nat} {property : α → Bool} {positions : Finset (Fin size)}
    (length : entries.length = size)
    (known : ∀ (position : Fin size) entry, entries[position.val]? = some entry → property entry →
      position ∈ positions) :
    entries.countP property ≤ positions.card := by
  subst length
  have counted : entries.countP property =
      ((List.finRange entries.length).filter fun position => property (entries.get position)).length := by
    rw [← List.countP_eq_length_filter]
    conv_lhs => rw [← List.map_get_finRange entries]
    rw [List.countP_map]
    rfl
  have distinct : ((List.finRange entries.length).filter fun position => property (entries.get position)).Nodup :=
    (List.nodup_finRange _).filter _
  rw [counted, ← List.toFinset_card_of_nodup distinct]
  apply Finset.card_le_card
  intro position listed
  rw [List.mem_toFinset, List.mem_filter] at listed
  exact known position _ (List.getElem?_eq_getElem position.isLt) listed.2

end RabbitLqc.Lib
