import RabbitLqc.Lib.RlpCodec

/-!
# Optional trailing fields

An encoder of a record with optional trailing fields writes a field when it or a later one is present. What is written
determines how many fields there are and the item of each.
-/

namespace RabbitLqc.Lib.Rlp

structure OptionalField where
  present : Bool
  item : Item

/-- An absent field is written only to keep the place of a later one. -/
def writeOptional : List OptionalField → List Item
  | [] => []
  | field :: rest =>
    if field.present || rest.any (·.present) then field.item :: writeOptional rest else writeOptional rest

theorem writeOptional_absent {fields : List OptionalField} (absent : fields.any (·.present) = false) :
    writeOptional fields = [] := by
  induction fields with
  | nil => rfl
  | cons field rest ih =>
    rw [List.any_cons, Bool.or_eq_false_iff] at absent
    rw [writeOptional, absent.1, absent.2, ih absent.2]
    rfl

/-- Two records written alike have the same item in every field, unless both lack it. -/
theorem writeOptional_inj {left right : List OptionalField} (length : left.length = right.length)
    (same : writeOptional left = writeOptional right) :
    List.Forall₂ (fun a b => a.item = b.item ∨ a.present = false ∧ b.present = false) left right := by
  induction left generalizing right with
  | nil =>
    cases right with
    | nil => exact .nil
    | cons => cases length
  | cons a left ih =>
    cases right with
    | nil => cases length
    | cons b right =>
      have rest : left.length = right.length := Nat.succ.inj length
      cases hasLeft : a.present || left.any (·.present) <;> cases hasRight : b.present || right.any (·.present) <;>
        simp only [writeOptional, hasLeft, hasRight, Bool.false_eq_true, if_true, if_false] at same
      case false.false =>
        exact .cons (.inr ⟨(Bool.or_eq_false_iff.mp hasLeft).1, (Bool.or_eq_false_iff.mp hasRight).1⟩) (ih rest same)
      case false.true =>
        rw [writeOptional_absent (Bool.or_eq_false_iff.mp hasLeft).2] at same
        cases same
      case true.false =>
        rw [writeOptional_absent (Bool.or_eq_false_iff.mp hasRight).2] at same
        cases same
      case true.true =>
        obtain ⟨items, others⟩ := List.cons.inj same
        exact .cons (.inl items) (ih rest others)

end RabbitLqc.Lib.Rlp
