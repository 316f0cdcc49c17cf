import RabbitLqc.Lib.RlpCodec

/-!
# Commitments to records

The hash of an encoding commits to the record behind it, as far as the hash does not confuse two
encodings.
-/

namespace RabbitLqc.Lib

namespace Rlp

theorem encode_inj {left right : Item} (leftFits : (encode left).length < 2 ^ 64)
    (rightFits : (encode right).length < 2 ^ 64) (same : encode left = encode right) : left = right := by
  have read := decode_encode leftFits
  rw [same, decode_encode rightFits] at read
  exact (Option.some.inj read).symm

/-- Two items whose encodings have lengths of 64 bits and do not collide under the hash. -/
structure Separated {H : Type} (hash : Bytes → H) (left right : Item) : Prop where
  fits : (encode left).length < 2 ^ 64 ∧ (encode right).length < 2 ^ 64
  apart : hash (encode left) = hash (encode right) → encode left = encode right

theorem Separated.eq {H : Type} {hash : Bytes → H} {left right : Item} (separated : Separated hash left right)
    (same : hash (encode left) = hash (encode right)) : left = right :=
  encode_inj separated.fits.1 separated.fits.2 (separated.apart same)

theorem Separated.refl {H : Type} {hash : Bytes → H} {item : Item} (fits : (encode item).length < 2 ^ 64) :
    Separated hash item item :=
  ⟨⟨fits, fits⟩, fun _ => rfl⟩

end Rlp

namespace RlpCodec

@[simp] theorem toItem_inj {α : Type} [RlpCodec α] {left right : α} :
    toItem left = toItem right ↔ left = right := by
  constructor
  · intro same
    have read := ofItem_toItem left
    rw [same, ofItem_toItem] at read
    exact (Option.some.inj read).symm
  · intro same
    rw [same]

@[simp] theorem natItem_inj {left right : Nat} : natItem left = natItem right ↔ left = right := by
  unfold natItem
  rw [Rlp.Item.bytes.injEq]
  constructor
  · intro same
    have read := congrArg natOfBytes same
    rwa [natOfBytes_natBytes, natOfBytes_natBytes] at read
  · intro same
    rw [same]

theorem map_item_inj {α : Type} {item : α → Rlp.Item} (injective : Function.Injective item) {left right : List α} :
    Rlp.Item.list (left.map item) = .list (right.map item) ↔ left = right := by
  rw [Rlp.Item.list.injEq]
  exact (List.map_injective_iff.mpr injective).eq_iff

end RlpCodec

end RabbitLqc.Lib
