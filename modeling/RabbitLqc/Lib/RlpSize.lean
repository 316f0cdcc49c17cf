import RabbitLqc.Lib.RlpCodec

/-!
# Sizes of RLP items

How many bytes an item takes, from the sizes of its parts alone, and bounds for the kinds of
fields records are made of.
-/

namespace RabbitLqc.Lib.Rlp

open RlpCodec

/-- The bytes that announce a content of the given length. -/
def prefixSize (length : Nat) : Nat :=
  if length ≤ 55 then 1 else 1 + (natBytes length).length

def bytesSize : Bytes → Nat
  | [byte] => if byte < 0x80 then 1 else 2
  | content => prefixSize content.length + content.length

mutual

def size : Item → Nat
  | .bytes content => bytesSize content
  | .list items => prefixSize (sizeAll items) + sizeAll items

def sizeAll : List Item → Nat
  | [] => 0
  | item :: rest => size item + sizeAll rest

end

theorem length_lengthPrefix (offset length : Nat) :
    (lengthPrefix offset length).length = prefixSize length := by
  unfold lengthPrefix prefixSize
  split
  · rfl
  · rw [List.length_cons, Nat.add_comm]

theorem length_encodeBytes (content : Bytes) : (encodeBytes content).length = bytesSize content := by
  match content with
  | [] => rfl
  | [byte] =>
    simp only [encodeBytes, bytesSize]
    split <;> rfl
  | first :: second :: rest => exact List.length_append.trans (by rw [length_lengthPrefix]; rfl)

mutual

/-- The encoder writes as many bytes as the size says. -/
theorem length_encode (item : Item) : (encode item).length = size item := by
  cases item with
  | bytes content => simp only [encode, size, length_encodeBytes]
  | list items => simp only [encode, size, List.length_append, length_lengthPrefix, length_encodeAll]

theorem length_encodeAll (items : List Item) : (encodeAll items).length = sizeAll items := by
  cases items with
  | nil => rfl
  | cons item rest =>
    simp only [encodeAll, sizeAll, List.length_append, length_encode item, length_encodeAll rest]

end

/-! ### Bounds -/

/-- A longer content is not announced by fewer bytes. -/
theorem prefixSize_mono {a b : Nat} (le : a ≤ b) : prefixSize a ≤ prefixSize b := by
  unfold prefixSize
  split
  · split <;> omega
  · rename_i long
    rw [if_neg (by omega)]
    have short := length_natBytes_le_iff (n := b).mp le_rfl
    exact Nat.add_le_add_left (length_natBytes_le_iff.mpr (le.trans_lt short)) 1

theorem prefixSize_le {length width : Nat} (small : length < 256 ^ width) :
    prefixSize length ≤ 1 + width := by
  unfold prefixSize
  split
  · omega
  · exact Nat.add_le_add_left (length_natBytes_le_iff.mpr small) 1

theorem bytesSize_le (content : Bytes) :
    bytesSize content ≤ prefixSize content.length + content.length := by
  unfold bytesSize
  split
  · rename_i byte
    have : prefixSize [byte].length = 1 := rfl
    rw [this]
    split <;> simp
  · exact le_rfl

theorem bytesSize_eq {content : Bytes} (long : 2 ≤ content.length) :
    bytesSize content = prefixSize content.length + content.length := by
  unfold bytesSize
  split
  · simp at long
  · rfl

/-- A number below `256 ^ width` takes at most its bytes and the one that announces them. -/
theorem size_natItem_le {n width : Nat} (small : n < 256 ^ width) (short : width ≤ 55) :
    size (natItem n) ≤ 1 + width := by
  have length := length_natBytes_le_iff.mpr small
  have bound := bytesSize_le (natBytes n)
  have one : prefixSize (natBytes n).length = 1 := if_pos (length.trans short)
  rw [one] at bound
  exact bound.trans (Nat.add_le_add_left length 1)

theorem size_uint8_le (n : UInt8) : size (toItem n) ≤ 2 := by
  have small : n.toNat < 256 ^ 1 := n.toNat_lt
  exact size_natItem_le small (by omega)

theorem size_natItem_small {n : Nat} (small : n < 128) : size (natItem n) = 1 := by
  have cases : ∀ k : Fin 128, bytesSize (natBytes k.val) = 1 := by decide +kernel
  exact cases ⟨n, small⟩

theorem size_uint8_small {n : UInt8} (small : n.toNat < 128) : size (toItem n) = 1 := size_natItem_small small

theorem size_uint64_small {n : UInt64} (small : n.toNat < 128) : size (toItem n) = 1 := size_natItem_small small

theorem size_uint64_le (n : UInt64) : size (toItem n) ≤ 9 := by
  have small : n.toNat < 256 ^ 8 := n.toNat_lt
  exact size_natItem_le small (by omega)

theorem size_fixedBytes {width n : Nat} (small : n < 256 ^ width) (long : 2 ≤ width) :
    size (.bytes (fixedBytes width n)) = prefixSize width + width := by
  have length := length_fixedBytes small
  rw [size, bytesSize_eq (by omega), length]

/-- A word is written in full, leading zeros included. -/
theorem size_word_le {width : Nat} (word : BitVec (8 * width)) (long : 2 ≤ width) (short : width < 256) :
    size (.bytes (fixedBytes width word.toNat)) ≤ 2 + width := by
  have small : word.toNat < 256 ^ width := by
    have bound := word.isLt
    rwa [Nat.pow_mul] at bound
  rw [size_fixedBytes small long]
  exact Nat.add_le_add_right (prefixSize_le (show width < 256 ^ 1 by omega)) width

theorem sizeAll_append (left right : List Item) :
    sizeAll (left ++ right) = sizeAll left + sizeAll right := by
  induction left with
  | nil => simp [sizeAll]
  | cons item rest ih => simp only [List.cons_append, sizeAll, ih, Nat.add_assoc]

theorem sizeAll_singleton (item : Item) : sizeAll [item] = size item := by
  simp only [sizeAll, Nat.add_zero]

theorem sizeAll_map {α : Type} (f : α → Item) (values : List α) :
    sizeAll (values.map f) = (values.map fun value => size (f value)).sum := by
  induction values with
  | nil => rfl
  | cons value rest ih => simp only [List.map_cons, sizeAll, ih, List.sum_cons]

theorem sizeAll_map_le {α : Type} {f : α → Item} {values : List α} {bound : Nat}
    (each : ∀ value ∈ values, size (f value) ≤ bound) :
    sizeAll (values.map f) ≤ values.length * bound := by
  rw [sizeAll_map]
  have sum := List.sum_le_card_nsmul (values.map fun value => size (f value)) bound (by simpa using each)
  simpa using sum

theorem size_list_le {items : List Item} (bound width : Nat) (total : sizeAll items ≤ bound)
    (small : bound < 256 ^ width) : size (.list items) ≤ 1 + width + bound := by
  have head : prefixSize (sizeAll items) ≤ 1 + width := prefixSize_le (total.trans_lt small)
  rw [size]
  omega

theorem size_list_mono {left right : List Item} (le : sizeAll left ≤ sizeAll right) :
    size (.list left) ≤ size (.list right) := by
  rw [size, size]
  exact Nat.add_le_add (prefixSize_mono le) le

/-- The order of the members makes no difference to the size of a list. -/
theorem size_list_perm {α : Type} [RlpCodec α] {left right : List α} (perm : left.Perm right) :
    size (.list (left.map toItem)) = size (.list (right.map toItem)) := by
  have total : sizeAll (left.map toItem) = sizeAll (right.map toItem) := by
    rw [sizeAll_map, sizeAll_map, (perm.map _).sum_eq]
  rw [size, size, total]

theorem size_short_list_le {items : List Item} (bound : Nat) (total : sizeAll items ≤ bound)
    (short : bound ≤ 55) : size (.list items) ≤ 1 + bound := by
  have head : prefixSize (sizeAll items) = 1 := if_pos (total.trans short)
  rw [size, head]
  omega

end RabbitLqc.Lib.Rlp
