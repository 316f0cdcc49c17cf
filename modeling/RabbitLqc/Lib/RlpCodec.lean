import RabbitLqc.Lib.Rlp

/-!
# Records as RLP items

A codec turns a value into an item and reads exactly the items it writes. Numbers use their
shortest form, words of a fixed width their full one, lists and records the list of their parts.
-/

namespace RabbitLqc.Lib

open Rlp

class RlpCodec (α : Type) where
  toItem : α → Item
  ofItem : Item → Option α
  /-- What is written reads back. -/
  ofItem_toItem : ∀ a, ofItem (toItem a) = some a

namespace RlpCodec

attribute [simp] ofItem_toItem

/-- A number below `bound` in its shortest form. -/
def natOfItem (bound : Nat) : Item → Option Nat
  | .bytes content =>
    if content.head? ≠ some 0 ∧ natOfBytes content < bound then some (natOfBytes content) else none
  | .list _ => none

@[simp] theorem natOfItem_natBytes {bound n : Nat} (small : n < bound) :
    natOfItem bound (.bytes (natBytes n)) = some n := by
  simp [natOfItem, natBytes_head_ne_zero, small]

instance : RlpCodec UInt8 where
  toItem n := .bytes (natBytes n.toNat)
  ofItem item := (natOfItem (2 ^ 8) item).map UInt8.ofNat
  ofItem_toItem n := by simp [n.toNat_lt]

instance : RlpCodec UInt64 where
  toItem n := .bytes (natBytes n.toNat)
  ofItem item := (natOfItem (2 ^ 64) item).map UInt64.ofNat
  ofItem_toItem n := by simp [n.toNat_lt]

instance : RlpCodec Bool where
  toItem flag := .bytes (natBytes flag.toNat)
  ofItem item := (natOfItem 2 item).map (· == 1)
  ofItem_toItem flag := by
    rw [natOfItem_natBytes flag.toNat_lt]
    cases flag <;> rfl

def listOfItems {α : Type} [RlpCodec α] : List Item → Option (List α)
  | [] => some []
  | item :: rest => do
    let head ← ofItem item
    let tail ← listOfItems rest
    some (head :: tail)

theorem listOfItems_toItem {α : Type} [RlpCodec α] (values : List α) :
    listOfItems (values.map toItem) = some values := by
  induction values with
  | nil => rfl
  | cons value rest ih => simp [listOfItems, ih]

instance {α : Type} [RlpCodec α] : RlpCodec (List α) where
  toItem values := .list (values.map toItem)
  ofItem
    | .list items => listOfItems items
    | .bytes _ => none
  ofItem_toItem := listOfItems_toItem

/-- A byte string is one item, not the list of its bytes. -/
instance (priority := high) : RlpCodec Bytes where
  toItem content := .bytes content
  ofItem
    | .bytes content => some content
    | .list _ => none
  ofItem_toItem _ := rfl

/-- A word of `8 * width` bits as exactly `width` bytes. -/
def wordOfItem (width : Nat) : Item → Option (BitVec (8 * width))
  | .bytes content => if content.length = width then some (BitVec.ofNat _ (natOfBytes content)) else none
  | .list _ => none

theorem wordOfItem_fixedBytes {width : Nat} (word : BitVec (8 * width)) :
    wordOfItem width (.bytes (fixedBytes width word.toNat)) = some word := by
  have small : word.toNat < 256 ^ width := by
    have bound := word.isLt
    rwa [Nat.pow_mul] at bound
  simp [wordOfItem, length_fixedBytes small]

/-- The codec of a word of `width` bytes. -/
abbrev wordCodec (width : Nat) : RlpCodec (BitVec (8 * width)) where
  toItem word := .bytes (fixedBytes width word.toNat)
  ofItem := wordOfItem width
  ofItem_toItem := wordOfItem_fixedBytes

instance : RlpCodec (BitVec 128) := wordCodec 16

instance : RlpCodec (BitVec 160) := wordCodec 20

instance : RlpCodec (BitVec 256) := wordCodec 32

instance : RlpCodec (BitVec 384) := wordCodec 48

instance : RlpCodec (BitVec 768) := wordCodec 96

/-- A number of any size in its shortest form, as it is written into hashed payloads. -/
def natItem (n : Nat) : Item := .bytes (natBytes n)

end RlpCodec

end RabbitLqc.Lib
