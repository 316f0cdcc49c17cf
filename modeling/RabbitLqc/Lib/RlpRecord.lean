import RabbitLqc.Lib.RlpCodec

/-!
# Records on disk

A stored record is the encoding of an item; a blob is read only when the record it holds encodes to that very blob.
-/

namespace RabbitLqc.Lib

open Rlp

namespace Rlp

/-- The encoding of an item. No byte string is longer than a machine word can count. -/
def encodeToBytes (item : Item) : Option Bytes :=
  if (encode item).length < 2 ^ 64 then some (encode item) else none

theorem encodeToBytes_eq_some_iff {item : Item} {blob : Bytes} :
    encodeToBytes item = some blob ↔ (encode item).length < 2 ^ 64 ∧ encode item = blob := by
  simp only [encodeToBytes, Option.ite_none_right_eq_some, Option.some.injEq]

end Rlp

end RabbitLqc.Lib
