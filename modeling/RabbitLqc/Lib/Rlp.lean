import RabbitLqc.Lib.Bytes

/-!
# RLP

Nested byte strings and their encoding. Every item that is not too long is read back as it was
written; decoders that must reject other spellings of an item encode it again and compare.
-/

namespace RabbitLqc.Lib.Rlp

inductive Item where
  | bytes (content : Bytes)
  | list (items : List Item)

/-- The length prefix of a string (`offset` 0x80) or a list (`offset` 0xc0). -/
def lengthPrefix (offset length : Nat) : Bytes :=
  if length ≤ 55 then [UInt8.ofNat (offset + length)]
  else UInt8.ofNat (offset + 55 + (natBytes length).length) :: natBytes length

def encodeBytes : Bytes → Bytes
  | [byte] => if byte < 0x80 then [byte] else [0x81, byte]
  | content => lengthPrefix 0x80 content.length ++ content

mutual

def encode : Item → Bytes
  | .bytes content => encodeBytes content
  | .list items => lengthPrefix 0xc0 (encodeAll items).length ++ encodeAll items

def encodeAll : List Item → Bytes
  | [] => []
  | item :: rest => encode item ++ encodeAll rest

end

theorem encodeAll_append (left right : List Item) :
    encodeAll (left ++ right) = encodeAll left ++ encodeAll right := by
  induction left with
  | nil => simp [encodeAll]
  | cons item left ih => simp [encodeAll, ih]

/-! ### Reading -/

inductive Kind where
  | bytes
  | list
  deriving DecidableEq

/-- The first `length` bytes and what follows them. -/
def takeExactly (length : Nat) (input : Bytes) : Option (Bytes × Bytes) :=
  if length ≤ input.length then some (input.take length, input.drop length) else none

/-- A payload whose length stands in `width` bytes of its own. -/
def takeLong (width : Nat) (input : Bytes) : Option (Bytes × Bytes) := do
  let (size, rest) ← takeExactly width input
  if size.head? = some 0 ∨ natOfBytes size ≤ 55 then none
  else takeExactly (natOfBytes size) rest

def splitItem : Bytes → Option (Kind × Bytes × Bytes)
  | [] => none
  | tag :: rest =>
    if tag.toNat < 0x80 then some (.bytes, [tag], rest)
    else if tag.toNat < 0xb8 then do
      let (payload, rest) ← takeExactly (tag.toNat - 0x80) rest
      -- a single small byte has to stand for itself
      if payload.length = 1 ∧ (payload.headD 0).toNat < 0x80 then none
      else some (.bytes, payload, rest)
    else if tag.toNat < 0xc0 then do
      let (payload, rest) ← takeLong (tag.toNat - 0xb7) rest
      some (.bytes, payload, rest)
    else if tag.toNat < 0xf8 then do
      let (payload, rest) ← takeExactly (tag.toNat - 0xc0) rest
      some (.list, payload, rest)
    else do
      let (payload, rest) ← takeLong (tag.toNat - 0xf7) rest
      some (.list, payload, rest)

mutual

def decodeItem : Nat → Bytes → Option (Item × Bytes)
  | 0, _ => none
  | fuel + 1, input => do
    let (kind, payload, rest) ← splitItem input
    match kind with
    | .bytes => some (.bytes payload, rest)
    | .list => do
      let items ← decodeAll fuel payload
      some (.list items, rest)

def decodeAll : Nat → Bytes → Option (List Item)
  | _, [] => some []
  | 0, _ :: _ => none
  | fuel + 1, byte :: input => do
    let (item, rest) ← decodeItem fuel (byte :: input)
    let items ← decodeAll fuel rest
    some (item :: items)

end

def decode (input : Bytes) : Option Item :=
  match decodeItem (2 * input.length) input with
  | some (item, []) => some item
  | _ => none

/-! ### One item -/

theorem takeExactly_iff {length : Nat} {input payload rest : Bytes} :
    takeExactly length input = some (payload, rest) ↔
      input = payload ++ rest ∧ payload.length = length := by
  unfold takeExactly
  constructor
  · intro h
    split at h
    · rename_i enough
      obtain ⟨rfl, rfl⟩ := Prod.mk.inj (Option.some.inj h)
      exact ⟨(List.take_append_drop _ _).symm, by simp [enough]⟩
    · cases h
  · rintro ⟨rfl, rfl⟩
    simp

theorem takeLong_iff {width : Nat} {input payload rest : Bytes} :
    takeLong width input = some (payload, rest) ↔
      55 < payload.length ∧ (natBytes payload.length).length = width ∧
        input = natBytes payload.length ++ payload ++ rest := by
  unfold takeLong
  constructor
  · intro h
    obtain ⟨⟨size, tail⟩, first, second⟩ := Option.bind_eq_some_iff.mp h
    obtain ⟨rfl, rfl⟩ := takeExactly_iff.mp first
    simp only at second
    split at second
    · cases second
    · rename_i canonical
      push Not at canonical
      obtain ⟨rfl, length⟩ := takeExactly_iff.mp second
      have bytes : natBytes payload.length = size := by
        rw [length, natBytes_natOfBytes canonical.1]
      exact ⟨length ▸ canonical.2, by rw [bytes], by rw [bytes, List.append_assoc]⟩
  · rintro ⟨long, rfl, rfl⟩
    have first : takeExactly (natBytes payload.length).length
        (natBytes payload.length ++ payload ++ rest) =
          some (natBytes payload.length, payload ++ rest) :=
      takeExactly_iff.mpr ⟨List.append_assoc _ _ _, rfl⟩
    rw [first]
    simp [natBytes_head_ne_zero, Nat.not_le.mpr long, takeExactly_iff]

theorem length_natBytes_le_eight {n : Nat} (small : n < 2 ^ 64) : (natBytes n).length ≤ 8 :=
  length_natBytes_le_iff.mpr (by omega)

theorem length_natBytes_pos {n : Nat} (long : 55 < n) : 0 < (natBytes n).length :=
  List.length_pos_of_ne_nil (natBytes_ne_nil (by omega))

theorem toNat_tag {n : Nat} (small : n < 256) : (UInt8.ofNat n).toNat = n := by
  simp [Nat.mod_eq_of_lt small]

theorem splitItem_lengthPrefix_list {payload rest : Bytes} (small : payload.length < 2 ^ 64) :
    splitItem (lengthPrefix 0xc0 payload.length ++ payload ++ rest) =
      some (.list, payload, rest) := by
  unfold lengthPrefix
  split
  · rename_i short
    have tag : (UInt8.ofNat (0xc0 + payload.length)).toNat = 0xc0 + payload.length :=
      toNat_tag (by omega)
    have read : takeExactly payload.length (payload ++ rest) = some (payload, rest) :=
      takeExactly_iff.mpr ⟨rfl, rfl⟩
    simp only [List.cons_append, List.nil_append, splitItem, tag]
    rw [if_neg (by omega), if_neg (by omega), if_neg (by omega), if_pos (by omega),
      Nat.add_sub_cancel_left, read]
    rfl
  · rename_i long
    have width := length_natBytes_le_eight small
    have positive := length_natBytes_pos (Nat.not_le.mp long)
    have tag : (UInt8.ofNat (0xc0 + 55 + (natBytes payload.length).length)).toNat =
        0xc0 + 55 + (natBytes payload.length).length := toNat_tag (by omega)
    have read : takeLong (natBytes payload.length).length
        (natBytes payload.length ++ payload ++ rest) = some (payload, rest) :=
      takeLong_iff.mpr ⟨Nat.not_le.mp long, rfl, rfl⟩
    simp only [List.cons_append, splitItem, tag]
    rw [if_neg (by omega), if_neg (by omega), if_neg (by omega), if_neg (by omega),
      show 0xc0 + 55 + (natBytes payload.length).length - 0xf7 = (natBytes payload.length).length
        by omega, read]
    rfl

theorem splitItem_lengthPrefix_bytes {payload rest : Bytes} (small : payload.length < 2 ^ 64)
    (wide : ¬ (payload.length = 1 ∧ (payload.headD 0).toNat < 0x80)) :
    splitItem (lengthPrefix 0x80 payload.length ++ payload ++ rest) =
      some (.bytes, payload, rest) := by
  unfold lengthPrefix
  split
  · rename_i short
    have tag : (UInt8.ofNat (0x80 + payload.length)).toNat = 0x80 + payload.length :=
      toNat_tag (by omega)
    have read : takeExactly payload.length (payload ++ rest) = some (payload, rest) :=
      takeExactly_iff.mpr ⟨rfl, rfl⟩
    simp only [List.cons_append, List.nil_append, splitItem, tag]
    rw [if_neg (by omega), if_pos (by omega), Nat.add_sub_cancel_left, read]
    exact if_neg wide
  · rename_i long
    have width := length_natBytes_le_eight small
    have positive := length_natBytes_pos (Nat.not_le.mp long)
    have tag : (UInt8.ofNat (0x80 + 55 + (natBytes payload.length).length)).toNat =
        0x80 + 55 + (natBytes payload.length).length := toNat_tag (by omega)
    have read : takeLong (natBytes payload.length).length
        (natBytes payload.length ++ payload ++ rest) = some (payload, rest) :=
      takeLong_iff.mpr ⟨Nat.not_le.mp long, rfl, rfl⟩
    simp only [List.cons_append, splitItem, tag]
    rw [if_neg (by omega), if_neg (by omega), if_pos (by omega),
      show 0x80 + 55 + (natBytes payload.length).length - 0xb7 = (natBytes payload.length).length
        by omega, read]
    rfl

theorem encodeBytes_wide {payload : Bytes}
    (wide : ¬ (payload.length = 1 ∧ (payload.headD 0).toNat < 0x80)) :
    encodeBytes payload = lengthPrefix 0x80 payload.length ++ payload := by
  match payload, wide with
  | [], _ => rfl
  | [byte], wide =>
    have large : ¬ byte < 0x80 := by
      simpa [UInt8.lt_iff_toNat_lt] using wide
    simp [encodeBytes, large, lengthPrefix]
  | _ :: _ :: _, _ => rfl

theorem splitItem_encodeBytes {payload rest : Bytes} (small : payload.length < 2 ^ 64) :
    splitItem (encodeBytes payload ++ rest) = some (.bytes, payload, rest) := by
  by_cases wide : payload.length = 1 ∧ (payload.headD 0).toNat < 0x80
  · obtain ⟨byte, rfl⟩ := List.length_eq_one_iff.mp wide.1
    have low : byte.toNat < 0x80 := wide.2
    have lowByte : byte < 0x80 := by simpa [UInt8.lt_iff_toNat_lt] using low
    simp [encodeBytes, lowByte, splitItem, low]
  · rw [encodeBytes_wide wide]
    exact splitItem_lengthPrefix_bytes small wide

/-! ### Reading back what was written -/

mutual

/-- Steps `decodeItem` takes on the encoding of an item. -/
def Item.steps : Item → Nat
  | .bytes _ => 1
  | .list items => 1 + stepsAll items

def stepsAll : List Item → Nat
  | [] => 0
  | item :: rest => 1 + item.steps + stepsAll rest

end

theorem lengthPrefix_ne_nil (offset length : Nat) : lengthPrefix offset length ≠ [] := by
  unfold lengthPrefix
  split <;> simp

theorem lengthPrefix_length_pos (offset length : Nat) : 0 < (lengthPrefix offset length).length :=
  List.length_pos_of_ne_nil (lengthPrefix_ne_nil offset length)

theorem encodeBytes_length_pos (content : Bytes) : 0 < (encodeBytes content).length := by
  by_cases wide : content.length = 1 ∧ (content.headD 0).toNat < 0x80
  · obtain ⟨byte, rfl⟩ := List.length_eq_one_iff.mp wide.1
    simp only [encodeBytes]
    split <;> simp
  · rw [encodeBytes_wide wide, List.length_append]
    have := lengthPrefix_length_pos 0x80 content.length
    omega

theorem length_le_encodeBytes (content : Bytes) : content.length ≤ (encodeBytes content).length := by
  by_cases wide : content.length = 1 ∧ (content.headD 0).toNat < 0x80
  · rw [wide.1]
    exact encodeBytes_length_pos content
  · simp [encodeBytes_wide wide]

mutual

theorem steps_lt (item : Item) : item.steps < 2 * (encode item).length := by
  match item with
  | .bytes content =>
    have := encodeBytes_length_pos content
    simp only [Item.steps, encode]
    omega
  | .list items =>
    have := stepsAll_le items
    have := lengthPrefix_length_pos 0xc0 (encodeAll items).length
    simp only [Item.steps, encode, List.length_append]
    omega

theorem stepsAll_le (items : List Item) : stepsAll items ≤ 2 * (encodeAll items).length := by
  match items with
  | [] => simp [stepsAll]
  | item :: rest =>
    have := steps_lt item
    have := stepsAll_le rest
    simp only [stepsAll, encodeAll, List.length_append]
    omega

end

theorem encode_length_pos (item : Item) : 0 < (encode item).length := by
  have := steps_lt item
  omega

mutual

theorem decodeItem_encode (item : Item) (fuel : Nat) (rest : Bytes) (enough : item.steps ≤ fuel)
    (small : (encode item).length < 2 ^ 64) :
    decodeItem fuel (encode item ++ rest) = some (item, rest) := by
  match item, fuel with
  | .bytes content, 0 => simp [Item.steps] at enough
  | .list items, 0 => simp [Item.steps] at enough
  | .bytes content, fuel + 1 =>
    have bound : content.length < 2 ^ 64 :=
      Nat.lt_of_le_of_lt (length_le_encodeBytes content) small
    simp only [decodeItem, encode, splitItem_encodeBytes bound]
    rfl
  | .list items, fuel + 1 =>
    simp only [encode, List.length_append] at small
    simp only [Item.steps] at enough
    have bound : (encodeAll items).length < 2 ^ 64 := by omega
    simp only [decodeItem, encode, splitItem_lengthPrefix_list bound]
    have inner := decodeAll_encodeAll items fuel (by omega) bound
    simp [inner]

theorem decodeAll_encodeAll (items : List Item) (fuel : Nat) (enough : stepsAll items ≤ fuel)
    (small : (encodeAll items).length < 2 ^ 64) :
    decodeAll fuel (encodeAll items) = some items := by
  match items, fuel with
  | [], _ => simp [encodeAll, decodeAll]
  | item :: rest, 0 => simp [stepsAll] at enough
  | item :: rest, fuel + 1 =>
    simp only [encodeAll, List.length_append] at small
    simp only [stepsAll] at enough
    have first := decodeItem_encode item fuel (encodeAll rest) (by omega) (by omega)
    have remaining := decodeAll_encodeAll rest fuel (by omega) (by omega)
    have nonempty : encode item ++ encodeAll rest ≠ [] := by
      have := encode_length_pos item
      intro empty
      simp [(List.append_eq_nil_iff.mp empty).1] at this
    obtain ⟨byte, tail, shape⟩ := List.exists_cons_of_ne_nil nonempty
    simp only [encodeAll, shape, decodeAll]
    rw [← shape, first]
    simp [remaining]

end

theorem decode_encode {item : Item} (small : (encode item).length < 2 ^ 64) :
    decode (encode item) = some item := by
  have run := decodeItem_encode item (2 * (encode item).length) [] (steps_lt item).le small
  rw [List.append_nil] at run
  simp [decode, run]

end RabbitLqc.Lib.Rlp
