import Mathlib

/-!
# Multiplying and dividing in full precision

The quotient of a two-word product by a word, rounded up, computed on words of 256 bits alone: the high word of the
product from its residue modulo the all-ones word, the division as an exact one by the odd part of the divisor, and
the inverse of that by Newton's iteration.
-/

namespace RabbitLqc.Lib.MulDiv

variable {base high low bits : Nat}

abbrev Word := BitVec 256

variable {odd inverse word : Word}

def mulmod (x y modulus : Word) : Word :=
  if modulus = 0 then 0 else BitVec.ofNat 256 (x.toNat * y.toNat % modulus.toNat)

def highWord (x y : Word) : Word :=
  let residue := mulmod x y (~~~0)
  let low := x * y
  residue - low - (if residue < low then 1 else 0)

def lowestBit (word : Word) : Word := word &&& (0 - word)

def newtonStep (odd inverse : Word) : Word := inverse * (2 - odd * inverse)

/-- The inverse of an odd word, right in four bits and then in twice as many with every step. -/
def oddInverse (odd : Word) : Word := (newtonStep odd)^[6] ((3 * odd) ^^^ 2)

def roundUp (quotient remainder : Word) : Option Word :=
  if remainder = 0 then some quotient else if quotient = ~~~0 then none else some (quotient + 1)

def exactQuotient (high low denominator remainder : Word) : Word :=
  let high := high - (if low < remainder then 1 else 0)
  let low := low - remainder
  let twos := lowestBit denominator
  let odd := denominator / twos
  let low := low / twos
  let shift := (0 - twos) / twos + 1
  (low ||| high * shift) * oddInverse odd

def mulDivRoundingUp (x y denominator : Word) : Option Word :=
  if denominator = 0 then none
  else
    let low := x * y
    let high := highWord x y
    let remainder := mulmod x y denominator
    if high = 0 then roundUp (low / denominator) remainder
    else if denominator ≤ high then none
    else roundUp (exactQuotient high low denominator remainder) remainder

/-! ### The two words of a product -/

theorem toNat_mulmod {x y modulus : Word} (nonzero : modulus ≠ 0) :
    (mulmod x y modulus).toNat = x.toNat * y.toNat % modulus.toNat := by
  have positive : 0 < modulus.toNat := by
    rw [Nat.pos_iff_ne_zero]
    exact fun zero => nonzero (BitVec.eq_of_toNat_eq zero)
  have small := Nat.mod_lt (x.toNat * y.toNat) positive
  rw [mulmod, if_neg nonzero, BitVec.toNat_ofNat, Nat.mod_eq_of_lt (small.trans modulus.isLt)]

theorem mod_pred_of_digits (highSmall : high + 2 ≤ base) (lowSmall : low < base) :
    (high * base + low) % (base - 1) = if high + low < base - 1 then high + low else high + low - (base - 1) := by
  have split : high * base + low = (high + low) + (base - 1) * high := by
    obtain ⟨rest, rfl⟩ : ∃ rest, base = rest + 1 := ⟨base - 1, by omega⟩
    simp only [Nat.add_sub_cancel]
    ring
  rw [split, Nat.add_mul_mod_self_left]
  split
  · rename_i below
    exact Nat.mod_eq_of_lt below
  · rename_i above
    rw [Nat.mod_eq_sub_mod (by omega), Nat.mod_eq_of_lt (by omega)]

theorem high_of_residue (highSmall : high + 2 ≤ base) (lowSmall : low < base) :
    let residue := (high * base + low) % (base - 1)
    (base - (if residue < low then 1 else 0) + (base - low + residue) % base) % base = high := by
  intro residue
  have value : residue = if high + low < base - 1 then high + low else high + low - (base - 1) :=
    mod_pred_of_digits highSmall lowSmall
  clear_value residue
  by_cases below : high + low < base - 1
  · rw [if_pos below] at value
    have turn : base - low + residue = high + base := by omega
    rw [if_neg (by omega), turn, Nat.add_mod_right, Nat.mod_eq_of_lt (show high < base by omega), Nat.sub_zero,
      Nat.add_mod_left, Nat.mod_eq_of_lt (by omega)]
  · rw [if_neg below] at value
    have turn : base - low + residue = high + 1 := by omega
    have again : base - 1 + (high + 1) = high + base := by omega
    rw [if_pos (by omega), turn, Nat.mod_eq_of_lt (show high + 1 < base by omega), again, Nat.add_mod_right,
      Nat.mod_eq_of_lt (by omega)]

theorem mul_div_lt {x y : Nat} (xSmall : x < base) (ySmall : y < base) (wide : 2 ≤ base) : x * y / base + 2 ≤ base := by
  have product : x * y ≤ (base - 1) * (base - 1) := Nat.mul_le_mul (by omega) (by omega)
  have below : x * y / base < base - 1 := by
    rw [Nat.div_lt_iff_lt_mul (by omega)]
    refine lt_of_le_of_lt product ?_
    exact Nat.mul_lt_mul_of_pos_left (by omega) (by omega)
  omega

/-- The residues modulo `2 ^ 256` and `2 ^ 256 - 1` give the product in full. -/
theorem highWord_spec (x y : Word) : x.toNat * y.toNat = (highWord x y).toNat * 2 ^ 256 + (x * y).toNat := by
  have ones : (~~~0 : Word).toNat = 2 ^ 256 - 1 := by decide
  have nonzero : (~~~0 : Word) ≠ 0 := by decide
  have residue : (mulmod x y (~~~0)).toNat = x.toNat * y.toNat % (2 ^ 256 - 1) := by rw [toNat_mulmod nonzero, ones]
  have low : (x * y).toNat = x.toNat * y.toNat % 2 ^ 256 := BitVec.toNat_mul x y
  have high : (highWord x y).toNat = x.toNat * y.toNat / 2 ^ 256 := by
    have digits := high_of_residue (mul_div_lt x.isLt y.isLt (by decide))
      (Nat.mod_lt (x.toNat * y.toNat) (Nat.two_pow_pos 256))
    rw [Nat.div_add_mod'] at digits
    have borrow : (if mulmod x y (~~~0) < x * y then (1 : Word) else 0).toNat =
        if (mulmod x y (~~~0)).toNat < (x * y).toNat then 1 else 0 := by
      simp only [BitVec.lt_def]
      split <;> rfl
    rw [highWord, BitVec.toNat_sub, BitVec.toNat_sub, borrow, residue, low]
    exact digits
  rw [high, low, Nat.div_add_mod']

/-! ### The inverse of an odd word -/

theorem newtonStep_error {error : Word} (close : odd * inverse = 1 + error) :
    odd * newtonStep odd inverse = 1 + -(error * error) := by
  calc odd * newtonStep odd inverse = odd * inverse * (2 - odd * inverse) := by rw [newtonStep]; ring
    _ = 1 + -(error * error) := by rw [close]; ring

/-- A step doubles the bits in which the inverse is right. -/
theorem newtonStep_bits (close : ∃ rest, odd * inverse = 1 + 2 ^ bits * rest) :
    ∃ rest, odd * newtonStep odd inverse = 1 + 2 ^ (2 * bits) * rest := by
  obtain ⟨rest, close⟩ := close
  refine ⟨-(rest * rest), ?_⟩
  rw [newtonStep_error close]
  ring

theorem newtonStep_iterate {start : Word} (close : ∃ rest, odd * start = 1 + 2 ^ bits * rest) (steps : Nat) :
    ∃ rest, odd * (newtonStep odd)^[steps] start = 1 + 2 ^ (2 ^ steps * bits) * rest := by
  induction steps with
  | zero => simpa using close
  | succ steps ih =>
    rw [Function.iterate_succ_apply', pow_succ, mul_comm (2 ^ steps) 2, mul_assoc]
    exact newtonStep_bits ih

theorem start_bits (isOdd : odd.toNat % 2 = 1) : ∃ rest, odd * ((3 * odd) ^^^ 2) = 1 + 2 ^ 4 * rest := by
  have wide : 2 ^ 4 ∣ 2 ^ 256 := Nat.pow_dvd_pow 2 (by decide)
  have residues : ∀ k < 2 ^ 4, k % 2 = 1 → k * ((3 * k % 2 ^ 4) ^^^ 2) % 2 ^ 4 = 1 := by decide
  have three : (3 * odd).toNat % 2 ^ 4 = 3 * (odd.toNat % 2 ^ 4) % 2 ^ 4 := by
    rw [BitVec.toNat_mul, Nat.mod_mod_of_dvd _ wide, Nat.mul_mod_mod]
    rfl
  have low : (odd * ((3 * odd) ^^^ 2)).toNat % 2 ^ 4 = 1 := by
    rw [BitVec.toNat_mul, Nat.mod_mod_of_dvd _ wide, BitVec.toNat_xor, Nat.mul_mod, Nat.xor_mod_two_pow, three]
    exact residues (odd.toNat % 2 ^ 4) (Nat.mod_lt _ (by decide)) (by omega)
  have digits := Nat.mod_add_div (odd * ((3 * odd) ^^^ 2)).toNat (2 ^ 4)
  rw [low] at digits
  refine ⟨BitVec.ofNat 256 ((odd * ((3 * odd) ^^^ 2)).toNat / 2 ^ 4), ?_⟩
  have word := congrArg (BitVec.ofNat 256) digits
  rw [BitVec.ofNat_add, BitVec.ofNat_mul, BitVec.ofNat_toNat, BitVec.setWidth_eq] at word
  exact word.symm

theorem mul_oddInverse (isOdd : odd.toNat % 2 = 1) : odd * oddInverse odd = 1 := by
  obtain ⟨rest, close⟩ := newtonStep_iterate (start_bits isOdd) 6
  have zero : (2 : Word) ^ (2 ^ 6 * 4) = 0 := by decide +kernel
  rw [oddInverse, close, zero, zero_mul, add_zero]

/-! ### The power of two in a word -/

theorem testBit_pred {odd : Nat} (isOdd : odd % 2 = 1) (i : Nat) :
    (2 ^ bits * odd - 1).testBit i = if i < bits then true else decide (i ≠ bits) && odd.testBit (i - bits) := by
  have split : 2 ^ bits * odd - 1 = 2 ^ bits * (odd - 1) + (2 ^ bits - 1) := by
    obtain ⟨half, rfl⟩ : ∃ half, odd = 2 * half + 1 := ⟨odd / 2, by omega⟩
    have positive := Nat.two_pow_pos bits
    simp only [Nat.add_sub_cancel, Nat.mul_add, Nat.mul_one]
    omega
  rw [split, Nat.testBit_two_pow_mul_add _ (Nat.sub_lt (Nat.two_pow_pos bits) Nat.one_pos)]
  split
  · rename_i below
    rw [Nat.testBit_two_pow_sub_one, decide_eq_true below]
  · rename_i above
    obtain ⟨step, rfl⟩ : ∃ step, i = bits + step := ⟨i - bits, by omega⟩
    rw [Nat.add_sub_cancel_left]
    cases step with
    | zero =>
      have even : (odd - 1) % 2 = 0 := by omega
      simp [Nat.testBit_zero, even]
    | succ step =>
      have half : (odd - 1) / 2 = odd / 2 := by omega
      rw [Nat.testBit_succ, Nat.testBit_succ, half]
      simp

theorem bits_lt {odd : Nat} (isOdd : odd % 2 = 1) (shape : word.toNat = 2 ^ bits * odd) : bits < 256 := by
  have power : 2 ^ bits ≤ word.toNat := by
    rw [shape]
    exact Nat.le_mul_of_pos_right _ (by omega)
  exact (Nat.pow_lt_pow_iff_right (by decide)).mp (lt_of_le_of_lt power word.isLt)

theorem toNat_zero_sub (nonzero : word ≠ 0) : (0 - word).toNat = 2 ^ 256 - word.toNat := by
  have positive : 0 < word.toNat := by
    rw [Nat.pos_iff_ne_zero]
    exact fun zero => nonzero (BitVec.eq_of_toNat_eq zero)
  rw [BitVec.toNat_sub]
  show (2 ^ 256 - word.toNat + 0) % 2 ^ 256 = _
  rw [Nat.add_zero, Nat.mod_eq_of_lt (Nat.sub_lt (Nat.two_pow_pos 256) positive)]

/-- The lowest bit of a word is the power of two in it. -/
theorem lowestBit_spec {odd : Nat} (isOdd : odd % 2 = 1) (shape : word.toNat = 2 ^ bits * odd) :
    (lowestBit word).toNat = 2 ^ bits := by
  have positive : 0 < word.toNat := by
    rw [shape]
    exact Nat.mul_pos (Nat.two_pow_pos bits) (by omega)
  have nonzero : word ≠ 0 := by
    rintro rfl
    exact absurd positive (by decide)
  have negated : (0 - word).toNat = 2 ^ 256 - (word.toNat - 1 + 1) := by
    rw [Nat.sub_add_cancel positive, toNat_zero_sub nonzero]
  apply Nat.eq_of_testBit_eq
  intro i
  rw [lowestBit, BitVec.toNat_and, Nat.testBit_and, negated,
    Nat.testBit_two_pow_sub_succ (lt_of_le_of_lt (Nat.sub_le _ _) word.isLt), shape, testBit_pred isOdd,
    Nat.testBit_two_pow_mul, Nat.testBit_two_pow]
  by_cases below : i < bits
  · have other : bits ≠ i := by omega
    simp [below, other]
  · obtain ⟨step, rfl⟩ : ∃ step, i = bits + step := ⟨i - bits, by omega⟩
    cases step with
    | zero =>
      simp [isOdd, bits_lt isOdd shape]
    | succ step =>
      simp
      exact fun bit _ => bit

/-! ### The exact quotient -/

theorem shifted_digits {width bits high low : Nat} (narrow : bits ≤ width) (lowSmall : low < 2 ^ width) :
    (high * 2 ^ width + low) / 2 ^ bits % 2 ^ width = low / 2 ^ bits ||| high * 2 ^ (width - bits) % 2 ^ width := by
  obtain ⟨rest, rfl⟩ : ∃ rest, width = rest + bits := ⟨width - bits, by omega⟩
  have small : low / 2 ^ bits < 2 ^ rest := by
    rw [Nat.div_lt_iff_lt_mul (Nat.two_pow_pos bits), ← Nat.pow_add]
    exact lowSmall
  have quotient : (high * 2 ^ (rest + bits) + low) / 2 ^ bits = 2 ^ rest * high + low / 2 ^ bits := by
    rw [Nat.pow_add, ← Nat.mul_assoc, Nat.add_comm, Nat.add_mul_div_right _ _ (Nat.two_pow_pos bits), Nat.mul_comm high,
      Nat.add_comm]
  have upper : high * 2 ^ rest % 2 ^ (rest + bits) = 2 ^ rest * (high % 2 ^ bits) := by
    rw [Nat.pow_add, Nat.mul_comm high, Nat.mul_mod_mul_left]
  rw [Nat.add_sub_cancel, upper, quotient, Nat.or_comm, ← Nat.two_pow_add_eq_or_of_lt small, Nat.pow_add, Nat.mod_mul,
    Nat.mul_add_mod, Nat.mod_eq_of_lt small, Nat.mul_add_div (Nat.two_pow_pos rest), Nat.div_eq_of_lt small,
      Nat.add_zero, Nat.add_comm]

theorem borrow_digits {less : Nat} (lowSmall : low < base) (lessSmall : less < base)
    (enough : less ≤ high * base + low) : let borrow := if low < less then 1 else 0
    high * base + low - less = (high - borrow) * base + (base - less + low) % base ∧ borrow ≤ high := by
  intro borrow
  by_cases short : low < less
  · have one : borrow = 1 := if_pos short
    have positive : 1 ≤ high := by
      rcases Nat.eq_zero_or_pos high with zero | positive
      · rw [zero] at enough
        omega
      · exact positive
    obtain ⟨rest, rfl⟩ : ∃ rest, high = rest + 1 := ⟨high - 1, by omega⟩
    rw [one, Nat.mod_eq_of_lt (by omega), Nat.add_sub_cancel, Nat.add_mul]
    refine ⟨?_, positive⟩
    omega
  · have zero : borrow = 0 := if_neg short
    have turn : base - less + low = low - less + base := by omega
    rw [zero, turn, Nat.add_mod_right, Nat.mod_eq_of_lt (by omega), Nat.sub_zero]
    refine ⟨?_, Nat.zero_le _⟩
    omega

theorem toNat_shift {twos : Word} (power : twos.toNat = 2 ^ bits) (narrow : bits ≤ 256) :
    ((0 - twos) / twos + 1).toNat = 2 ^ (256 - bits) % 2 ^ 256 := by
  have nonzero : twos ≠ 0 := by
    intro zero
    rw [zero] at power
    exact absurd power.symm (Nat.two_pow_pos bits).ne'
  have times : 2 ^ 256 = 2 ^ (256 - bits) * 2 ^ bits := by rw [← Nat.pow_add, Nat.sub_add_cancel narrow]
  have quotient : (2 ^ 256 - 2 ^ bits) / 2 ^ bits + 1 = 2 ^ (256 - bits) := by
    rw [times, ← Nat.sub_one_mul, Nat.mul_div_cancel _ (Nat.two_pow_pos bits),
      Nat.sub_add_cancel (Nat.two_pow_pos (256 - bits))]
  rw [BitVec.toNat_add, BitVec.toNat_udiv, toNat_zero_sub nonzero, power]
  show ((2 ^ 256 - 2 ^ bits) / 2 ^ bits + 1) % 2 ^ 256 = _
  rw [quotient]

/-- What the remainder leaves is divided without rest: by the power of two through a shift of both words, by the odd
part through its inverse. -/
theorem exactQuotient_spec {high low denominator remainder : Word} {quotient : Nat} (nonzero : denominator ≠ 0)
    (less : remainder.toNat ≤ high.toNat * 2 ^ 256 + low.toNat)
    (whole : high.toNat * 2 ^ 256 + low.toNat - remainder.toNat = denominator.toNat * quotient) :
    exactQuotient high low denominator remainder = BitVec.ofNat 256 quotient := by
  obtain ⟨bits, odd, isOdd, shape⟩ := Nat.exists_eq_two_pow_mul_odd
    (show denominator.toNat ≠ 0 from fun zero => nonzero (BitVec.eq_of_toNat_eq zero))
  rw [Nat.odd_iff] at isOdd
  have twos := lowestBit_spec isOdd shape
  have narrow := bits_lt isOdd shape
  have oddPart : (denominator / lowestBit denominator).toNat = odd := by
    rw [BitVec.toNat_udiv, twos, shape, Nat.mul_div_cancel_left _ (Nat.two_pow_pos bits)]
  obtain ⟨digits, borrowed⟩ := borrow_digits low.isLt remainder.isLt less
  have borrow : (if low < remainder then (1 : Word) else 0).toNat = if low.toNat < remainder.toNat then 1 else 0 := by
    simp only [BitVec.lt_def]
    split <;> rfl
  have upper : (high - (if low < remainder then 1 else 0)).toNat =
      high.toNat - (if low.toNat < remainder.toNat then 1 else 0) := by
    rw [← borrow] at borrowed ⊢
    exact BitVec.toNat_sub_of_le borrowed
  have lower : (low - remainder).toNat = (2 ^ 256 - remainder.toNat + low.toNat) % 2 ^ 256 :=
      BitVec.toNat_sub low remainder
  rw [← upper, ← lower, whole, shape, Nat.mul_assoc] at digits
  have shifted := @shifted_digits 256 bits (high - (if low < remainder then 1 else 0)).toNat _ narrow.le
    (low - remainder).isLt
  rw [← digits, Nat.mul_div_cancel_left _ (Nat.two_pow_pos bits)] at shifted
  have joined : (low - remainder) / lowestBit denominator |||
      (high - (if low < remainder then 1 else 0)) * ((0 - lowestBit denominator) / lowestBit denominator + 1) =
      denominator / lowestBit denominator * BitVec.ofNat 256 quotient := by
    apply BitVec.eq_of_toNat_eq
    rw [BitVec.toNat_or, BitVec.toNat_udiv, BitVec.toNat_mul, toNat_shift twos narrow.le, Nat.mul_mod_mod, twos,
      ← shifted, BitVec.toNat_mul, oddPart, BitVec.toNat_ofNat, Nat.mul_mod_mod]
  have isInverse := mul_oddInverse
    (show (denominator / lowestBit denominator).toNat % 2 = 1 by rw [oddPart]; exact isOdd)
  rw [exactQuotient, joined, mul_comm (denominator / lowestBit denominator), mul_assoc, isInverse, mul_one]

/-! ### The quotient rounded up -/

theorem ceilDiv_eq {dividend divisor : Nat} (positive : 0 < divisor) :
    dividend ⌈/⌉ divisor = if dividend % divisor = 0 then dividend / divisor else dividend / divisor + 1 := by
  have digits := Nat.div_add_mod dividend divisor
  have small := Nat.mod_lt dividend positive
  apply le_antisymm
  · rw [ceilDiv_le_iff_le_mul positive]
    split
    · omega
    · rw [Nat.mul_add]
      omega
  · split
    · exact Nat.div_le_of_le_mul ((ceilDiv_le_iff_le_mul positive).mp le_rfl)
    · rw [Nat.add_one_le_iff, ← not_le, ceilDiv_le_iff_le_mul positive]
      omega

theorem roundUp_spec {whole : Nat} (small : whole < 2 ^ 256) (remainder : Word) :
    roundUp (BitVec.ofNat 256 whole) remainder =
      if (if remainder.toNat = 0 then whole else whole + 1) < 2 ^ 256 then
        some (BitVec.ofNat 256 (if remainder.toNat = 0 then whole else whole + 1))
      else none := by
  have zero : remainder = 0 ↔ remainder.toNat = 0 :=
    ⟨fun zero => by rw [zero]; rfl, fun zero => BitVec.eq_of_toNat_eq zero⟩
  have ones : BitVec.ofNat 256 whole = ~~~0 ↔ ¬ whole + 1 < 2 ^ 256 := by
    rw [← BitVec.toNat_inj, BitVec.toNat_ofNat, Nat.mod_eq_of_lt small, show (~~~0 : Word).toNat =
      2 ^ 256 - 1 by decide]
    omega
  rw [roundUp]
  by_cases isZero : remainder.toNat = 0
  · rw [if_pos (zero.mpr isZero), if_pos isZero, if_pos small]
  · rw [if_neg (isZero ∘ zero.mp), if_neg isZero]
    by_cases room : whole + 1 < 2 ^ 256
    · rw [if_neg (fun full => ones.mp full room), if_pos room, BitVec.ofNat_add]
      rfl
    · rw [if_pos (ones.mpr room), if_neg room]

theorem mulDivRoundingUp_eq (x y denominator : Word) :
    mulDivRoundingUp x y denominator =
      if denominator ≠ 0 ∧ x.toNat * y.toNat ⌈/⌉ denominator.toNat < 2 ^ 256 then
        some (BitVec.ofNat 256 (x.toNat * y.toNat ⌈/⌉ denominator.toNat))
      else none := by
  by_cases zero : denominator = 0
  · rw [mulDivRoundingUp, if_pos zero, if_neg (fun both => both.1 zero)]
  have positive : 0 < denominator.toNat := by
    rw [Nat.pos_iff_ne_zero]
    exact fun isZero => zero (BitVec.eq_of_toNat_eq isZero)
  have words := highWord_spec x y
  have remainder : (mulmod x y denominator).toNat = x.toNat * y.toNat % denominator.toNat := toNat_mulmod zero
  have rounded (small : x.toNat * y.toNat / denominator.toNat < 2 ^ 256) :
      roundUp (BitVec.ofNat 256 (x.toNat * y.toNat / denominator.toNat)) (mulmod x y denominator) =
        if denominator ≠ 0 ∧ x.toNat * y.toNat ⌈/⌉ denominator.toNat < 2 ^ 256 then
          some (BitVec.ofNat 256 (x.toNat * y.toNat ⌈/⌉ denominator.toNat))
        else none := by
    rw [roundUp_spec small, remainder, ← ceilDiv_eq positive]
    simp only [ne_eq, zero, not_false_eq_true, true_and]
  rw [mulDivRoundingUp, if_neg zero]
  dsimp only
  by_cases single : highWord x y = 0
  · have low : x.toNat * y.toNat = (x * y).toNat := by
      rw [words, single]
      simp
    have quotient : x * y / denominator = BitVec.ofNat 256 (x.toNat * y.toNat / denominator.toNat) := by
      rw [low, ← BitVec.toNat_udiv, BitVec.ofNat_toNat, BitVec.setWidth_eq]
    rw [if_pos single, quotient]
    apply rounded
    rw [low]
    exact lt_of_le_of_lt (Nat.div_le_self _ _) (x * y).isLt
  · rw [if_neg single]
    by_cases large : denominator ≤ highWord x y
    · have big : 2 ^ 256 ≤ x.toNat * y.toNat / denominator.toNat := by
        rw [Nat.le_div_iff_mul_le positive, words, Nat.mul_comm]
        exact Nat.le_add_right_of_le (Nat.mul_le_mul_right _ large)
      have above : x.toNat * y.toNat / denominator.toNat ≤ x.toNat * y.toNat ⌈/⌉ denominator.toNat := by
        rw [ceilDiv_eq positive]
        split <;> omega
      rw [if_pos large, if_neg (fun both => absurd both.2 (not_lt.mpr (big.trans above)))]
    · have small : x.toNat * y.toNat / denominator.toNat < 2 ^ 256 := by
        rw [Nat.div_lt_iff_lt_mul positive, words]
        have next : ((highWord x y).toNat + 1) * 2 ^ 256 ≤ denominator.toNat * 2 ^ 256 :=
          Nat.mul_le_mul_right _ (Nat.lt_of_not_le large)
        have low := (x * y).isLt
        rw [Nat.add_mul] at next
        rw [Nat.mul_comm (2 ^ 256)]
        omega
      have whole : (highWord x y).toNat * 2 ^ 256 + (x * y).toNat - (mulmod x y denominator).toNat =
          denominator.toNat * (x.toNat * y.toNat / denominator.toNat) := by
        rw [← words, remainder]
        exact Nat.sub_eq_of_eq_add (Nat.div_add_mod _ _).symm
      have less : (mulmod x y denominator).toNat ≤ (highWord x y).toNat * 2 ^ 256 + (x * y).toNat := by
        rw [← words, remainder]
        exact Nat.mod_le _ _
      rw [if_neg large, exactQuotient_spec zero less whole, rounded small]

end RabbitLqc.Lib.MulDiv
