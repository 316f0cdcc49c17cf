import Mathlib

/-!
# Primality of large numbers

A number is prime when some element has the full order modulo it. Powers are taken by repeated squaring, so
that a certificate is checked by evaluation.
-/

namespace RabbitLqc.Lib

/-- `base ^ exponent % modulus`, for exponents of at most `fuel` bits. -/
def powMod (modulus base : Nat) : Nat → Nat → Nat
  | 0, _ => 1 % modulus
  | fuel + 1, exponent =>
    if exponent = 0 then 1 % modulus
    else
      let half := powMod modulus (base * base % modulus) fuel (exponent / 2)
      if exponent % 2 = 0 then half else half * base % modulus

theorem powMod_eq {modulus base fuel exponent : Nat} (small : exponent < 2 ^ fuel) :
    powMod modulus base fuel exponent = base ^ exponent % modulus := by
  induction fuel generalizing base exponent with
  | zero =>
    obtain rfl : exponent = 0 := Nat.lt_one_iff.mp small
    rfl
  | succ fuel ih =>
    unfold powMod
    by_cases zero : exponent = 0
    · rw [if_pos zero, zero, pow_zero]
    · have half : powMod modulus (base * base % modulus) fuel (exponent / 2) =
          (base * base) ^ (exponent / 2) % modulus := by
        rw [ih (by rw [pow_succ] at small; omega), ← Nat.pow_mod]
      have parts := Nat.div_add_mod exponent 2
      rw [if_neg zero, half]
      by_cases even : exponent % 2 = 0
      · rw [if_pos even]
        conv_rhs => rw [← parts, even, add_zero, pow_mul, pow_two]
      · have odd : exponent % 2 = 1 := by omega
        rw [if_neg even]
        conv_rhs => rw [← parts, odd, pow_add, pow_one, pow_mul, pow_two, Nat.mul_mod]
        rw [Nat.mul_mod, Nat.mod_mod]

/-- A factorisation of `modulus - 1` and an element whose powers show its order. -/
structure OrderCertificate (modulus base fuel : Nat) (factors : List (Nat × Nat)) : Prop where
  splits : (factors.map fun factor => factor.1 ^ factor.2).prod + 1 = modulus
  primes : ∀ factor ∈ factors, factor.1.Prime
  bits : modulus < 2 ^ fuel
  full : powMod modulus base fuel ((modulus - 1) / 1) = 1 % modulus
  exact : ∀ factor ∈ factors, powMod modulus base fuel ((modulus - 1) / factor.1) ≠ 1 % modulus

theorem OrderCertificate.prime {modulus base fuel : Nat} {factors : List (Nat × Nat)}
    (certificate : OrderCertificate modulus base fuel factors) : modulus.Prime := by
  have below : ∀ divisor, (modulus - 1) / divisor < 2 ^ fuel := fun divisor =>
    lt_of_le_of_lt ((Nat.div_le_self _ _).trans (Nat.sub_le _ _)) certificate.bits
  have power : ∀ exponent, ((base : ZMod modulus)) ^ exponent = 1 ↔ base ^ exponent % modulus = 1 % modulus := by
    intro exponent
    rw [← Nat.cast_pow, ← Nat.cast_one, ZMod.natCast_eq_natCast_iff]
    rfl
  apply lucas_primality modulus (base : ZMod modulus)
  · have full := certificate.full
    rwa [powMod_eq (below 1), Nat.div_one, ← power] at full
  · intro q prime divides same
    have split : modulus - 1 = (factors.map fun factor => factor.1 ^ factor.2).prod := by
      have := certificate.splits
      omega
    rw [split, prime.prime.dvd_prod_iff] at divides
    obtain ⟨value, listed, divides⟩ := divides
    obtain ⟨factor, member, rfl⟩ := List.mem_map.mp listed
    obtain rfl := (Nat.prime_dvd_prime_iff_eq prime (certificate.primes factor member)).mp
      (prime.dvd_of_dvd_pow divides)
    apply certificate.exact factor member
    rw [powMod_eq (below _)]
    exact (power _).mp same

end RabbitLqc.Lib
