import RabbitLqc.Lib.Except

/-!
# Words that do not wrap

Arithmetic on 64-bit words agrees with arithmetic on natural numbers where the exact result is a word.
-/

namespace RabbitLqc.Lib.Word

variable {a b : UInt64}

theorem toNat_ne_zero (positive : a ≠ 0) : a.toNat ≠ 0 := fun zero => positive (UInt64.toNat.inj zero)

theorem ne_zero_iff : a ≠ 0 ↔ a.toNat ≠ 0 :=
  ⟨toNat_ne_zero, fun positive zero => positive (by rw [zero]; rfl)⟩

theorem toNat_sub (below : b.toNat ≤ a.toNat) : (a - b).toNat = a.toNat - b.toNat :=
  UInt64.toNat_sub_of_le _ _ (UInt64.le_iff_toNat_le.mpr below)

theorem toNat_add (small : a.toNat + b.toNat < 2 ^ 64) : (a + b).toNat = a.toNat + b.toNat := by
  rw [UInt64.toNat_add, Nat.mod_eq_of_lt small]

theorem toNat_mul (small : a.toNat * b.toNat < 2 ^ 64) : (a * b).toNat = a.toNat * b.toNat := by
  rw [UInt64.toNat_mul, Nat.mod_eq_of_lt small]

theorem exists_toNat {n : Nat} (small : n < 2 ^ 64) : ∃ word : UInt64, word.toNat = n :=
  ⟨UInt64.ofNat n, UInt64.toNat_ofNat_of_lt small⟩

theorem ofNat_ne_zero {width n : Nat} (positive : n ≠ 0) (small : n < 2 ^ width) : BitVec.ofNat width n ≠ 0 := by
  intro zero
  have value := congrArg BitVec.toNat zero
  rw [BitVec.toNat_ofNat, Nat.mod_eq_of_lt small] at value
  exact positive value

/-- A computation in words that agrees with one in numbers returns a word when the other returns its value. -/
theorem ok_iff_toNat {ε : Type} {x : Except ε UInt64} {exact : Except ε Nat} (same : x.map UInt64.toNat = exact) :
    x = .ok a ↔ exact = .ok a.toNat := by
  subst same
  cases x with
  | error e => simp [Except.map]
  | ok b => simp [Except.map, UInt64.toNat_inj]

theorem ok_some_iff_toNat {ε : Type} {x : Except ε (Option UInt64)} {exact : Except ε (Option Nat)}
    (same : x.map (Option.map UInt64.toNat) = exact) : x = .ok (some a) ↔ exact = .ok (some a.toNat) := by
  subst same
  cases x with
  | error e => simp [Except.map]
  | ok result =>
    cases result with
    | none => simp [Except.map]
    | some b => simp [Except.map, UInt64.toNat_inj]

/-! ### Checked computations in words and in numbers -/

/-- The same check before two computations that agree. -/
theorem map_guarded {ε α β : Type} {f : α → β} {P Q : Prop} [Decidable P] [Decidable Q] {error : ε}
    {x : Except ε α} {y : Except ε β} (same : P ↔ Q) (rest : P → x.map f = y) :
    (ensure P error >>= fun _ => x).map f = ensure Q error >>= fun _ => y := by
  by_cases holds : P
  · rw [(ensure_ok_iff (u := ())).mpr holds, (ensure_ok_iff (u := ())).mpr (same.mp holds)]
    exact rest holds
  · rw [ensure_error_iff.mpr ⟨holds, rfl⟩, ensure_error_iff.mpr ⟨fun other => holds (same.mpr other), rfl⟩]
    rfl

/-- Computations that agree step by step agree in sequence. -/
theorem map_bind {ε α β α' β' : Type} {f : α → α'} {g : β → β'} {x : Except ε α} {x' : Except ε α'}
    {step : α → Except ε β} {step' : α' → Except ε β'} (same : x.map f = x')
    (steps : ∀ a, x = .ok a → (step a).map g = step' (f a)) : (x >>= step).map g = x' >>= step' := by
  subst same
  cases x with
  | error e => rfl
  | ok a => exact steps a rfl

end RabbitLqc.Lib.Word
