import Mathlib

/-!
# Polynomials over a module

A polynomial whose coefficients are group elements, evaluated at scalars: the form a shared key takes when it
is known in the exponent only. Its value anywhere is a combination of its values at enough points, with the
weights of Lagrange interpolation.
-/

namespace RabbitLqc.Lib

open Polynomial

section Evaluation

variable {K G H : Type} [Field K] [AddCommGroup G] [Module K G] [AddCommGroup H] [Module K H]

def evalAt : List G → K → G
  | [], _ => 0
  | coefficient :: rest, x => coefficient + x • evalAt rest x

@[simp] theorem evalAt_nil (x : K) : evalAt ([] : List G) x = 0 := rfl

@[simp] theorem evalAt_cons (coefficient : G) (rest : List G) (x : K) :
    evalAt (coefficient :: rest) x = coefficient + x • evalAt rest x := rfl

theorem foldl_powers (coefficients : List G) (x power : K) (total : G) :
    (coefficients.foldl (fun (state : G × K) coefficient => (state.1 + state.2 • coefficient, state.2 * x))
      (total, power)).1 = total + power • evalAt coefficients x := by
  induction coefficients generalizing total power with
  | nil => simp
  | cons coefficient rest ih =>
    rw [List.foldl_cons, ih, evalAt_cons, smul_add, smul_smul, add_assoc]

theorem evalAt_zero_point (coefficients : List G) : evalAt coefficients (0 : K) = coefficients.headD 0 := by
  cases coefficients <;> simp

theorem map_evalAt (f : G →ₗ[K] H) (coefficients : List G) (x : K) :
    f (evalAt coefficients x) = evalAt (coefficients.map f) x := by
  induction coefficients with
  | nil => simp
  | cons coefficient rest ih => simp [ih]

theorem evalAt_replicate_zero (count : Nat) (x : K) : evalAt (List.replicate count (0 : G)) x = 0 := by
  induction count with
  | zero => rfl
  | succ count ih => rw [List.replicate_succ, evalAt_cons, ih, smul_zero, add_zero]

theorem evalAt_zipWith_add {left right : List G} (same : left.length = right.length) (x : K) :
    evalAt (List.zipWith (· + ·) left right) x = evalAt left x + evalAt right x := by
  induction left generalizing right with
  | nil => simp [List.eq_nil_of_length_eq_zero same.symm]
  | cons first rest ih =>
    obtain ⟨other, others, rfl⟩ := List.exists_cons_of_length_eq_add_one same.symm
    rw [List.zipWith_cons_cons, evalAt_cons, ih (Nat.succ.inj same), smul_add, add_add_add_comm]
    rfl

end Evaluation

section Interpolation

variable {ι K G : Type} [DecidableEq ι] [Field K] [AddCommGroup G] [Module K G]

/-- The weight of one of the points in the value at `x`. -/
def lagrangeWeight (point : ι → K) (ids : List ι) (x : K) (id : ι) : K :=
  ((ids.filter (· ≠ id)).map fun other => x - point other).prod *
    ((ids.filter (· ≠ id)).map fun other => point id - point other).prod⁻¹

variable {point : ι → K} {ids : List ι}

theorem lagrangeWeight_eq_basis (distinct : ids.Nodup) (x : K) (id : ι) :
    lagrangeWeight point ids x id = (Lagrange.basis ids.toFinset point id).eval x := by
  have others : (ids.filter (· ≠ id)).toFinset = ids.toFinset.erase id := by
    ext other
    simp [and_comm]
  unfold lagrangeWeight Lagrange.basis
  rw [← List.prod_toFinset _ (distinct.filter _), ← List.prod_toFinset _ (distinct.filter _), others, eval_prod,
    ← Finset.prod_inv_distrib, ← Finset.prod_mul_distrib]
  refine Finset.prod_congr rfl fun other _ => ?_
  simp only [Lagrange.basisDivisor, eval_mul, eval_C, eval_sub, eval_X]
  ring

theorem sum_lagrangeWeight_pow (distinct : (ids.map point).Nodup) {power : Nat} (small : power < ids.length) (x : K) :
    (ids.map fun id => lagrangeWeight point ids x id * point id ^ power).sum = x ^ power := by
  have nodup : ids.Nodup := distinct.of_map
  have injective : Set.InjOn point ids.toFinset := by
    intro left leftMember right rightMember same
    simp only [List.coe_toFinset, Set.mem_ofPred_eq] at leftMember rightMember
    exact List.inj_on_of_nodup_map distinct leftMember rightMember same
  have degree : (X ^ power : K[X]).degree < ids.toFinset.card := by
    rw [degree_X_pow, List.toFinset_card_of_nodup nodup]
    exact_mod_cast small
  have value := congrArg (eval x) (Lagrange.eq_interpolate injective degree)
  rw [Lagrange.interpolate_apply, eval_finsetSum, List.sum_toFinset _ nodup, eval_pow, eval_X] at value
  rw [value]
  congr 1
  refine List.map_congr_left fun id _ => ?_
  rw [lagrangeWeight_eq_basis nodup, eval_mul, eval_C, eval_pow, eval_X, mul_comm]

omit [DecidableEq ι] in
/-- Weights that reproduce the powers reproduce every polynomial. The induction shifts the coefficients, so the
points come with a power of their own. -/
theorem sum_weights_evalAt {weight : ι → K} {bound : Nat} {x : K}
    (powers : ∀ power < bound, (ids.map fun id => weight id * point id ^ power).sum = x ^ power)
    (coefficients : List G) (shift : Nat) (fits : shift + coefficients.length ≤ bound) :
    (ids.map fun id => (weight id * point id ^ shift) • evalAt coefficients (point id)).sum =
      x ^ shift • evalAt coefficients x := by
  induction coefficients generalizing shift with
  | nil => simp
  | cons coefficient rest ih =>
    rw [List.length_cons] at fits
    have constant : (ids.map fun id => (weight id * point id ^ shift) • coefficient).sum = x ^ shift • coefficient := by
      rw [← powers shift (by omega), List.sum_smul, List.map_map]
      rfl
    have tail := ih (shift + 1) (by omega)
    have split : ∀ id, (weight id * point id ^ shift) • evalAt (coefficient :: rest) (point id) =
        (weight id * point id ^ shift) • coefficient +
          (weight id * point id ^ (shift + 1)) • evalAt rest (point id) := by
      intro id
      rw [evalAt_cons, smul_add, smul_smul, pow_succ, mul_assoc]
    simp only [split, List.sum_map_add]
    rw [constant, tail, evalAt_cons, smul_add, smul_smul, pow_succ]

theorem sum_lagrangeWeight_evalAt (distinct : (ids.map point).Nodup) {coefficients : List G}
    (enough : coefficients.length ≤ ids.length) (x : K) :
    (ids.map fun id => lagrangeWeight point ids x id • evalAt coefficients (point id)).sum =
      evalAt coefficients x := by
  have powers : ∀ power < ids.length,
      (ids.map fun id => lagrangeWeight point ids x id * point id ^ power).sum = x ^ power :=
    fun power small => sum_lagrangeWeight_pow distinct small x
  simpa using sum_weights_evalAt powers coefficients 0 (by omega)

end Interpolation

end RabbitLqc.Lib
