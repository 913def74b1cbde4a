import Mathlib.Algebra.CharP.Two
import Mathlib.Algebra.Field.ZMod
import Mathlib.Algebra.Polynomial.Div

/-!
# Bit vectors as polynomials over the field of two elements

Bit `i` is the coefficient of `X ^ i`. Exclusive or is addition, and the shift by one bit with the
conditional exclusive or of a constant is multiplication by `X` modulo a polynomial of degree `w`.
-/

namespace LeafReader

open Polynomial

variable {w : Nat}

noncomputable def polyOf (b : BitVec w) : (ZMod 2)[X] :=
  ∑ i ∈ Finset.range w, if b.getLsbD i then X ^ i else 0

theorem coeff_polyOf (b : BitVec w) (n : Nat) :
    (polyOf b).coeff n = if b.getLsbD n then 1 else 0 := by
  have hterm (i : Nat) : (if b.getLsbD i then (X : (ZMod 2)[X]) ^ i else 0).coeff n =
      if n = i then (if b.getLsbD n then 1 else 0) else 0 := by
    by_cases hi : n = i
    · subst hi
      cases b.getLsbD n <;> simp
    · cases b.getLsbD i <;> simp [coeff_X_pow, hi]
  rw [polyOf, finsetSum_coeff]
  simp only [hterm, Finset.sum_ite_eq, Finset.mem_range]
  split
  · rfl
  · rename_i hn
    rw [BitVec.getLsbD_of_ge b n (by omega)]
    rfl

theorem polyOf_injective : Function.Injective (polyOf (w := w)) := by
  intro a b h
  refine BitVec.eq_of_getLsbD_eq fun i _ => ?_
  have hi := congrArg (coeff · i) h
  simp only [coeff_polyOf] at hi
  cases ha : a.getLsbD i <;> cases hb : b.getLsbD i <;> simp_all

theorem degree_polyOf_lt (b : BitVec w) : (polyOf b).degree < w := by
  refine (degree_lt_iff_coeff_zero _ w).2 fun n hn => ?_
  rw [coeff_polyOf, BitVec.getLsbD_of_ge b n hn]
  rfl

theorem polyOf_xor (a b : BitVec w) : polyOf (a ^^^ b) = polyOf a + polyOf b := by
  ext n
  rw [coeff_add, coeff_polyOf, coeff_polyOf, coeff_polyOf, BitVec.getLsbD_xor]
  cases a.getLsbD n <;> cases b.getLsbD n <;> simp [CharTwo.add_self_eq_zero]

/-- The shift loses the leading bit. -/
theorem X_mul_polyOf (h : 0 < w) (b : BitVec w) :
    X * polyOf b = polyOf (b <<< 1) + if b.msb then X ^ w else 0 := by
  have hmsb : b.msb = b.getLsbD (w - 1) := BitVec.msb_eq_getLsbD_last b
  have hlead (n : Nat) : (if b.msb then (X : (ZMod 2)[X]) ^ w else 0).coeff n =
      if n = w ∧ b.msb = true then 1 else 0 := by
    cases b.msb <;> simp [coeff_X_pow]
  ext n
  rw [coeff_add, coeff_polyOf, hlead, BitVec.getLsbD_shiftLeft]
  cases n with
  | zero => simp [show 0 ≠ w by omega]
  | succ n =>
    rw [coeff_X_mul, coeff_polyOf]
    rcases Nat.lt_trichotomy (n + 1) w with hn | hn | hn
    · simp [hn, Nat.ne_of_lt hn]
    · subst hn
      simp [hmsb]
    · simp [Nat.not_lt_of_gt hn, Nat.ne_of_gt hn, BitVec.getLsbD_of_ge b n (by omega)]

theorem monic_X_pow_add_polyOf (r : BitVec w) : (X ^ w + polyOf r).Monic :=
  monic_X_pow_add (degree_polyOf_lt r)

theorem degree_X_pow_add_polyOf (r : BitVec w) :
    (X ^ w + polyOf r).degree = (w : WithBot Nat) := by
  rw [degree_add_eq_left_of_degree_lt (by rw [degree_X_pow]; exact degree_polyOf_lt r), degree_X_pow]

/-- Multiplication by `X` modulo `X ^ w + r`, on bit vectors. -/
theorem X_mul_polyOf_mod (h : 0 < w) (r b : BitVec w) :
    (X * polyOf b) %ₘ (X ^ w + polyOf r) = polyOf (if b.msb then b <<< 1 ^^^ r else b <<< 1) := by
  have hrem : X * polyOf b = polyOf (if b.msb then b <<< 1 ^^^ r else b <<< 1) +
      (X ^ w + polyOf r) * (if b.msb then 1 else 0) := by
    rw [X_mul_polyOf h]
    cases b.msb with
    | false => simp
    | true =>
      simp only [↓reduceIte, mul_one, polyOf_xor]
      rw [add_comm (X ^ w), ← add_assoc, add_assoc (polyOf (b <<< 1)), CharTwo.add_self_eq_zero,
        add_zero]
  refine (div_modByMonic_unique (if b.msb then 1 else 0) _ (monic_X_pow_add_polyOf r) ⟨hrem.symm, ?_⟩).2
  rw [degree_X_pow_add_polyOf]
  exact degree_polyOf_lt _

end LeafReader
