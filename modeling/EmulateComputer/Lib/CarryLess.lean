import Mathlib.Algebra.Polynomial.OfFn
import Mathlib.Algebra.Field.ZMod

/-!
# CarryLess — words as polynomials over GF(2)

Exclusive or adds the polynomials of two words, a shift multiplies by a power of `X`, and a word is
the sum of its lowest bit and what is left when that is cleared.
-/

namespace CarryLess

open Polynomial

variable {v w : Nat}

/-- A word as a polynomial over GF(2). -/
noncomputable def poly (x : BitVec w) : (ZMod 2)[X] :=
  ofFn w fun i => if x.getLsbD i then 1 else 0

theorem coeff_poly (x : BitVec w) (i : Nat) : (poly x).coeff i = if x.getLsbD i then 1 else 0 := by
  rcases Nat.lt_or_ge i w with hi | hi
  · exact ofFn_coeff_eq_val_of_lt _ hi
  · rw [BitVec.getLsbD_of_ge x i hi]
    exact ofFn_coeff_eq_zero_of_ge _ hi

theorem poly_zero : poly (0 : BitVec w) = 0 := by
  ext i
  simp [coeff_poly]

theorem poly_xor (x y : BitVec w) : poly (x ^^^ y) = poly x + poly y := by
  ext i
  rw [coeff_add, coeff_poly, coeff_poly, coeff_poly, BitVec.getLsbD_xor]
  cases x.getLsbD i <;> cases y.getLsbD i <;> decide

theorem poly_shiftLeft (x : BitVec v) {k : Nat} (h : v + k ≤ w) :
    poly (x.setWidth w <<< k) = X ^ k * poly x := by
  ext i
  rw [coeff_X_pow_mul', coeff_poly, coeff_poly, BitVec.getLsbD_shiftLeft, BitVec.getLsbD_setWidth]
  rcases Nat.lt_or_ge i k with hi | hi
  · simp [hi, Nat.not_le.mpr hi]
  · rcases Nat.lt_or_ge i w with hw | hw
    · simp [hi, hw, Nat.not_lt.mpr hi, Nat.lt_of_le_of_lt (Nat.sub_le i k) hw]
    · simp [Nat.not_lt.mpr hw, BitVec.getLsbD_of_ge x (i - k) (by omega)]

theorem poly_twoPow {k : Nat} (h : k < w) : poly (BitVec.twoPow w k) = X ^ k := by
  ext i
  rw [coeff_poly, coeff_X_pow, BitVec.getLsbD_twoPow]
  simp [h, eq_comm]

/-- `x & (x - 1)` has lost the lowest bit and no other. -/
theorem and_sub_one_xor {x : BitVec w} (h : x ≠ 0) :
    (x &&& (x - 1)) ^^^ BitVec.twoPow w x.ctz.toNat = x := by
  have hlow := BitVec.getLsbD_true_ctz_of_ne_zero h
  have hsub : x - 1 = ~~~(-x) := (BitVec.not_neg x).symm
  refine BitVec.eq_of_getLsbD_eq fun i hi => ?_
  rw [BitVec.getLsbD_xor, BitVec.getLsbD_and, hsub, BitVec.getLsbD_not, BitVec.getLsbD_neg,
    BitVec.getLsbD_twoPow]
  have hbelow : ∀ j < x.ctz.toNat, x.getLsbD j = false :=
    fun j => BitVec.getLsbD_false_of_lt_ctz
  generalize x.ctz.toNat = k at hlow hbelow
  rcases Nat.lt_trichotomy i k with hlt | rfl | hgt
  · simp [hbelow i hlt, hlt.ne']
  · have hnone : ¬ ∃ j < i, x.getLsbD j = true := by
      rintro ⟨j, hj, hbit⟩
      rw [hbelow j hj] at hbit
      cases hbit
    simp [hi, hlow, hnone]
  · have hsome : ∃ j < i, x.getLsbD j = true := ⟨_, hgt, hlow⟩
    cases hbit : x.getLsbD i <;> simp [hi, hsome, hgt.ne]

end CarryLess
