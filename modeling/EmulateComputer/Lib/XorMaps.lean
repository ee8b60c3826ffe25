import Mathlib.Logic.Basic

/-!
# XorMaps — maps between words that respect exclusive or

Such a map is known by its values on the words with a single bit, so two of them are compared on
these words only.
-/

def XorMap {v w : Nat} (f : BitVec v → BitVec w) : Prop :=
  ∀ x y, f (x ^^^ y) = f x ^^^ f y

namespace XorMap

variable {v w : Nat} {f g : BitVec v → BitVec w}

theorem map_zero (hf : XorMap f) : f 0 = 0 := by
  have h := hf 0 0
  rwa [BitVec.xor_self, BitVec.xor_self] at h

theorem xor_and (x y m : BitVec w) : (x ^^^ y) &&& m = (x &&& m) ^^^ (y &&& m) :=
  BitVec.eq_of_getLsbD_eq fun i _ => by simp [Bool.and_xor_distrib_right]

/-- Two such maps are the same if they are on the words with one bit. -/
theorem eq_of_bits (hf : XorMap f) (hg : XorMap g)
    (h : ∀ i < v, f (BitVec.twoPow v i) = g (BitVec.twoPow v i)) (x : BitVec v) : f x = g x := by
  -- The induction is on a bound for the bits of the word; the highest is taken off.
  have hbound : ∀ n ≤ v, ∀ x : BitVec v, (∀ i, n ≤ i → x.getLsbD i = false) → f x = g x := by
    intro n
    induction n with
    | zero =>
      intro _ x hx
      have hzero : x = 0 := BitVec.eq_of_getLsbD_eq fun i _ => by simp [hx i]
      rw [hzero, hf.map_zero, hg.map_zero]
    | succ n ih =>
      intro hn x hx
      cases hbit : x.getLsbD n with
      | false =>
        refine ih (Nat.le_of_succ_le hn) x fun i hi => ?_
        rcases Nat.eq_or_lt_of_le hi with rfl | hlt
        · exact hbit
        · exact hx i hlt
      | true =>
        have hrest := ih (Nat.le_of_succ_le hn) (x ^^^ BitVec.twoPow v n) fun i hi => by
          rcases Nat.eq_or_lt_of_le hi with rfl | hlt
          · simp [hbit, Nat.lt_of_succ_le hn]
          · simp [hx i hlt, Nat.ne_of_lt hlt]
        have hsplit : x = (x ^^^ BitVec.twoPow v n) ^^^ BitVec.twoPow v n := by
          rw [BitVec.xor_assoc, BitVec.xor_self, BitVec.xor_zero]
        rw [hsplit, hf, hg, hrest, h n hn]
  exact hbound v (Nat.le_refl v) x fun i hi => BitVec.getLsbD_of_ge x i hi

end XorMap
