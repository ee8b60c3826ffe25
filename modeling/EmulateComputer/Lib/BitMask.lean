import Mathlib.Logic.Basic

/-!
# BitMask — masks and masked updates of words

A register write under a mask takes the new bits inside the mask and keeps the old ones outside.
The lemmas here read such words bit by bit.
-/

namespace BitMask

variable {w : Nat}

/-- The new bits inside the mask, the old ones outside. -/
def merge (mask old new : BitVec w) : BitVec w :=
  (old &&& ~~~mask) ||| (new &&& mask)

theorem getLsbD_merge (mask old new : BitVec w) (i : Nat) :
    (merge mask old new).getLsbD i = if mask.getLsbD i then new.getLsbD i else old.getLsbD i := by
  by_cases hi : i < w
  · cases h : mask.getLsbD i <;>
      simp only [merge, BitVec.getLsbD_or, BitVec.getLsbD_and, BitVec.getLsbD_not, h, hi] <;> simp
  · have hw : w ≤ i := Nat.le_of_not_lt hi
    simp [BitVec.getLsbD_of_ge _ _ hw]

theorem eq_zero_iff (x : BitVec w) : x = 0 ↔ ∀ i, x.getLsbD i = false := by
  constructor
  · rintro rfl i
    simp
  · intro h
    apply BitVec.eq_of_getLsbD_eq
    intro i _
    simpa using h i

/-! ## Reading a field of an updated word

`k` are the bits an update keeps and `c` those it sets; the side conditions are closed terms when
the masks are. -/

variable {x c k m : BitVec w}

/-- A field inside the kept bits reads as before. -/
theorem and_keep (hk : k &&& m = m) (hc : c &&& m = 0) : (x &&& k ||| c) &&& m = x &&& m := by
  calc
    (x &&& k ||| c) &&& m = (x &&& (k &&& m)) ||| (c &&& m) := by
      rw [BitVec.and_or_distrib_right, BitVec.and_assoc]
    _ = x &&& m := by simp [hk, hc]

/-- A field outside the kept bits reads as set. -/
theorem and_set (hk : k &&& m = 0) : (x &&& k ||| c) &&& m = c &&& m := by
  calc
    (x &&& k ||| c) &&& m = (x &&& (k &&& m)) ||| (c &&& m) := by
      rw [BitVec.and_or_distrib_right, BitVec.and_assoc]
    _ = c &&& m := by simp [hk]

/-! ## One-bit fields -/

theorem one_shiftLeft (i : Nat) : (1 : BitVec w) <<< i = BitVec.twoPow w i := by
  rfl

variable {i : Nat} {y : BitVec w}

/-- A one-bit field is zero when its bit is clear. -/
theorem and_bit_eq_zero_iff (x : BitVec w) (hi : i < w) :
    x &&& ((1 : BitVec w) <<< i) = 0 ↔ x.getLsbD i = false := by
  rw [one_shiftLeft, BitVec.and_twoPow]
  cases hx : x.getLsbD i with
  | false => simp
  | true =>
    have hne : BitVec.twoPow w i ≠ 0 := by
      intro hzero
      have hbit := (eq_zero_iff _).mp hzero i
      simp [hi] at hbit
    simpa using hne

theorem getLsbD_or_bit (x : BitVec w) (hi : i < w) (j : Nat) :
    (x ||| ((1 : BitVec w) <<< i)).getLsbD j = if j = i then true else x.getLsbD j := by
  rw [one_shiftLeft, BitVec.getLsbD_or, BitVec.getLsbD_twoPow]
  by_cases hj : j = i
  · subst hj
    simp [hi]
  · simp [hj, Ne.symm hj]

theorem getLsbD_and_not_bit (x : BitVec w) (hi : i < w) (j : Nat) :
    (x &&& ~~~((1 : BitVec w) <<< i)).getLsbD j = if j = i then false else x.getLsbD j := by
  rw [one_shiftLeft, BitVec.getLsbD_and, BitVec.getLsbD_not, BitVec.getLsbD_twoPow]
  by_cases hj : j = i
  · subst hj
    simp [hi]
  · by_cases hlt : j < w
    · simp [hj, Ne.symm hj, hlt]
    · simp [hj, BitVec.getLsbD_of_ge x j (Nat.le_of_not_lt hlt)]

/-- Setting a bit that is set changes nothing. -/
theorem or_bit_eq_self (hi : i < w) (h : x &&& ((1 : BitVec w) <<< i) ≠ 0) :
    x ||| ((1 : BitVec w) <<< i) = x := by
  have hbit : x.getLsbD i = true := by
    rw [Ne, and_bit_eq_zero_iff x hi] at h
    simpa using h
  apply BitVec.eq_of_getLsbD_eq
  intro j _
  rw [getLsbD_or_bit x hi]
  by_cases hj : j = i
  · rw [if_pos hj, hj, hbit]
  · rw [if_neg hj]

/-- Bits set outside a field do not show in it. -/
theorem or_and_of_disjoint (hc : c &&& m = 0) : (x ||| c) &&& m = x &&& m := by
  rw [BitVec.and_or_distrib_right, hc]
  simp

/-- A word masked into a field has nothing outside it. -/
theorem and_and_not (x m : BitVec w) : x &&& m &&& ~~~m = 0 := by
  rw [BitVec.and_assoc]
  simp

/-- Bits disjoint from a mask are kept by its complement. -/
theorem not_and_of_disjoint (h : k &&& m = 0) : ~~~k &&& m = m := by
  have hbits := (eq_zero_iff _).mp h
  apply BitVec.eq_of_getLsbD_eq
  intro i hi
  have hki := hbits i
  simp only [BitVec.getLsbD_and, BitVec.getLsbD_not, hi] at hki ⊢
  cases hb : m.getLsbD i <;> simp_all

/-- Words that agree outside a mask. -/
theorem and_not_congr (h : ∀ i, i < w → m.getLsbD i = false → x.getLsbD i = y.getLsbD i) :
    x &&& ~~~m = y &&& ~~~m := by
  apply BitVec.eq_of_getLsbD_eq
  intro i hi
  simp only [BitVec.getLsbD_and, BitVec.getLsbD_not, hi]
  cases hm : m.getLsbD i with
  | false => rw [h i hi hm]
  | true => simp

/-- Words with the same field agree at its bits. -/
theorem getLsbD_eq_of_and_eq (h : x &&& m = y &&& m)
    (hi : m.getLsbD i = true) : x.getLsbD i = y.getLsbD i := by
  have hbit := congrArg (fun z : BitVec w => z.getLsbD i) h
  simpa [hi] using hbit

/-- A masked update keeps what lies outside the mask. -/
theorem merge_and_not (mask old new : BitVec w) :
    merge mask old new &&& ~~~mask = old &&& ~~~mask := by
  refine and_not_congr fun i _ hi => ?_
  rw [getLsbD_merge, hi]
  simp

/-- The mask of the low `n` bits. -/
theorem getLsbD_low (n i : Nat) :
    (((1 : BitVec w) <<< n) - 1).getLsbD i = (decide (i < n) && decide (i < w)) := by
  rw [one_shiftLeft, show BitVec.twoPow w n - 1 = ~~~(-BitVec.twoPow w n) from
    (BitVec.not_neg _).symm, BitVec.getLsbD_not, BitVec.getLsbD_neg]
  by_cases hi : i < w
  · rcases Nat.lt_trichotomy i n with hn | rfl | hn
    · simp [hi, hn, Nat.not_lt_of_gt hn, Nat.ne_of_lt hn]
    · simp [hi]
    · simp [hi, hn, Nat.not_lt_of_gt hn, Nat.ne_of_gt hn, Nat.lt_trans hn hi]
  · simp [hi]

end BitMask
