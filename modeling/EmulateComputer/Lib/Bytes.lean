import Mathlib.Data.List.Basic
import Mathlib.Logic.Function.Basic

/-!
# Bytes — little-endian words and byte-addressed memory

* `ofLE` / `toLE` convert between a word of any width and its little-endian bytes, with both
  round trips.
* `slice` reads a run of bytes from a memory `Nat → BitVec 8`, `splice` overwrites one; the
  lemmas say which addresses a `splice` reaches and how the two compose.
* `padded` is the memory that starts with a list of bytes and is zero after it.
-/

namespace Bytes

/-! ## Little-endian words -/

/-- The word whose little-endian bytes are `bs`; bits beyond the width are dropped. -/
def ofLE (w : Nat) : List (BitVec 8) → BitVec w
  | [] => 0
  | b :: bs => b.setWidth w ||| (ofLE w bs <<< 8)

/-- The first `n` little-endian bytes of a word. -/
def toLE {w : Nat} : Nat → BitVec w → List (BitVec 8)
  | 0, _ => []
  | n + 1, v => v.setWidth 8 :: toLE n (v >>> 8)

variable {w start n i : Nat} {m m' : Nat → BitVec 8} {bs : List (BitVec 8)}

@[simp] theorem length_toLE (n : Nat) (v : BitVec w) : (toLE n v).length = n := by
  induction n generalizing v with
  | zero => rfl
  | succ n ih => simp [toLE, ih]

/-- Bit `i` of a decoded word is bit `i % 8` of byte `i / 8`. -/
theorem getLsbD_ofLE (bs : List (BitVec 8)) (i : Nat) (hi : i < w) :
    (ofLE w bs).getLsbD i = (bs[i / 8]?.getD 0).getLsbD (i % 8) := by
  induction bs generalizing i with
  | nil => simp [ofLE]
  | cons b bs ih =>
    by_cases h8 : i < 8
    · have hdiv : i / 8 = 0 := by omega
      have hmod : i % 8 = i := by omega
      simp [ofLE, hi, h8, hdiv, hmod]
    · obtain ⟨j, rfl⟩ : ∃ j, i = j + 8 := ⟨i - 8, by omega⟩
      have hdiv : (j + 8) / 8 = j / 8 + 1 := by omega
      have hmod : (j + 8) % 8 = j % 8 := by omega
      have hb : b.getLsbD (j + 8) = false := BitVec.getLsbD_of_ge b _ (by omega)
      rw [ofLE, BitVec.getLsbD_or, BitVec.getLsbD_setWidth, BitVec.getLsbD_shiftLeft, hb, hdiv,
        hmod, Nat.add_sub_cancel, ih j (by omega)]
      simp [hi]

/-- Bit `j` of byte `i` of an encoded word is bit `8 * i + j` of the word. -/
theorem getElem?_toLE (n : Nat) (v : BitVec w) (i : Nat) (hi : i < n) :
    (toLE n v)[i]? = some ((v >>> (8 * i)).setWidth 8) := by
  induction n generalizing v i with
  | zero => omega
  | succ n ih =>
    cases i with
    | zero => simp [toLE]
    | succ i =>
      have hsh : v >>> 8 >>> (8 * i) = v >>> (8 * (i + 1)) := by
        rw [← BitVec.shiftRight_add, show 8 + 8 * i = 8 * (i + 1) by omega]
      simp [toLE, ih (v >>> 8) i (by omega), hsh]

theorem ofLE_toLE (n : Nat) (v : BitVec w) (h : w ≤ 8 * n) : ofLE w (toLE n v) = v := by
  apply BitVec.eq_of_getLsbD_eq
  intro i hi
  have hmod : i % 8 < 8 := Nat.mod_lt _ (by omega)
  rw [getLsbD_ofLE _ _ hi, getElem?_toLE n v _ (by omega)]
  simp [hmod, show 8 * (i / 8) + i % 8 = i by omega]

/-- Decoding to a word and narrowing it is decoding to the narrow word. -/
theorem setWidth_ofLE {w' : Nat} (bs : List (BitVec 8)) (h : w ≤ w') :
    (ofLE w' bs).setWidth w = ofLE w bs := by
  apply BitVec.eq_of_getLsbD_eq
  intro i hi
  rw [BitVec.getLsbD_setWidth, getLsbD_ofLE bs i hi, getLsbD_ofLE bs i (by omega)]
  simp [hi]

/-- The bytes of a word do not depend on the width it is widened to. -/
theorem toLE_setWidth {w' : Nat} (n : Nat) (v : BitVec w) (h : w ≤ w') :
    toLE n (v.setWidth w') = toLE n v := by
  induction n generalizing v with
  | zero => rfl
  | succ n ih =>
    rw [toLE, toLE, ← BitVec.setWidth_ushiftRight h, ih, BitVec.setWidth_setWidth (by omega)]

/-! ## Big-endian bytes -/

/-- The word whose big-endian bytes are `bs`. -/
def ofBE (w : Nat) (bs : List (BitVec 8)) : BitVec w :=
  ofLE w bs.reverse

/-- The low `n` bytes of a word, most significant first. -/
def toBE {w : Nat} (n : Nat) (v : BitVec w) : List (BitVec 8) :=
  (toLE n v).reverse

@[simp]
theorem length_toBE (n : Nat) (v : BitVec w) : (toBE n v).length = n := by
  rw [toBE, List.length_reverse, length_toLE]

theorem ofBE_toBE (n : Nat) (v : BitVec w) (h : w ≤ 8 * n) : ofBE w (toBE n v) = v := by
  rw [ofBE, toBE, List.reverse_reverse, ofLE_toLE n v h]

/-! ## Byte memory -/

/-- The `n` bytes of memory `m` from `start` on. -/
def slice (m : Nat → BitVec 8) (start : Nat) : Nat → List (BitVec 8)
  | 0 => []
  | n + 1 => m start :: slice m (start + 1) n

/-- Memory `m` with the bytes `bs` copied over it from `start` on. -/
def splice (m : Nat → BitVec 8) (start : Nat) (bs : List (BitVec 8)) : Nat → BitVec 8 := fun i =>
  if start ≤ i then bs[i - start]?.getD (m i) else m i

@[simp] theorem length_slice (m : Nat → BitVec 8) (start n : Nat) :
    (slice m start n).length = n := by
  induction n generalizing start with
  | zero => rfl
  | succ n ih => simp [slice, ih]

theorem getElem?_slice (m : Nat → BitVec 8) (start n i : Nat) (hi : i < n) :
    (slice m start n)[i]? = some (m (start + i)) := by
  induction n generalizing start i with
  | zero => omega
  | succ n ih =>
    cases i with
    | zero => simp [slice]
    | succ i =>
      have := ih (start + 1) i (by omega)
      simpa [slice, show start + 1 + i = start + (i + 1) by omega] using this

theorem drop_slice (m : Nat → BitVec 8) (start n k : Nat) :
    (slice m start n).drop k = slice m (start + k) (n - k) := by
  induction k generalizing start n with
  | zero => rfl
  | succ k ih =>
    cases n with
    | zero => simp [slice]
    | succ n =>
      rw [slice, List.drop_succ_cons, ih, Nat.succ_sub_succ, Nat.add_assoc, Nat.add_comm 1 k]

theorem take_slice (m : Nat → BitVec 8) (start n k : Nat) :
    (slice m start n).take k = slice m start (min k n) := by
  induction n generalizing start k with
  | zero => simp [slice]
  | succ n ih =>
    cases k with
    | zero => simp [slice]
    | succ k => rw [slice, List.take_succ_cons, ih, Nat.succ_min_succ, slice]

/-- Two runs of bytes are equal when they are byte by byte. -/
theorem slice_ext {start' : Nat}
    (h : ∀ i, i < n → m (start + i) = m' (start' + i)) : slice m start n = slice m' start' n := by
  apply List.ext_getElem?
  intro i
  by_cases hi : i < n
  · rw [getElem?_slice _ _ _ _ hi, getElem?_slice _ _ _ _ hi, h i hi]
  · rw [List.getElem?_eq_none (by rw [length_slice]; omega),
      List.getElem?_eq_none (by rw [length_slice]; omega)]

theorem slice_congr (h : ∀ i, start ≤ i → i < start + n → m i = m' i) :
    slice m start n = slice m' start n :=
  slice_ext fun i hi => h (start + i) (by omega) (by omega)

theorem slice_add (m : Nat → BitVec 8) (start n k : Nat) :
    slice m start (n + k) = slice m start n ++ slice m (start + n) k := by
  induction n generalizing start with
  | zero => rw [Nat.zero_add]; rfl
  | succ n ih =>
    rw [Nat.succ_add, slice, ih, slice, List.cons_append, Nat.add_right_comm start 1 n,
      Nat.add_assoc start n 1]

theorem splice_of_lt (h : i < start) : splice m start bs i = m i := by
  simp [splice, show ¬ start ≤ i by omega]

theorem splice_of_ge (h : start + bs.length ≤ i) : splice m start bs i = m i := by
  have hnone : bs[i - start]? = none := List.getElem?_eq_none (by omega)
  simp [splice, hnone]

theorem splice_add (h : i < bs.length) : splice m start bs (start + i) = bs[i] := by
  simp [splice, h]

@[simp] theorem splice_nil (m : Nat → BitVec 8) (start : Nat) : splice m start [] = m := by
  funext i
  simp [splice]

/-- Only the overwritten range changes. -/
theorem splice_ne (h : splice m start bs i ≠ m i) : start ≤ i ∧ i < start + bs.length := by
  by_contra hout
  rcases Nat.lt_or_ge i start with hlt | hge
  · exact h (splice_of_lt hlt)
  · exact h (splice_of_ge (by omega))

theorem slice_splice_self (m : Nat → BitVec 8) (start : Nat) (bs : List (BitVec 8)) :
    slice (splice m start bs) start bs.length = bs := by
  apply List.ext_getElem?
  intro i
  by_cases hi : i < bs.length
  · rw [getElem?_slice _ _ _ _ hi, splice_add hi, List.getElem?_eq_getElem hi]
  · rw [List.getElem?_eq_none (by simpa using hi), List.getElem?_eq_none (by simpa using hi)]

theorem slice_splice_of_disjoint {start' : Nat}
    (h : start + n ≤ start' ∨ start' + bs.length ≤ start) :
    slice (splice m start' bs) start n = slice m start n := by
  apply slice_congr
  intro i hlo hhi
  rcases h with h | h
  · exact splice_of_lt (by omega)
  · exact splice_of_ge (by omega)

theorem splice_append (m : Nat → BitVec 8) (start : Nat) (bs bs' : List (BitVec 8)) :
    splice m start (bs ++ bs') = splice (splice m start bs) (start + bs.length) bs' := by
  funext i
  rcases Nat.lt_or_ge i start with hlt | hge
  · rw [splice_of_lt hlt, splice_of_lt (by omega), splice_of_lt hlt]
  · rcases Nat.lt_or_ge i (start + bs.length) with hin | hout
    · rw [splice_of_lt hin]
      simp only [splice, if_pos hge,
        List.getElem?_append_left (show i - start < bs.length by omega)]
    · have hrest : (bs ++ bs')[i - start]? = bs'[i - (start + bs.length)]? := by
        rw [List.getElem?_append_right (by omega), Nat.sub_sub]
      simp only [splice, if_pos hge, if_pos hout, hrest,
        List.getElem?_eq_none (show bs.length ≤ i - start by omega), Option.getD_none]

/-! ## A list as the start of a zeroed memory -/

/-- The memory that holds `bs` from address 0 on and zeros after it. -/
def padded (bs : List (BitVec 8)) : Nat → BitVec 8 := fun i =>
  bs[i]?.getD 0

theorem splice_padded (bs bs' : List (BitVec 8)) :
    splice (padded bs) bs.length bs' = padded (bs ++ bs') := by
  funext i
  rcases Nat.lt_or_ge i bs.length with hlt | hge
  · rw [splice_of_lt hlt, padded, padded, List.getElem?_append_left hlt]
  · simp only [splice, padded, if_pos hge, List.getElem?_append_right hge,
      List.getElem?_eq_none hge, Option.getD_none]

/-- Zeros at the end make no difference. -/
theorem padded_append_zeros (bs : List (BitVec 8)) {zeros : List (BitVec 8)}
    (h : ∀ b ∈ zeros, b = 0) : padded (bs ++ zeros) = padded bs := by
  funext i
  rcases Nat.lt_or_ge i bs.length with hlt | hge
  · rw [padded, padded, List.getElem?_append_left hlt]
  · rw [padded, padded, List.getElem?_append_right hge, List.getElem?_eq_none hge]
    cases hz : zeros[i - bs.length]? with
    | none => rfl
    | some b => exact h b (List.mem_of_getElem? hz)

theorem slice_padded (h : start + n ≤ bs.length) :
    slice (padded bs) start n = (bs.drop start).take n := by
  apply List.ext_getElem?
  intro i
  by_cases hi : i < n
  · rw [getElem?_slice _ _ _ _ hi, List.getElem?_take_of_lt hi, List.getElem?_drop, padded,
      List.getElem?_eq_getElem (show start + i < bs.length by omega), Option.getD_some]
  · rw [List.getElem?_eq_none (by rw [length_slice]; omega),
      List.getElem?_eq_none (by rw [List.length_take]; omega)]

end Bytes
