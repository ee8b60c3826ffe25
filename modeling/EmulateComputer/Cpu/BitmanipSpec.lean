import EmulateComputer.Cpu.Aes
import EmulateComputer.Lib.CarryLess
import Mathlib.Tactic.Ring

/-!
# BitmanipSpec — what the whole-word bit manipulations stand for

The carry-less product is the product of polynomials over GF(2); its loop takes one set bit of the
multiplier at a time.  `orc.b` and `brev8` treat the bytes of a word at once: no byte carries into
the next in the former, and each stage of the latter exchanges bits within a byte.
-/

namespace EmulateComputer.Bitmanip

open CarryLess

theorem poly_clmulLoop (a bits : U64) (out : BitVec 128) :
    poly (clmulLoop (a.setWidth 128) bits out) = poly out + poly a * poly bits := by
  fun_induction clmulLoop (a.setWidth 128) bits out with
  | case1 out => rw [poly_zero, mul_zero, add_zero]
  | case2 bits out hne ih =>
    have hlt : bits.ctz.toNat < 64 :=
      BitVec.lt_of_getLsbD (BitVec.getLsbD_true_ctz_of_ne_zero hne)
    have hbits : poly bits = poly (bits &&& (bits - 1)) + Polynomial.X ^ bits.ctz.toNat := by
      rw [← poly_twoPow hlt, ← poly_xor, and_sub_one_xor hne]
    rw [ih, hbits, poly_xor, poly_shiftLeft a (by omega)]
    ring

/-! ## Bytes -/

/-- Each bit of a word and the one `s` places away change places. -/
theorem getLsbD_swap {m : U64} {s : Nat} (h : ∀ i < 64,
      if m.getLsbD i then i + s = i ^^^ s ∧ ¬ (s ≤ i ∧ m.getLsbD (i - s) = true)
      else s ≤ i ∧ i - s = i ^^^ s ∧ m.getLsbD (i - s) = true) (x : U64) {i : Nat} (hi : i < 64) :
    (((x &&& m) <<< s) ||| ((x >>> s) &&& m)).getLsbD i = x.getLsbD (i ^^^ s) := by
  have hplace := h i hi
  simp only [BitVec.getLsbD_or, BitVec.getLsbD_and, BitVec.getLsbD_shiftLeft,
    BitVec.getLsbD_ushiftRight]
  cases hm : m.getLsbD i with
  | false =>
    rw [hm] at hplace
    obtain ⟨hle, hswap, hset⟩ := hplace
    simp [hi, hswap ▸ hset, hswap, Nat.not_lt.mpr hle]
  | true =>
    rw [hm] at hplace
    obtain ⟨hswap, hclear⟩ := hplace
    simpa [hi, Nat.add_comm s, hswap] using fun hle _ hset => absurd ⟨hle, hset⟩ hclear

section Bytes

variable {j : Nat} (hj : j < 8)

theorem getLsbD_getbyte (x : U64) (i : Nat) :
    (getbyte x j).getLsbD i = (decide (i < 8) && x.getLsbD (8 * j + i)) := by
  simp [getbyte]

theorem getbyte_and (x y : U64) : getbyte (x &&& y) j = getbyte x j &&& getbyte y j := by
  rw [getbyte, BitVec.ushiftRight_and_distrib, BitVec.setWidth_and]
  rfl

theorem getbyte_or (x y : U64) : getbyte (x ||| y) j = getbyte x j ||| getbyte y j := by
  rw [getbyte, BitVec.ushiftRight_or_distrib, BitVec.setWidth_or]
  rfl

theorem toNat_getbyte (x : U64) : (getbyte x j).toNat = x.toNat / 2 ^ (8 * j) % 256 := by
  simp [getbyte, Nat.shiftRight_eq_div_pow]

include hj

/-- A sum byte by byte, if no byte carries into the next. -/
theorem getbyte_add {x y : U64}
    (hcarry : x.toNat % 2 ^ (8 * j) + y.toNat % 2 ^ (8 * j) < 2 ^ (8 * j)) :
    getbyte (x + y) j = getbyte x j + getbyte y j := by
  refine BitVec.eq_of_toNat_eq ?_
  rw [BitVec.toNat_add, toNat_getbyte, toNat_getbyte, toNat_getbyte, BitVec.toNat_add]
  interval_cases j <;> omega

theorem getbyte_mul {x : U64} (hcarry : x.toNat % 2 ^ (8 * j) * 255 < 2 ^ (8 * j)) :
    getbyte (x * 0xff) j = getbyte x j * 0xff := by
  have hmod : ∀ n, n % 2 ^ 64 / 2 ^ (8 * j) % 256 = n / 2 ^ (8 * j) % 256 := by
    interval_cases j <;> omega
  have hdiv : x.toNat * 255 / 2 ^ (8 * j) = x.toNat / 2 ^ (8 * j) * 255 := by
    interval_cases j <;> omega
  refine BitVec.eq_of_toNat_eq ?_
  rw [BitVec.toNat_mul, toNat_getbyte, toNat_getbyte, BitVec.toNat_mul]
  change _ * 255 % _ / _ % _ = _ % 256 * 255 % 256
  rw [hmod, hdiv, Nat.mod_mul_mod]

/-- The low seven bits of each byte, which leave room for a carry, and its lowest one. -/
theorem lane_masks : (2 * ((0x7f7f7f7f7f7f7f7f : U64).toNat % 2 ^ (8 * j)) < 2 ^ (8 * j) ∧
      getbyte (0x7f7f7f7f7f7f7f7f : U64) j = 0x7f) ∧
    (0x0101010101010101 : U64).toNat % 2 ^ (8 * j) * 255 < 2 ^ (8 * j) ∧
      ∀ i < 8, (0x0101010101010101 : U64).getLsbD (8 * j + i) = decide (i = 0) := by
  decide +revert

theorem getbyte_orcB (a : U64) : getbyte (orcB a) j = if getbyte a j = 0 then 0 else 0xff := by
  obtain ⟨⟨hlow, hbyte⟩, hone, hbits⟩ := lane_masks hj
  have hmask : ∀ x m : U64, (x &&& m).toNat % 2 ^ (8 * j) ≤ m.toNat % 2 ^ (8 * j) := by
    intro x m
    rw [BitVec.toNat_and, Nat.and_mod_two_pow]
    exact Nat.and_le_right
  have hflag : ∀ x : U64, getbyte ((x >>> 7) &&& 0x0101010101010101) j = getbyte x j >>> 7 := by
    intro x
    refine BitVec.eq_of_getLsbD_eq fun i hi => ?_
    rw [getLsbD_getbyte, BitVec.getLsbD_and, hbits i hi, BitVec.getLsbD_ushiftRight,
      BitVec.getLsbD_ushiftRight, getLsbD_getbyte, Nat.add_left_comm]
    cases i with
    | zero => simp
    | succ i => simp [show ¬ 7 + (i + 1) < 8 by omega]
  have hsum := hmask a 0x7f7f7f7f7f7f7f7f
  calc getbyte (orcB a) j
      = ((((getbyte a j &&& 0x7f) + 0x7f) ||| getbyte a j) >>> 7) * 0xff := by
        rw [orcB, getbyte_mul hj ((Nat.mul_le_mul_right 255 (hmask _ _)).trans_lt hone), hflag,
          getbyte_or, getbyte_add hj (by omega), getbyte_and, hbyte]
    _ = if getbyte a j = 0 then 0 else 0xff := by
        generalize getbyte a j = b
        decide +revert

theorem getbyte_brev8 (a : U64) : getbyte (brev8 a) j = (getbyte a j).reverse := by
  have hindex : ∀ j < 8, ∀ k < 8, (8 * j + k) ^^^ 4 < 64 ∧ (8 * j + k) ^^^ 4 ^^^ 2 < 64 ∧
      (8 * j + k) ^^^ 4 ^^^ 2 ^^^ 1 = 8 * j + (7 - k) := by
    decide
  refine BitVec.eq_of_getLsbD_eq fun k hk => ?_
  obtain ⟨h4, h2, h1⟩ := hindex j hj k hk
  rw [getLsbD_getbyte, brev8, getLsbD_swap (by decide) _ (by omega), getLsbD_swap (by decide) _ h4,
    getLsbD_swap (by decide) _ h2, h1, BitVec.getLsbD_reverse, BitVec.getMsbD_eq_getLsbD,
    getLsbD_getbyte]
  simp [hk, show 7 - k < 8 by omega]

end Bytes

/-- The whole-word shortcuts compute what they stand for. -/
theorem shortcuts_eq (a b : U64) :
    poly (clmulFull a b) = poly a * poly b ∧
      clmul a b = (clmulFull a b).extractLsb' 0 64 ∧
      clmulh a b = (clmulFull a b).extractLsb' 64 64 ∧
      clmulr a b = (clmulFull a b).extractLsb' 63 64 ∧
      ∀ j < 8, getbyte (orcB a) j = (if getbyte a j = 0 then 0 else 0xff) ∧
        getbyte (brev8 a) j = (getbyte a j).reverse := by
  refine ⟨?_, ?_, rfl, rfl, fun j hj => ⟨getbyte_orcB hj a, getbyte_brev8 hj a⟩⟩
  · rw [clmulFull, poly_clmulLoop, poly_zero, zero_add]
  · exact BitVec.setWidth_eq_extractLsb' (by decide)

end EmulateComputer.Bitmanip
