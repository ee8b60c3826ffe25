import Mathlib.Data.BitVec

/-!
# BitFields — placing fields in words and taking them out again

An instruction word is a union of fields at disjoint places.  `place w lo x` is the word of width
`w` whose only field is `x`, from bit `lo` on; `BitVec.extractLsb'` takes a field out.  The lemmas
say what an extraction finds in a union of placed fields, and how a word is put together from its
fields.
-/

namespace BitFields

variable {w w' k n : Nat}

/-- The word with the field `x` from bit `lo` on. -/
def place (w lo : Nat) (x : BitVec k) : BitVec w :=
  x.setWidth w <<< lo

theorem getLsbD_place (lo : Nat) (x : BitVec k) (i : Nat) :
    (place w lo x).getLsbD i = (decide (i < w) && (decide (lo ≤ i) && x.getLsbD (i - lo))) := by
  rw [place, BitVec.getLsbD_shiftLeft, BitVec.getLsbD_setWidth]
  by_cases hw : i < w
  · by_cases hlo : lo ≤ i
    · have hlt : i - lo < w := by omega
      simp [hw, hlo, hlt]
    · simp [hlo, Nat.lt_of_not_le hlo]
  · simp [hw]

/-! ## Extraction -/

variable {lo start len : Nat} (x : BitVec k)

/-- A field is found where it was placed. -/
theorem extract_place (hlo : lo ≤ start) (_ : start + len ≤ lo + k) (hw : start + len ≤ w) :
    (place w lo x).extractLsb' start len = x.extractLsb' (start - lo) len := by
  apply BitVec.eq_of_getLsbD_eq
  intro i hi
  rw [BitVec.getLsbD_extractLsb', BitVec.getLsbD_extractLsb', getLsbD_place,
    show start + i - lo = start - lo + i by omega]
  simp [hi, show start + i < w by omega, show lo ≤ start + i by omega]

@[simp] theorem extract_place_self (hw : lo + k ≤ w) : (place w lo x).extractLsb' lo k = x := by
  rw [extract_place x le_rfl le_rfl hw, Nat.sub_self]
  exact BitVec.extractLsb'_eq_self

/-- Nothing of a field is found elsewhere. -/
@[simp] theorem extract_place_of_disjoint (h : start + len ≤ lo ∨ lo + k ≤ start) :
    (place w lo x).extractLsb' start len = BitVec.ofNat len 0 := by
  apply BitVec.eq_of_getLsbD_eq
  intro i hi
  rw [BitVec.getLsbD_extractLsb', getLsbD_place, BitVec.getLsbD_zero]
  rcases h with hlow | hhigh
  · simp [show ¬ lo ≤ start + i by omega]
  · rw [BitVec.getLsbD_of_ge x _ (by omega)]
    simp

/-- The upper of two fields side by side. -/
theorem extract_upper {l : Nat} (y : BitVec l) (hw : lo + k ≤ w) (hl : l ≤ lo) :
    (place w lo x ||| place w 0 y).extractLsb' lo k = x := by
  rw [BitVec.extractLsb'_or, extract_place_self x hw,
    extract_place_of_disjoint y (Or.inr (by omega))]
  exact BitVec.or_zero

/-- The lower of two fields side by side. -/
theorem extract_lower {l : Nat} (y : BitVec l) (hw : l ≤ w) (hl : l ≤ lo) :
    (place w lo x ||| place w 0 y).extractLsb' 0 l = y := by
  rw [BitVec.extractLsb'_or, extract_place_self y (by omega),
    extract_place_of_disjoint x (Or.inl (by omega))]
  exact BitVec.zero_or

theorem extract_extract {start' len' : Nat} (x : BitVec w) (h : start' + len' ≤ len) :
    (x.extractLsb' start len).extractLsb' start' len' = x.extractLsb' (start + start') len' := by
  apply BitVec.eq_of_getLsbD_eq
  intro i hi
  rw [BitVec.getLsbD_extractLsb', BitVec.getLsbD_extractLsb', BitVec.getLsbD_extractLsb',
    show start + (start' + i) = start + start' + i by omega]
  simp [hi, show start' + i < len by omega]

/-! ## Assembly -/

/-- Neighbouring fields of a word, placed as neighbours, are one field. -/
theorem place_or_place {lo' start' a b : Nat} (x : BitVec n) (hlo : lo' = lo + a)
    (hstart : start' = start + a) :
    place w lo' (x.extractLsb' start' b) ||| place w lo (x.extractLsb' start a) =
      place w lo (x.extractLsb' start (a + b)) := by
  subst hlo hstart
  apply BitVec.eq_of_getLsbD_eq
  intro i hi
  rw [BitVec.getLsbD_or, getLsbD_place, getLsbD_place, getLsbD_place, BitVec.getLsbD_extractLsb',
    BitVec.getLsbD_extractLsb', BitVec.getLsbD_extractLsb']
  by_cases hhigh : lo + a ≤ i
  · rw [show start + a + (i - (lo + a)) = start + (i - lo) by omega]
    simp [hi, hhigh, show ¬ i - lo < a by omega, show lo ≤ i by omega,
      show (i - (lo + a) < b) = (i - lo < a + b) from propext (by omega)]
  · by_cases hlow : lo ≤ i
    · simp [hi, hhigh, hlow, show i - lo < a by omega, show i - lo < a + b by omega]
    · simp [hi, hhigh, hlow]

@[simp] theorem place_self (x : BitVec w) : place w 0 x = x := by
  rw [place, BitVec.setWidth_eq]
  exact BitVec.shiftLeft_zero x

theorem place_extract_all (x : BitVec w) : place w 0 (x.extractLsb' 0 w) = x := by
  rw [BitVec.extractLsb'_eq_self, place_self]

@[simp] theorem place_zero (lo : Nat) : place w lo (0#k) = 0#w := by
  apply BitVec.eq_of_getLsbD_eq
  intro i _
  rw [getLsbD_place, BitVec.getLsbD_zero, BitVec.getLsbD_zero]
  simp

theorem place_shiftLeft {m : Nat} : place w lo x <<< m = place w (lo + m) x :=
  (BitVec.shiftLeft_add _ _ _).symm

/-- Widening a word moves no field, and narrowing it keeps the fields below. -/
theorem setWidth_place (h : lo + k ≤ w ∨ w' ≤ w) : (place w lo x).setWidth w' = place w' lo x := by
  apply BitVec.eq_of_getLsbD_eq
  intro i hi
  rw [BitVec.getLsbD_setWidth, getLsbD_place, getLsbD_place]
  by_cases hin : i < w
  · simp [hi, hin]
  · rw [BitVec.getLsbD_of_ge x _ (by omega)]
    simp

theorem place_inj {x y : BitVec k} (h : k ≤ w) : place w 0 x = place w 0 y ↔ x = y := by
  refine ⟨fun heq => ?_, congrArg _⟩
  have hfield := congrArg (BitVec.extractLsb' 0 k) heq
  rwa [extract_place_self x (by omega), extract_place_self y (by omega)] at hfield

theorem toNat_place (h : k ≤ w) : (place w 0 x).toNat = x.toNat := by
  rw [place, BitVec.shiftLeft_zero, BitVec.toNat_setWidth,
    Nat.mod_eq_of_lt (x.isLt.trans_le (Nat.pow_le_pow_right Nat.two_pos h))]

/-! ## Scattered fields

The bits of a value may lie in a word in any order.  Manuals list them from the top of a column of
the word downwards, as in `offset[11|4|9:8]`. -/

/-- The `len` bits from `start` on in the word are the bits from `lo` on of the value. -/
structure Field where
  start : Nat
  len : Nat
  lo : Nat

/-- A column of the word, from bit `top` downwards, holding the listed ranges of the value. -/
def column (top : Nat) : List (Nat × Nat) → List Field
  | [] => []
  | (hi, lo) :: rest =>
    { start := top - (hi - lo), len := hi - lo + 1, lo := lo } :: column (top - (hi - lo) - 1) rest

/-- The value whose bits lie in the fields. -/
def gather (n : Nat) (x : BitVec w) : List Field → BitVec n
  | [] => 0#n
  | f :: fs => place n f.lo (x.extractLsb' f.start f.len) ||| gather n x fs

variable {fs : List Field} {mask : BitVec w}

/-- Gathering fewer bits, or into a wider word than the value needs. -/
theorem setWidth_gather (x : BitVec w) (h : ∀ f ∈ fs, f.lo + f.len ≤ n ∨ w' ≤ n) :
    (gather n x fs).setWidth w' = gather w' x fs := by
  induction fs with
  | nil => exact BitVec.setWidth_zero w' n
  | cons f fs ih =>
    rw [gather, gather, BitVec.setWidth_or, setWidth_place _ (h f (List.mem_cons_self ..)),
      ih fun g hg => h g (List.mem_cons_of_mem _ hg)]

theorem getLsbD_gather_zero (x : BitVec w) (h : ∀ f ∈ fs, 0 < f.lo) :
    (gather n x fs).getLsbD 0 = false := by
  induction fs with
  | nil => exact BitVec.getLsbD_zero
  | cons f fs ih =>
    have hpos := h f (List.mem_cons_self ..)
    rw [gather, BitVec.getLsbD_or, getLsbD_place, ih fun g hg => h g (List.mem_cons_of_mem _ hg)]
    simp [Nat.not_le.mpr hpos]

theorem place_eq_zero_iff (h : lo + k ≤ w) : place w lo x = 0#w ↔ x = 0#k := by
  constructor
  · intro hzero
    rw [← extract_place_self x h, hzero, BitVec.extractLsb'_zero]
  · rintro rfl
    exact place_zero lo

theorem gather_eq_zero_iff (x : BitVec w) (h : ∀ f ∈ fs, f.lo + f.len ≤ n) :
    gather n x fs = 0#n ↔ ∀ f ∈ fs, x.extractLsb' f.start f.len = BitVec.ofNat f.len 0 := by
  induction fs with
  | nil => simp [gather]
  | cons f fs ih =>
    rw [gather, BitVec.or_eq_zero_iff, place_eq_zero_iff _ (h f (List.mem_cons_self ..)),
      ih fun g hg => h g (List.mem_cons_of_mem _ hg), List.forall_mem_cons]

/-- A field is zero when its upper and its lower part are. -/
theorem extract_eq_zero_iff {a b : Nat} (x : BitVec w) :
    x.extractLsb' start (a + b) = 0#(a + b) ↔
      x.extractLsb' (start + a) b = 0#b ∧ x.extractLsb' start a = 0#a := by
  have hparts : place (a + b) a (x.extractLsb' (start + a) b) |||
      place (a + b) 0 (x.extractLsb' start a) = x.extractLsb' start (a + b) := by
    rw [place_or_place x (Nat.zero_add a).symm rfl, place_self]
  rw [← hparts, BitVec.or_eq_zero_iff, place_eq_zero_iff _ (by omega),
    place_eq_zero_iff _ (by omega)]

/-! ## Masks and shifts -/

theorem and_place (x : BitVec w) (hmask : mask = place w lo (BitVec.allOnes k)) :
    x &&& mask = place w lo (x.extractLsb' lo k) := by
  apply BitVec.eq_of_getLsbD_eq
  intro i hi
  rw [hmask, BitVec.getLsbD_and, getLsbD_place, getLsbD_place, BitVec.getLsbD_extractLsb',
    BitVec.getLsbD_allOnes]
  by_cases hlo : lo ≤ i
  · simp [hi, hlo, Bool.and_comm]
  · simp [hlo]

theorem shift_and_place (x : BitVec w) (hmask : mask = place w 0 (BitVec.allOnes k)) :
    (x >>> lo) &&& mask = place w 0 (x.extractLsb' lo k) := by
  have hfield : (x >>> lo).extractLsb' 0 k = x.extractLsb' lo k := by
    apply BitVec.eq_of_getLsbD_eq
    intro i hi
    rw [BitVec.getLsbD_extractLsb', BitVec.getLsbD_extractLsb', BitVec.getLsbD_ushiftRight,
      Nat.zero_add]
  rw [and_place _ hmask, hfield]

/-- A shift within a placed field. -/
theorem place_shiftRight {m n : Nat} (h : n + m = k) (hw : k ≤ w) :
    place w 0 x >>> n = place w 0 (x.extractLsb' n m) := by
  apply BitVec.eq_of_getLsbD_eq
  intro i hi
  rw [BitVec.getLsbD_ushiftRight, getLsbD_place, getLsbD_place, BitVec.getLsbD_extractLsb',
    Nat.sub_zero, Nat.sub_zero]
  by_cases hm : i < m
  · simp [hi, hm, show n + i < w by omega]
  · rw [BitVec.getLsbD_of_ge x _ (by omega)]
    simp [hm]

/-- What a logical shift leaves is the top field. -/
theorem shift_place (x : BitVec w) (h : lo + k = w) :
    x >>> lo = place w 0 (x.extractLsb' lo k) := by
  rw [← place_shiftRight x h le_rfl, place_self]

/-- A field of a field. -/
theorem place_place {lo' n : Nat} (x : BitVec n) (h : lo' + n ≤ k) :
    place w lo (place k lo' x) = place w (lo + lo') x := by
  apply BitVec.eq_of_getLsbD_eq
  intro i hi
  rw [getLsbD_place, getLsbD_place, getLsbD_place, show i - lo - lo' = i - (lo + lo') by omega]
  by_cases hin : lo + lo' ≤ i
  · by_cases hlt : i - (lo + lo') < n
    · simp [hi, hin, show lo ≤ i by omega, show i - lo < k by omega, show lo' ≤ i - lo by omega]
    · rw [BitVec.getLsbD_of_ge x _ (by omega)]
      simp
  · by_cases hlo : lo ≤ i
    · simp [hin, show ¬ lo' ≤ i - lo by omega]
    · simp [hin, hlo]

/-! ## Signs -/

section

variable {m : Nat} (x : BitVec k)

theorem msb_eq : x.msb = x.getLsbD (k - 1) :=
  BitVec.msb_eq_getLsbD_last x

theorem getLsbD_signExtend_of_lt {i : Nat} (hi : i < w) :
    (x.signExtend w).getLsbD i = if i < k then x.getLsbD i else x.msb := by
  rw [BitVec.getLsbD_signExtend]
  simp [hi]

/-- The field at the top of a word carries the sign of the word. -/
theorem msb_extract (x : BitVec w) (hk : 0 < k) (hw : lo + k = w) :
    (x.extractLsb' lo k).msb = x.msb := by
  rw [msb_eq, msb_eq, BitVec.getLsbD_extractLsb', show lo + (k - 1) = w - 1 by omega]
  simp [show k - 1 < k by omega]

/-- Extending twice is extending once. -/
theorem signExtend_signExtend (h : k ≤ w) : (x.signExtend w).signExtend m = x.signExtend m :=
  congrArg (BitVec.ofInt m) (BitVec.toInt_signExtend_of_le h)

/-- Sign extension of a word with nothing below its top field. -/
theorem signExtend_place (hk : 0 < k) (hw : lo + k = w) :
    (place w lo x).signExtend m = x.signExtend m <<< lo := by
  have hmsb : (place w lo x).msb = x.msb := by
    rw [← msb_extract _ hk hw, extract_place_self x hw.le]
  apply BitVec.eq_of_getLsbD_eq
  intro i hi
  rw [getLsbD_signExtend_of_lt _ hi, hmsb, getLsbD_place, BitVec.getLsbD_shiftLeft]
  by_cases hlo : lo ≤ i
  · rw [getLsbD_signExtend_of_lt x (show i - lo < m by omega)]
    by_cases hlt : i < w
    · simp [hi, hlt, hlo, show i - lo < k by omega, show ¬ i < lo by omega]
    · simp [hi, hlt, show ¬ i < lo by omega, show ¬ i - lo < k by omega]
  · simp [hlo, Nat.lt_of_not_le hlo, show i < w by omega]

/-- Sign extension of a word with its top field set apart. -/
theorem signExtend_place_or (y : BitVec w) (hk : 0 < k) (hw : lo + k = w)
    (hy : y.extractLsb' lo k = 0#k) :
    (place w lo x ||| y).signExtend m = (x.signExtend m <<< lo) ||| y.setWidth m := by
  have hmsb : y.msb = false := by
    rw [← msb_extract y hk hw, hy, BitVec.msb_zero]
  rw [BitVec.signExtend_or, signExtend_place x hk hw,
    BitVec.signExtend_eq_setWidth_of_msb_false hmsb]

/-- An arithmetic shift down to the top field. -/
theorem sshiftRight_eq (x : BitVec w) (hk : 0 < k) (hw : lo + k = w) :
    x.sshiftRight lo = (x.extractLsb' lo k).signExtend w := by
  apply BitVec.eq_of_getLsbD_eq
  intro i hi
  rw [getLsbD_signExtend_of_lt _ hi, msb_extract x hk hw, BitVec.getLsbD_sshiftRight,
    BitVec.getLsbD_extractLsb']
  by_cases hlt : i < k
  · simp [hi, hlt, show lo + i < w by omega]
  · simp [hi, hlt, show ¬ lo + i < w by omega]

/-- An arithmetic shift of the top field. -/
theorem signExtend_sshiftRight_place {n : Nat} (hk : 0 < k) (hw : lo + k = w)
    (hn : n ≤ lo) : ((place w lo x).sshiftRight n).signExtend m = x.signExtend m <<< (lo - n) := by
  have hfield : (place w lo x).extractLsb' n (w - n) = place (w - n) (lo - n) x := by
    apply BitVec.eq_of_getLsbD_eq
    intro i hi
    rw [BitVec.getLsbD_extractLsb', getLsbD_place, getLsbD_place,
      show n + i - lo = i - (lo - n) by omega]
    simp [hi, show n + i < w by omega, show (lo ≤ n + i) = (lo - n ≤ i) from propext (by omega)]
  rw [sshiftRight_eq (k := w - n) _ (by omega) (by omega), signExtend_signExtend _ (by omega),
    hfield, signExtend_place x hk (by omega)]

theorem setWidth_signExtend (h : k ≤ w) : (x.signExtend w).setWidth k = x := by
  rw [← BitVec.signExtend_eq_setWidth_of_le _ h, signExtend_signExtend x h, BitVec.signExtend_eq]

theorem extract_signExtend (h : start + len ≤ k) (hw : k ≤ w) :
    (x.signExtend w).extractLsb' start len = x.extractLsb' start len := by
  rw [← BitVec.extractLsb'_setWidth_of_le h, setWidth_signExtend x hw]

theorem signExtend_eq_zero_iff (h : k ≤ w) : x.signExtend w = 0#w ↔ x = 0#k := by
  constructor
  · intro hzero
    rw [← setWidth_signExtend x h, hzero, BitVec.setWidth_zero]
  · rintro rfl
    rw [BitVec.signExtend_eq_setWidth_of_msb_false BitVec.msb_zero, BitVec.setWidth_zero]

/-- A word that was widened with zeros is widened with zeros. -/
theorem signExtend_setWidth (h : k < w) : (x.setWidth w).signExtend m = x.setWidth m := by
  have hmsb : (x.setWidth w).msb = false := by
    rw [msb_eq, BitVec.getLsbD_setWidth, BitVec.getLsbD_of_ge x _ (by omega), Bool.and_false]
  rw [BitVec.signExtend_eq_setWidth_of_msb_false hmsb, BitVec.setWidth_setWidth (by omega)]

/-- A left shift followed by an arithmetic right shift keeps the low bits with their sign. -/
theorem sshiftRight_shiftLeft (x : BitVec w) (hk : 0 < k) (h : k ≤ w) :
    (x <<< (w - k)).sshiftRight (w - k) = (x.setWidth k).signExtend w := by
  have hfield : (x <<< (w - k)).extractLsb' (w - k) k = x.setWidth k := by
    apply BitVec.eq_of_getLsbD_eq
    intro i hi
    rw [BitVec.getLsbD_extractLsb', BitVec.getLsbD_shiftLeft, BitVec.getLsbD_setWidth,
      Nat.add_sub_cancel_left]
    simp [hi, show w - k + i < w by omega]
  rw [sshiftRight_eq _ hk (by omega), hfield]

end

end BitFields
