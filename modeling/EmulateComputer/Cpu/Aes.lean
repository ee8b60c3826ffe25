import Mathlib.Tactic.IntervalCases
import EmulateComputer.Cpu.Bitmanip
import EmulateComputer.Lib.XorMaps

/-!
# Aes — the cipher made of the AES instructions

Software encrypts a block of two registers with `aes64esm` for every round but the last and
`aes64es` for that, adding a round key after each.  It decrypts with `aes64dsm` and `aes64ds`; that
is the equivalent inverse cipher, whose inner round keys have gone through `aes64im`.
-/

namespace EmulateComputer

namespace Bitmanip

/-! ## Bytes of a word -/

section Bytes

variable {w : Nat}

theorem getbyte_ofLE (bs : List U8) {i : Nat} (h : 8 * i + 8 ≤ w) :
    getbyte (Bytes.ofLE w bs) i = bs[i]?.getD 0 := by
  refine BitVec.eq_of_getLsbD_eq fun j hj => ?_
  have hdiv : (8 * i + j) / 8 = i := by omega
  have hmod : (8 * i + j) % 8 = j := by omega
  rw [getbyte, BitVec.getLsbD_setWidth, BitVec.getLsbD_ushiftRight,
    Bytes.getLsbD_ofLE _ _ (by omega), hdiv, hmod, decide_eq_true hj, Bool.true_and]

theorem toLE_eq (n : Nat) (x : BitVec w) : Bytes.toLE n x = (List.range n).map (getbyte x) := by
  refine List.ext_getElem (by simp) fun i hi _ => ?_
  rw [Bytes.length_toLE] at hi
  rw [← Option.some_inj, ← List.getElem?_eq_getElem, Bytes.getElem?_toLE n x i hi]
  simp [getbyte]

theorem eq_of_getbyte {x y : BitVec w} (n : Nat) (hw : w ≤ 8 * n)
    (h : ∀ i < n, getbyte x i = getbyte y i) : x = y := by
  rw [← Bytes.ofLE_toLE n x hw, ← Bytes.ofLE_toLE n y hw, toLE_eq, toLE_eq]
  exact congrArg _ (List.map_congr_left fun i hi => h i (List.mem_range.1 hi))

theorem getbyte_xor (x y : BitVec w) (i : Nat) :
    getbyte (x ^^^ y) i = getbyte x i ^^^ getbyte y i := by
  rw [getbyte, BitVec.ushiftRight_xor_distrib, BitVec.setWidth_xor]
  rfl

theorem getbyte_subBytes (table : List U8) {n i : Nat} (x : BitVec w) (hi : i < n)
    (h : 8 * i + 8 ≤ w) : getbyte (subBytes table n x) i = table[(getbyte x i).toNat]?.getD 0 := by
  rw [subBytes, getbyte_ofLE _ h, toLE_eq]
  simp [hi]

end Bytes

/-! ## Substitution and rows -/

theorem sboxInv_sboxFwd : ∀ x : U8, SBOX_INV[(SBOX_FWD[x.toNat]?.getD 0).toNat]?.getD 0 = x := by
  decide +kernel

/-- The inverse row shift finds every byte where the forward one has put it. -/
theorem aes64ds_aes64es (a b : U64) :
    bitRr .aes64ds (bitRr .aes64es a b) (bitRr .aes64es b a) = a := by
  refine eq_of_getbyte 8 (by decide) fun i hi => ?_
  change getbyte (subBytes SBOX_INV 8 (shiftrowsInv (subBytes SBOX_FWD 8 (shiftrowsFwd a b))
    (subBytes SBOX_FWD 8 (shiftrowsFwd b a)))) i = _
  interval_cases i <;>
    simp [shiftrowsInv, shiftrowsFwd, getbyte_ofLE, getbyte_subBytes] <;>
    exact sboxInv_sboxFwd _

/-! ## Columns -/

theorem xt2_xor (x y : U8) : xt2 (x ^^^ y) = xt2 x ^^^ xt2 y := by
  have htop : ∀ z : U8, z &&& 0x80 = 0 ∨ z &&& 0x80 = 0x80 := by decide
  have hshift : ∀ c d : U8,
      ((x ^^^ y) <<< 1) ^^^ (c ^^^ d) = (x <<< 1 ^^^ c) ^^^ (y <<< 1 ^^^ d) := by
    intro c d
    rw [BitVec.shiftLeft_xor_distrib]
    ac_rfl
  unfold xt2
  rw [← hshift, XorMap.xor_and]
  rcases htop x with hx | hx <;> rcases htop y with hy | hy <;> rw [hx, hy] <;> rfl

theorem gfmul_xor (x y c : U8) : gfmul (x ^^^ y) c = gfmul x c ^^^ gfmul y c := by
  unfold gfmul
  split_ifs <;> simp [xt2_xor] <;> ac_rfl

theorem aesMixcolumnFwd_xor (x y : U32) :
    aesMixcolumnFwd (x ^^^ y) = aesMixcolumnFwd x ^^^ aesMixcolumnFwd y := by
  refine eq_of_getbyte 4 (by decide) fun i hi => ?_
  interval_cases i <;>
    simp [aesMixcolumnFwd, getbyte_xor, getbyte_ofLE, xt3, xt2_xor] <;> ac_rfl

theorem aesMixcolumnInv_xor (x y : U32) :
    aesMixcolumnInv (x ^^^ y) = aesMixcolumnInv x ^^^ aesMixcolumnInv y := by
  refine eq_of_getbyte 4 (by decide) fun i hi => ?_
  interval_cases i <;>
    simp [aesMixcolumnInv, getbyte_xor, getbyte_ofLE, gfmul_xor] <;> ac_rfl

theorem aesMixcolumnInv_fwd (x : U32) : aesMixcolumnInv (aesMixcolumnFwd x) = x :=
  XorMap.eq_of_bits (f := fun x => aesMixcolumnInv (aesMixcolumnFwd x)) (g := id)
    (fun x y => by dsimp only; rw [aesMixcolumnFwd_xor, aesMixcolumnInv_xor]) (fun _ _ => rfl)
    (by decide +kernel) x

/-! ## Halves of a register -/

theorem halves_eq (lo hi : U32) : halves lo hi = hi ++ lo := by
  rw [halves, BitVec.or_comm, ← BitVec.setWidth_append_eq_shiftLeft_setWidth_or, BitVec.setWidth_eq]

theorem setWidth_shift (x : U64) : (x >>> 32).setWidth 32 = x.extractLsb' 32 32 :=
  rfl

theorem halves_self (x : U64) : halves (x.setWidth 32) ((x >>> 32).setWidth 32) = x := by
  rw [halves_eq, setWidth_shift, BitVec.setWidth_eq_extractLsb' (by decide)]
  exact (BitVec.extractLsb'_append_extractLsb'_eq_extractLsb' (Nat.zero_add 32).symm).trans
    BitVec.extractLsb'_eq_self

theorem aes64im_xor (a b : U64) :
    bitUnary .aes64im (a ^^^ b) = bitUnary .aes64im a ^^^ bitUnary .aes64im b := by
  simp only [bitUnary, BitVec.ushiftRight_xor_distrib, BitVec.setWidth_xor, aesMixcolumnInv_xor,
    halves_eq]
  exact BitVec.xor_append.symm

theorem aes64im_aes64esm (a b : U64) :
    bitUnary .aes64im (bitRr .aes64esm a b) = bitRr .aes64es a b := by
  have hmix : bitRr .aes64esm a b = halves (aesMixcolumnFwd ((bitRr .aes64es a b).setWidth 32))
      (aesMixcolumnFwd ((bitRr .aes64es a b >>> 32).setWidth 32)) := rfl
  rw [hmix, halves_eq]
  simp only [bitUnary, BitVec.setWidth_append_eq_right, setWidth_shift,
    BitVec.extractLsb'_append_eq_left, aesMixcolumnInv_fwd]
  exact halves_self _

/-! ## The cipher -/

abbrev AesBlock := U64 × U64

def addRoundKey (key s : AesBlock) : AesBlock :=
  (s.1 ^^^ key.1, s.2 ^^^ key.2)

/-- An instruction for each half of the state: `op t2, t0, t1` and `op t3, t1, t0`. -/
def aesRound (op : BitOp) (s : AesBlock) : AesBlock :=
  (bitRr op s.1 s.2, bitRr op s.2 s.1)

def aesInvMix (s : AesBlock) : AesBlock :=
  (bitUnary .aes64im s.1, bitUnary .aes64im s.2)

/-- Encryption, with a key for each of the inner rounds. -/
def encryptBlock (first : AesBlock) (inner : List AesBlock) (last block : AesBlock) : AesBlock :=
  let s := inner.foldl (fun s key => addRoundKey key (aesRound .aes64esm s))
    (addRoundKey first block)
  addRoundKey last (aesRound .aes64es s)

/-- The equivalent inverse cipher, under the same keys. -/
def decryptBlock (first : AesBlock) (inner : List AesBlock) (last block : AesBlock) : AesBlock :=
  let s := (inner.map aesInvMix).reverse.foldl
    (fun s key => addRoundKey key (aesRound .aes64dsm s)) (addRoundKey last block)
  addRoundKey first (aesRound .aes64ds s)

theorem addRoundKey_self (key s : AesBlock) : addRoundKey key (addRoundKey key s) = s := by
  simp only [addRoundKey, BitVec.xor_assoc, BitVec.xor_self, BitVec.xor_zero]

theorem aesRound_ds_es (s : AesBlock) : aesRound .aes64ds (aesRound .aes64es s) = s :=
  Prod.ext (aes64ds_aes64es s.1 s.2) (aes64ds_aes64es s.2 s.1)

/-- An inner round of decryption undoes one of encryption, both seen through `aes64es`. -/
theorem aesRound_dsm (key s : AesBlock) :
    addRoundKey (aesInvMix key) (aesRound .aes64dsm (aesRound .aes64es
      (addRoundKey key (aesRound .aes64esm s)))) = aesRound .aes64es s := by
  generalize ht : addRoundKey key (aesRound .aes64esm s) = t
  calc addRoundKey (aesInvMix key) (aesRound .aes64dsm (aesRound .aes64es t))
      = addRoundKey (aesInvMix key) (aesInvMix (aesRound .aes64ds (aesRound .aes64es t))) := rfl
    _ = aesInvMix (addRoundKey key t) := by
        rw [aesRound_ds_es]
        simp only [addRoundKey, aesInvMix, aes64im_xor]
    _ = aesInvMix (aesRound .aes64esm s) := by rw [← ht, addRoundKey_self]
    _ = aesRound .aes64es s := Prod.ext (aes64im_aes64esm s.1 s.2) (aes64im_aes64esm s.2 s.1)

theorem aesRounds_inner (inner : List AesBlock) (s : AesBlock) :
    (inner.map aesInvMix).reverse.foldl (fun s key => addRoundKey key (aesRound .aes64dsm s))
      (aesRound .aes64es (inner.foldl (fun s key => addRoundKey key (aesRound .aes64esm s)) s)) =
      aesRound .aes64es s := by
  induction inner generalizing s with
  | nil => rfl
  | cons key inner ih =>
    rw [List.map_cons, List.reverse_cons, List.foldl_append, List.foldl_cons, List.foldl_cons,
      List.foldl_nil, ih]
    exact aesRound_dsm key s

/-- Decryption recovers what was encrypted, whatever the keys and their number. -/
theorem decryptBlock_encryptBlock (first : AesBlock) (inner : List AesBlock)
    (last block : AesBlock) :
    decryptBlock first inner last (encryptBlock first inner last block) = block := by
  unfold decryptBlock encryptBlock
  dsimp only
  rw [addRoundKey_self, aesRounds_inner, aesRound_ds_es, addRoundKey_self]

end Bitmanip

end EmulateComputer
