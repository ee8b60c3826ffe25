import EmulateComputer.Cpu.Encode

/-!
# InstructionFields — what the decoder reads in a word of a given format

Every word can be read in every format: the fields of the format determine the word, and the word
the fields.  The lemmas here say so for each format, and that the decoder's masks and shifts
compute the fields and the sign-extended immediates of the formats.
-/

namespace EmulateComputer

namespace Encode

open BitFields

/-! ## Fields of a word -/

section

variable (funct7 : BitVec 7) (rs2 rs1 : BitVec 5) (funct3 : BitVec 3) (rd : BitVec 5)
  (opcode : BitVec 7)

@[simp] theorem funct7_rType :
    (rType funct7 rs2 rs1 funct3 rd opcode).extractLsb' 25 7 = funct7 := by
  simp (disch := decide) [rType, BitVec.extractLsb'_or]

@[simp] theorem rs2_rType : (rType funct7 rs2 rs1 funct3 rd opcode).extractLsb' 20 5 = rs2 := by
  simp (disch := decide) [rType, BitVec.extractLsb'_or]

@[simp] theorem rs1_rType : (rType funct7 rs2 rs1 funct3 rd opcode).extractLsb' 15 5 = rs1 := by
  simp (disch := decide) [rType, BitVec.extractLsb'_or]

@[simp] theorem funct3_rType :
    (rType funct7 rs2 rs1 funct3 rd opcode).extractLsb' 12 3 = funct3 := by
  simp (disch := decide) [rType, BitVec.extractLsb'_or]

@[simp] theorem rd_rType : (rType funct7 rs2 rs1 funct3 rd opcode).extractLsb' 7 5 = rd := by
  simp (disch := decide) [rType, BitVec.extractLsb'_or]

@[simp] theorem opcode_rType :
    (rType funct7 rs2 rs1 funct3 rd opcode).extractLsb' 0 7 = opcode := by
  simp (disch := decide) [rType, BitVec.extractLsb'_or]

end

variable (raw : U32)

theorem rType_extract :
    rType (raw.extractLsb' 25 7) (raw.extractLsb' 20 5) (raw.extractLsb' 15 5)
      (raw.extractLsb' 12 3) (raw.extractLsb' 7 5) (raw.extractLsb' 0 7) = raw := by
  simp (disch := decide) only [rType, place_or_place raw]
  exact place_extract_all raw

/-! ## Immediates of a word -/

def iImm : BitVec 12 :=
  raw.extractLsb' 20 12

def sImm : BitVec 12 :=
  place 12 5 (raw.extractLsb' 25 7) ||| place 12 0 (raw.extractLsb' 7 5)

def bImm : BitVec 13 :=
  place 13 12 (raw.extractLsb' 31 1) ||| (place 13 11 (raw.extractLsb' 7 1) |||
    place 13 5 (raw.extractLsb' 25 6) ||| place 13 1 (raw.extractLsb' 8 4))

def uImm : BitVec 20 :=
  raw.extractLsb' 12 20

def jImm : BitVec 21 :=
  place 21 20 (raw.extractLsb' 31 1) ||| (place 21 12 (raw.extractLsb' 12 8) |||
    place 21 11 (raw.extractLsb' 20 1) ||| place 21 1 (raw.extractLsb' 21 10))

theorem iType_iImm :
    iType (iImm raw) (raw.extractLsb' 15 5) (raw.extractLsb' 12 3) (raw.extractLsb' 7 5)
      (raw.extractLsb' 0 7) = raw := by
  unfold iType iImm
  rw [extract_extract raw (by decide), extract_extract raw (by decide)]
  exact rType_extract raw

theorem sType_sImm :
    sType (sImm raw) (raw.extractLsb' 20 5) (raw.extractLsb' 15 5) (raw.extractLsb' 12 3)
      (raw.extractLsb' 0 7) = raw := by
  have hhigh : (sImm raw).extractLsb' 5 7 = raw.extractLsb' 25 7 := by
    simp (disch := decide) [sImm, BitVec.extractLsb'_or]
  have hlow : (sImm raw).extractLsb' 0 5 = raw.extractLsb' 7 5 := by
    simp (disch := decide) [sImm, BitVec.extractLsb'_or]
  unfold sType
  rw [hhigh, hlow]
  exact rType_extract raw

theorem bType_bImm :
    bType (bImm raw) (raw.extractLsb' 20 5) (raw.extractLsb' 15 5) (raw.extractLsb' 12 3)
      (raw.extractLsb' 0 7) = raw := by
  have hfunct7 : place 7 6 ((bImm raw).extractLsb' 12 1) |||
      place 7 0 ((bImm raw).extractLsb' 5 6) = raw.extractLsb' 25 7 := by
    simp (disch := decide) [bImm, BitVec.extractLsb'_or, place_or_place raw]
  have hrd : place 5 1 ((bImm raw).extractLsb' 1 4) ||| place 5 0 ((bImm raw).extractLsb' 11 1) =
      raw.extractLsb' 7 5 := by
    simp (disch := decide) [bImm, BitVec.extractLsb'_or, place_or_place raw]
  unfold bType
  rw [hfunct7, hrd]
  exact rType_extract raw

theorem uType_uImm : uType (uImm raw) (raw.extractLsb' 7 5) (raw.extractLsb' 0 7) = raw := by
  unfold uType uImm
  rw [extract_extract raw (by decide), extract_extract raw (by decide),
    extract_extract raw (by decide), extract_extract raw (by decide)]
  exact rType_extract raw

theorem jType_jImm : jType (jImm raw) (raw.extractLsb' 7 5) (raw.extractLsb' 0 7) = raw := by
  have hfunct7 : place 7 6 ((jImm raw).extractLsb' 20 1) |||
      place 7 0 ((jImm raw).extractLsb' 5 6) = raw.extractLsb' 25 7 := by
    simp (disch := decide) [jImm, BitVec.extractLsb'_or, extract_place, extract_extract,
      place_or_place raw]
  have hrs2 : place 5 1 ((jImm raw).extractLsb' 1 4) ||| place 5 0 ((jImm raw).extractLsb' 11 1) =
      raw.extractLsb' 20 5 := by
    simp (disch := decide) [jImm, BitVec.extractLsb'_or, extract_place, extract_extract,
      place_or_place raw]
  have hrs1 : (jImm raw).extractLsb' 15 5 = raw.extractLsb' 15 5 := by
    simp (disch := decide) [jImm, BitVec.extractLsb'_or, extract_place, extract_extract]
  have hfunct3 : (jImm raw).extractLsb' 12 3 = raw.extractLsb' 12 3 := by
    simp (disch := decide) [jImm, BitVec.extractLsb'_or, extract_place, extract_extract]
  unfold jType
  rw [hfunct7, hrs2, hrs1, hfunct3]
  exact rType_extract raw

/-! ## Immediates of a format -/

theorem iImm_eq :
    iImm raw = place 12 5 (raw.extractLsb' 25 7) ||| place 12 0 (raw.extractLsb' 20 5) := by
  rw [place_or_place raw (by rfl) (by rfl)]
  exact (place_self _).symm

theorem uImm_eq :
    uImm raw = place 20 13 (raw.extractLsb' 25 7) ||| place 20 8 (raw.extractLsb' 20 5) |||
      place 20 3 (raw.extractLsb' 15 5) ||| place 20 0 (raw.extractLsb' 12 3) := by
  simp (disch := decide) only [place_or_place raw]
  exact (place_self _).symm

/-- An even word is its upper bits. -/
theorem place_upper {n : Nat} (imm : BitVec (n + 1)) (heven : imm.getLsbD 0 = false) :
    place (n + 1) 1 (imm.extractLsb' 1 n) = imm := by
  apply BitVec.eq_of_getLsbD_eq
  intro i hi
  rw [getLsbD_place, BitVec.getLsbD_extractLsb']
  cases i with
  | zero => simpa using heven.symm
  | succ i =>
    rw [show 1 + (i + 1 - 1) = i + 1 by omega]
    simp [show i < n by omega]

section

variable (rs2 rs1 : BitVec 5) (funct3 : BitVec 3) (rd : BitVec 5) (opcode : BitVec 7)

@[simp] theorem iImm_iType (imm : BitVec 12) : iImm (iType imm rs1 funct3 rd opcode) = imm := by
  unfold iType
  rw [iImm_eq, funct7_rType, rs2_rType, place_or_place imm (by rfl) (by rfl)]
  exact place_extract_all imm

@[simp] theorem sImm_sType (imm : BitVec 12) : sImm (sType imm rs2 rs1 funct3 opcode) = imm := by
  unfold sType sImm
  rw [funct7_rType, rd_rType, place_or_place imm (by rfl) (by rfl)]
  exact place_extract_all imm

@[simp] theorem uImm_uType (imm : BitVec 20) : uImm (uType imm rd opcode) = imm := by
  unfold uType
  rw [uImm_eq, funct7_rType, rs2_rType, rs1_rType, funct3_rType]
  simp (disch := decide) only [place_or_place imm]
  exact place_extract_all imm

theorem bImm_bType (imm : BitVec 13) (heven : imm.getLsbD 0 = false) :
    bImm (bType imm rs2 rs1 funct3 opcode) = imm := by
  simp (disch := decide) [bImm, bType, rType, BitVec.extractLsb'_or, extract_place,
    place_or_place imm, place_upper imm heven]

/-- The immediate by the slots of the register format. -/
theorem jImm_eq :
    jImm raw = place 21 20 (raw.extractLsb' 31 1) |||
      ((place 21 15 (raw.extractLsb' 15 5) ||| place 21 12 (raw.extractLsb' 12 3)) |||
        place 21 11 (raw.extractLsb' 20 1) |||
        (place 21 5 (raw.extractLsb' 25 6) ||| place 21 1 (raw.extractLsb' 21 4))) := by
  have hlow : place 21 5 (raw.extractLsb' 25 6) ||| place 21 1 (raw.extractLsb' 21 4) =
      place 21 1 (raw.extractLsb' 21 10) := place_or_place raw (by rfl) (by rfl)
  rw [place_or_place raw (by rfl) (by rfl), hlow]
  rfl

theorem jImm_jType (imm : BitVec 21) (heven : imm.getLsbD 0 = false) :
    jImm (jType imm rd opcode) = imm := by
  rw [jImm_eq]
  simp (disch := decide) [jType, rType, BitVec.extractLsb'_or, extract_place,
    place_or_place imm, place_upper imm heven]

end

end Encode

namespace Decode

open BitFields Encode

/-! ## What the decoder reads -/

def regOf (bits : BitVec 5) : Reg :=
  bits.toFin

@[simp] theorem regBits_regOf (bits : BitVec 5) : regBits (regOf bits) = bits :=
  rfl

theorem toNat_field {w k : Nat} (raw : BitVec w) (lo : Nat) {mask : BitVec w} (hk : k ≤ w)
    (hmask : mask = place w 0 (BitVec.allOnes k)) :
    (field raw lo mask).toNat = (raw.extractLsb' lo k).toNat := by
  rw [field, shift_and_place raw hmask, toNat_place _ hk]

theorem regField_eq (raw : U32) (lo : Nat) : regField raw lo = regOf (raw.extractLsb' lo 5) :=
  Fin.ext (toNat_field raw lo (by decide) (by decide))

variable (raw : U32) {mask : U32}

theorem rd_eq : rd raw = regOf (raw.extractLsb' 7 5) := regField_eq raw 7
theorem rs1_eq : rs1 raw = regOf (raw.extractLsb' 15 5) := regField_eq raw 15
theorem rs2_eq : rs2 raw = regOf (raw.extractLsb' 20 5) := regField_eq raw 20
theorem rs3_eq : rs3 raw = regOf (raw.extractLsb' 27 5) := regField_eq raw 27

theorem funct3_eq : funct3 raw = place 32 0 (raw.extractLsb' 12 3) :=
  shift_and_place raw (by decide)

theorem funct7_eq : funct7 raw = place 32 0 (raw.extractLsb' 25 7) :=
  shift_and_place raw (by decide)

theorem opcode_eq : raw &&& 0x7f = place 32 0 (raw.extractLsb' 0 7) :=
  and_place raw (by decide)

theorem toNat_funct3 : (funct3 raw).toNat = (raw.extractLsb' 12 3).toNat :=
  toNat_field raw 12 (by decide) (by decide)

theorem toNat_funct7 : (funct7 raw).toNat = (raw.extractLsb' 25 7).toNat :=
  toNat_field raw 25 (by decide) (by decide)

theorem immI_eq : immI raw = (iImm raw).signExtend 64 := by
  rw [immI, sshiftRight_eq (k := 12) raw (by decide) (by decide)]
  exact signExtend_signExtend _ (by decide)

/-- The sign bits of a word, moved down. -/
theorem sign_eq (lo k n : Nat) (hmask : mask = place 32 lo (BitVec.allOnes k))
    (hk : 0 < k) (hw : lo + k = 32) (hn : n ≤ lo) :
    ((raw &&& mask).sshiftRight n).signExtend 64 =
      ((raw.extractLsb' lo k).signExtend 64 <<< (lo - n) : U64) := by
  rw [and_place raw hmask]
  exact signExtend_sshiftRight_place _ hk hw hn

/-- A field of the word, moved to its place in the immediate. -/
theorem part_eq {k lo n : Nat} (hmask : mask = place 32 0 (BitVec.allOnes k))
    (h : n + k ≤ 32) : (field raw lo mask <<< n).setWidth 64 =
      (place 64 n (raw.extractLsb' lo k) : U64) := by
  rw [field, shift_and_place raw hmask, place_shiftLeft, Nat.zero_add, setWidth_place _ (.inl h)]

theorem immS_eq : immS raw = (sImm raw).signExtend 64 := by
  have hlow : (field raw 7 0x1f).setWidth 64 = (place 64 0 (raw.extractLsb' 7 5) : U64) := by
    rw [field, shift_and_place (k := 5) raw (by decide), setWidth_place _ (by decide)]
  unfold immS sImm
  rw [sign_eq raw 25 7 20 (by decide) (by decide) (by decide) (by decide), hlow,
    signExtend_place_or _ _ (by decide) (by decide) (extract_place_of_disjoint _ (by decide)),
    setWidth_place _ (by decide)]

theorem or_rotate {w : Nat} (a b c d : BitVec w) : a ||| b ||| c ||| d = a ||| (d ||| b ||| c) := by
  ac_rfl

theorem or_reverse {w : Nat} (a b c d : BitVec w) :
    a ||| b ||| c ||| d = a ||| (d ||| c ||| b) := by
  ac_rfl

theorem immB_eq : immB raw = (bImm raw).signExtend 64 := by
  have hrest : (place 13 11 (raw.extractLsb' 7 1) ||| place 13 5 (raw.extractLsb' 25 6) |||
      place 13 1 (raw.extractLsb' 8 4)).extractLsb' 12 1 = 0#1 := by
    simp (disch := decide) [BitVec.extractLsb'_or]
  unfold immB bImm
  rw [sign_eq raw 31 1 19 (by decide) (by decide) (by decide) (by decide),
    part_eq (k := 6) raw (by decide) (by decide), part_eq (k := 4) raw (by decide) (by decide),
    part_eq (k := 1) raw (by decide) (by decide),
    signExtend_place_or _ _ (by decide) (by decide) hrest,
    BitVec.setWidth_or, BitVec.setWidth_or, setWidth_place _ (by decide),
    setWidth_place _ (by decide), setWidth_place _ (by decide)]
  exact or_rotate _ _ _ _

theorem immJ_eq : immJ raw = (jImm raw).signExtend 64 := by
  have hrest : (place 21 12 (raw.extractLsb' 12 8) ||| place 21 11 (raw.extractLsb' 20 1) |||
      place 21 1 (raw.extractLsb' 21 10)).extractLsb' 20 1 = 0#1 := by
    simp (disch := decide) [BitVec.extractLsb'_or]
  unfold immJ jImm
  rw [sign_eq raw 31 1 11 (by decide) (by decide) (by decide) (by decide),
    part_eq (k := 10) raw (by decide) (by decide), part_eq (k := 1) raw (by decide) (by decide),
    part_eq (k := 8) raw (by decide) (by decide),
    signExtend_place_or _ _ (by decide) (by decide) hrest,
    BitVec.setWidth_or, BitVec.setWidth_or, setWidth_place _ (by decide),
    setWidth_place _ (by decide), setWidth_place _ (by decide)]
  exact or_reverse _ _ _ _

theorem immU_eq : immU raw = (place 32 12 (uImm raw)).signExtend 64 := by
  unfold immU uImm
  rw [and_place (k := 20) raw (by decide : _ = place 32 12 _)]

end Decode

end EmulateComputer
