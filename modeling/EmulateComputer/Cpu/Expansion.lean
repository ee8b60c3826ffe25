import EmulateComputer.Cpu.DecodeInverse

/-!
# Expansion — compressed instructions and the instructions they stand for

Every compressed instruction of RV64GC abbreviates one 32-bit instruction.  `expansion` is the table
of these, written from the instruction listings: the immediates are given by the columns of the
halfword that hold them, and the result is a word of one of the standard formats.  `Reserved` lists
the halfwords that abbreviate nothing.
-/

namespace EmulateComputer

namespace Expansion

open BitFields Encode

/-! ## Immediates -/

/-- `nzuimm[5:4|9:6|2|3]` of `c.addi4spn`. -/
def addi4spnImm : List Field := column 12 [(5, 4), (9, 6), (2, 2), (3, 3)]

/-- `uimm[5:3]`, `uimm[7:6]` of the doubleword accesses. -/
def doubleImm : List Field := column 12 [(5, 3)] ++ column 6 [(7, 6)]

/-- `uimm[5:3]`, `uimm[2|6]` of the word accesses. -/
def wordImm : List Field := column 12 [(5, 3)] ++ column 6 [(2, 2), (6, 6)]

/-- `imm[5]`, `imm[4:0]`, also the shift amounts. -/
def sixImm : List Field := column 12 [(5, 5)] ++ column 6 [(4, 0)]

/-- `nzimm[9]`, `nzimm[4|6|8:7|5]` of `c.addi16sp`. -/
def addi16spImm : List Field := column 12 [(9, 9)] ++ column 6 [(4, 4), (6, 6), (8, 7), (5, 5)]

/-- `offset[11|4|9:8|10|6|7|3:1|5]` of `c.j`. -/
def jumpOffset : List Field :=
  column 12 [(11, 11), (4, 4), (9, 8), (10, 10), (6, 6), (7, 7), (3, 1), (5, 5)]

/-- `offset[8|4:3]`, `offset[7:6|2:1|5]` of the branches. -/
def branchOffset : List Field := column 12 [(8, 8), (4, 3)] ++ column 6 [(7, 6), (2, 1), (5, 5)]

/-- `uimm[5]`, `uimm[4:3|8:6]` of the doubleword loads from the stack. -/
def doubleSpLoad : List Field := column 12 [(5, 5)] ++ column 6 [(4, 3), (8, 6)]

/-- `uimm[5]`, `uimm[4:2|7:6]` of the word loads from the stack. -/
def wordSpLoad : List Field := column 12 [(5, 5)] ++ column 6 [(4, 2), (7, 6)]

/-- `uimm[5:3|8:6]` of the doubleword stores to the stack. -/
def doubleSpStore : List Field := column 12 [(5, 3), (8, 6)]

/-- `uimm[5:2|7:6]` of the word stores to the stack. -/
def wordSpStore : List Field := column 12 [(5, 2), (7, 6)]

section

variable (raw : U16)

/-- An unsigned immediate of `n` bits in a twelve-bit slot. -/
def uimm (n : Nat) (fields : List Field) : BitVec 12 :=
  (gather n raw fields).setWidth 12

/-- A signed immediate of `n` bits in a slot of `m` bits. -/
def simm (n m : Nat) (fields : List Field) : BitVec m :=
  (gather n raw fields).signExtend m

/-! ## Registers -/

def rdBits : BitVec 5 := raw.extractLsb' 7 5
def rs2Bits : BitVec 5 := raw.extractLsb' 2 5

/-- The three-bit fields name `x8` to `x15`. -/
def popular (bits : BitVec 3) : BitVec 5 :=
  place 5 3 (1 : BitVec 2) ||| place 5 0 bits

def highBits : BitVec 5 := popular (raw.extractLsb' 7 3)
def lowBits : BitVec 5 := popular (raw.extractLsb' 2 3)

/-! ## The table -/

/-- The word that stands for no instruction, in the reserved places of the table. -/
def NONE : U32 := 0

def quadrant0 : U32 :=
  match (raw.extractLsb' 13 3).toNat with
  | 0 => iType (uimm raw 10 addi4spnImm) 2 (aluFunct .add).2 (lowBits raw) OP_IMM
  | 1 => iType (uimm raw 8 doubleImm) (highBits raw) (fpWidth .d) (lowBits raw) LOAD_FP
  | 2 => iType (uimm raw 7 wordImm) (highBits raw) (loadFunct3 .w) (lowBits raw) LOAD
  | 3 => iType (uimm raw 8 doubleImm) (highBits raw) (loadFunct3 .d) (lowBits raw) LOAD
  | 5 => sType (uimm raw 8 doubleImm) (lowBits raw) (highBits raw) (fpWidth .d) STORE_FP
  | 6 => sType (uimm raw 7 wordImm) (lowBits raw) (highBits raw) (storeFunct3 .w) STORE
  | 7 => sType (uimm raw 8 doubleImm) (lowBits raw) (highBits raw) (storeFunct3 .d) STORE
  | _ => NONE

/-- A register-register operation on `x8` to `x15` that overwrites its first operand. -/
def overwrite (kind : AluOp) (opcode : BitVec 7) : U32 :=
  rType (aluFunct kind).1 (lowBits raw) (highBits raw) (aluFunct kind).2 (highBits raw) opcode

def shift (kind : AluOp) (bits : BitVec 5) : U32 :=
  iType (place 12 6 ((aluFunct kind).1.extractLsb' 1 6) ||| place 12 0 (gather 6 raw sixImm)) bits
    (aluFunct kind).2 bits OP_IMM

def arithmetic : U32 :=
  match (raw.extractLsb' 10 2).toNat with
  | 0 => shift raw .srl (highBits raw)
  | 1 => shift raw .sra (highBits raw)
  | 2 => iType (simm raw 6 12 sixImm) (highBits raw) (aluFunct .and).2 (highBits raw) OP_IMM
  | _ =>
    match (raw.extractLsb' 12 1).toNat, (raw.extractLsb' 5 2).toNat with
    | 0, 0 => overwrite raw .sub OP
    | 0, 1 => overwrite raw .xor OP
    | 0, 2 => overwrite raw .or OP
    | 0, 3 => overwrite raw .and OP
    | 1, 0 => overwrite raw .sub OP_32
    | 1, 1 => overwrite raw .add OP_32
    | _, _ => NONE

def quadrant1 : U32 :=
  match (raw.extractLsb' 13 3).toNat with
  | 0 => iType (simm raw 6 12 sixImm) (rdBits raw) (aluFunct .add).2 (rdBits raw) OP_IMM
  | 1 => iType (simm raw 6 12 sixImm) (rdBits raw) (aluFunct .add).2 (rdBits raw) OP_IMM_32
  | 2 => iType (simm raw 6 12 sixImm) 0 (aluFunct .add).2 (rdBits raw) OP_IMM
  | 3 =>
    if rdBits raw = 2 then iType (simm raw 10 12 addi16spImm) 2 (aluFunct .add).2 2 OP_IMM
    else uType (simm raw 6 20 sixImm) (rdBits raw) LUI
  | 4 => arithmetic raw
  | 5 => jType (simm raw 12 21 jumpOffset) 0 JAL
  | 6 => bType (simm raw 9 13 branchOffset) 0 (highBits raw) (branchFunct3 .eq) BRANCH
  | _ => bType (simm raw 9 13 branchOffset) 0 (highBits raw) (branchFunct3 .ne) BRANCH

def jumpMoveAdd : U32 :=
  if raw.extractLsb' 12 1 = 0 then
    if rs2Bits raw = 0 then iType 0 (rdBits raw) 0 0 JALR
    else rType (aluFunct .add).1 (rs2Bits raw) 0 (aluFunct .add).2 (rdBits raw) OP
  else if rs2Bits raw = 0 then
    if rdBits raw = 0 then iType 1 0 0 0 SYSTEM else iType 0 (rdBits raw) 0 1 JALR
  else rType (aluFunct .add).1 (rs2Bits raw) (rdBits raw) (aluFunct .add).2 (rdBits raw) OP

def quadrant2 : U32 :=
  match (raw.extractLsb' 13 3).toNat with
  | 0 => shift raw .sll (rdBits raw)
  | 1 => iType (uimm raw 9 doubleSpLoad) 2 (fpWidth .d) (rdBits raw) LOAD_FP
  | 2 => iType (uimm raw 8 wordSpLoad) 2 (loadFunct3 .w) (rdBits raw) LOAD
  | 3 => iType (uimm raw 9 doubleSpLoad) 2 (loadFunct3 .d) (rdBits raw) LOAD
  | 4 => jumpMoveAdd raw
  | 5 => sType (uimm raw 9 doubleSpStore) (rs2Bits raw) 2 (fpWidth .d) STORE_FP
  | 6 => sType (uimm raw 8 wordSpStore) (rs2Bits raw) 2 (storeFunct3 .w) STORE
  | _ => sType (uimm raw 9 doubleSpStore) (rs2Bits raw) 2 (storeFunct3 .d) STORE

/-- The 32-bit instruction a halfword abbreviates. -/
def expansion : U32 :=
  match (raw.extractLsb' 0 2).toNat with
  | 0 => quadrant0 raw
  | 1 => quadrant1 raw
  | _ => quadrant2 raw

/-! ## Reserved halfwords -/

/-- `c.addi4spn` without an immediate, among them the all-zero halfword, and the free place. -/
def Reserved0 : Prop :=
  (raw.extractLsb' 13 3 = 0 ∧ raw.extractLsb' 5 8 = 0) ∨ raw.extractLsb' 13 3 = 4

/-- The free places among the register-register operations. -/
def ReservedArithmetic : Prop :=
  raw.extractLsb' 10 2 = 3 ∧ raw.extractLsb' 12 1 = 1 ∧
    (raw.extractLsb' 5 2 = 2 ∨ raw.extractLsb' 5 2 = 3)

/-- `c.addiw` to `x0`, `c.addi16sp` and `c.lui` without an immediate, and the free places
among the arithmetic. -/
def Reserved1 : Prop :=
  (raw.extractLsb' 13 3 = 1 ∧ rdBits raw = 0) ∨
  (raw.extractLsb' 13 3 = 3 ∧ raw.extractLsb' 12 1 = 0 ∧ raw.extractLsb' 2 5 = 0) ∨
  (raw.extractLsb' 13 3 = 4 ∧ ReservedArithmetic raw)

/-- `c.jr` through `x0`. -/
def ReservedJump : Prop :=
  raw.extractLsb' 12 1 = 0 ∧ rs2Bits raw = 0 ∧ rdBits raw = 0

/-- The integer loads to `x0`, and `c.jr` through `x0`. -/
def Reserved2 : Prop :=
  (raw.extractLsb' 13 3 = 2 ∧ rdBits raw = 0) ∨ (raw.extractLsb' 13 3 = 3 ∧ rdBits raw = 0) ∨
  (raw.extractLsb' 13 3 = 4 ∧ ReservedJump raw)

def Reserved : Prop :=
  (raw.extractLsb' 0 2 = 0 ∧ Reserved0 raw) ∨ (raw.extractLsb' 0 2 = 1 ∧ Reserved1 raw) ∨
  (raw.extractLsb' 0 2 = 2 ∧ Reserved2 raw)

end

end Expansion

namespace Decode

open BitFields Encode Expansion

section

variable (raw : U16) {bits : U16}

/-! ## Fields and immediates of the decoder -/

@[simp] theorem field1 (lo : Nat) : field raw lo 0x1#16 = place 16 0 (raw.extractLsb' lo 1) :=
  shift_and_place raw (by decide)

@[simp] theorem field2 (lo : Nat) : field raw lo 0x3#16 = place 16 0 (raw.extractLsb' lo 2) :=
  shift_and_place raw (by decide)

@[simp] theorem field3 (lo : Nat) : field raw lo 0x7#16 = place 16 0 (raw.extractLsb' lo 3) :=
  shift_and_place raw (by decide)

@[simp] theorem field4 (lo : Nat) : field raw lo 0xf#16 = place 16 0 (raw.extractLsb' lo 4) :=
  shift_and_place raw (by decide)

@[simp] theorem field5 (lo : Nat) : field raw lo 0x1f#16 = place 16 0 (raw.extractLsb' lo 5) :=
  shift_and_place raw (by decide)

/-- The decoder shifts a zero-extended value up and down again to sign-extend it. -/
theorem sext_gather {n : Nat} {fields : List Field} (hbits : bits = gather 16 raw fields)
    (hpos : 0 < n) (hle : n ≤ 16) :
    sext (bits.setWidth 64) n = (gather n raw fields).signExtend 64 := by
  rw [sext, sshiftRight_shiftLeft _ hpos (by omega),
    BitVec.setWidth_setWidth_of_le _ (show n ≤ 64 by omega), hbits,
    setWidth_gather raw fun _ _ => .inr hle]

theorem signExtend_simm {n m : Nat} (fields : List Field) (h : n ≤ m) :
    (simm raw n m fields).signExtend 64 = (gather n raw fields).signExtend 64 :=
  signExtend_signExtend _ h

theorem signExtend_uimm {n : Nat} {fields : List Field}
    (hbits : bits = gather 16 raw fields) (hfit : ∀ f ∈ fields, f.lo + f.len ≤ n) (hn : n < 12) :
    bits.setWidth 64 = (uimm raw n fields).signExtend 64 := by
  rw [uimm, signExtend_setWidth _ hn, hbits,
    setWidth_gather raw fun f hf => .inl ((hfit f hf).trans (by omega)),
    setWidth_gather raw fun f hf => .inl (hfit f hf)]

theorem sixImm_eq : field raw 12 0x1 <<< 5 ||| field raw 2 0x1f = gather 16 raw sixImm := by
  simp [place_shiftLeft, sixImm, column, gather]

theorem cImm6_eq : cImm6 raw = (gather 6 raw sixImm).signExtend 64 :=
  sext_gather raw (sixImm_eq raw) (by decide) (by decide)

theorem cShamt6_eq : cShamt6 raw = place 64 0 (gather 6 raw sixImm) := by
  rw [cShamt6, sixImm_eq, setWidth_gather raw (by decide), place, BitVec.shiftLeft_zero,
    setWidth_gather raw (by decide)]

theorem immAddi16sp_eq : immAddi16sp raw = (simm raw 10 12 addi16spImm).signExtend 64 := by
  rw [signExtend_simm raw _ (by decide)]
  refine sext_gather raw ?_ (by decide) (by decide)
  simp [place_shiftLeft, addi16spImm, column, gather, BitVec.or_assoc]

theorem immCj_eq : immCj raw = (simm raw 12 21 jumpOffset).signExtend 64 := by
  rw [signExtend_simm raw _ (by decide)]
  refine sext_gather raw ?_ (by decide) (by decide)
  simp [place_shiftLeft, jumpOffset, column, gather, BitVec.or_assoc]

theorem immCb_eq : immCb raw = (simm raw 9 13 branchOffset).signExtend 64 := by
  rw [signExtend_simm raw _ (by decide)]
  refine sext_gather raw ?_ (by decide) (by decide)
  simp [place_shiftLeft, branchOffset, column, gather, BitVec.or_assoc]

theorem immAddi4spn_eq : immAddi4spn raw = (uimm raw 10 addi4spnImm).signExtend 64 := by
  refine signExtend_uimm raw ?_ (by decide) (by decide)
  simp [place_shiftLeft, addi4spnImm, column, gather, BitVec.or_assoc]

theorem immCld_eq : immCld raw = (uimm raw 8 doubleImm).signExtend 64 := by
  refine signExtend_uimm raw ?_ (by decide) (by decide)
  simp [place_shiftLeft, doubleImm, column, gather]

theorem immClw_eq : immClw raw = (uimm raw 7 wordImm).signExtend 64 := by
  refine signExtend_uimm raw ?_ (by decide) (by decide)
  simp [place_shiftLeft, wordImm, column, gather, BitVec.or_assoc]

theorem immCldsp_eq : immCldsp raw = (uimm raw 9 doubleSpLoad).signExtend 64 := by
  refine signExtend_uimm raw ?_ (by decide) (by decide)
  simp [place_shiftLeft, doubleSpLoad, column, gather, BitVec.or_assoc]

theorem immClwsp_eq : immClwsp raw = (uimm raw 8 wordSpLoad).signExtend 64 := by
  refine signExtend_uimm raw ?_ (by decide) (by decide)
  simp [place_shiftLeft, wordSpLoad, column, gather, BitVec.or_assoc]

theorem immCsdsp_eq : immCsdsp raw = (uimm raw 9 doubleSpStore).signExtend 64 := by
  refine signExtend_uimm raw ?_ (by decide) (by decide)
  simp [place_shiftLeft, doubleSpStore, column, gather]

theorem immCswsp_eq : immCswsp raw = (uimm raw 8 wordSpStore).signExtend 64 := by
  refine signExtend_uimm raw ?_ (by decide) (by decide)
  simp [place_shiftLeft, wordSpStore, column, gather]

/-! ## Registers of the decoder -/

theorem cRd_eq : cRd raw = regOf (rdBits raw) :=
  Fin.ext (toNat_field raw 7 (by decide : 5 ≤ 16) (by decide))

theorem cRs2_eq : cRs2 raw = regOf (rs2Bits raw) :=
  Fin.ext (toNat_field raw 2 (by decide : 5 ≤ 16) (by decide))

theorem cRegField3_eq (lo : Nat) : cRegField3 raw lo = regOf (popular (raw.extractLsb' lo 3)) := by
  have hpopular : ∀ bits : BitVec 3, (popular bits).toNat = 8 + bits.toNat := by decide
  refine Fin.ext ?_
  calc (cRegField3 raw lo).val = 8 + (field raw lo 0x7).toNat := rfl
    _ = 8 + (raw.extractLsb' lo 3).toNat := by
        rw [toNat_field (k := 3) raw lo (by decide) (by decide)]
    _ = (popular (raw.extractLsb' lo 3)).toNat := (hpopular _).symm

theorem cRegHigh_eq : cRegHigh raw = regOf (highBits raw) :=
  cRegField3_eq raw 7

theorem cRegLow_eq : cRegLow raw = regOf (lowBits raw) :=
  cRegField3_eq raw 2

theorem regOf_eq_iff {b c : BitVec 5} : regOf b = regOf c ↔ b = c := by
  refine ⟨fun h => ?_, congrArg _⟩
  rw [← regBits_regOf b, h, regBits_regOf]

theorem regOf_eq_zero {b : BitVec 5} : regOf b = 0 ↔ b = 0 :=
  regOf_eq_iff

end

/-! ## Words of the table -/

section

theorem decode32_of_encode {op : Op} {word : U32} (hignored : ignored op = 0)
    (h : encode op = some word) : decode32 word = some op :=
  decode32_of_encodes (encodes_of_eq hignored h)

variable {op : Op} {imm : BitVec 12} {b1 b2 d : BitVec 5} {f : BitVec 3} {o : BitVec 7}

/-- An operation with a signed twelve-bit immediate. -/
theorem decode32_iType (hignored : ignored op = 0)
    (h : encode op = (signed 12 (imm.signExtend 64)).map (iType · b1 f d o)) :
    decode32 (iType imm b1 f d o) = some op := by
  refine decode32_of_encode hignored ?_
  rw [h, signed_signExtend _ (by decide), Option.map_some]

theorem decode32_sType (hignored : ignored op = 0)
    (h : encode op = (signed 12 (imm.signExtend 64)).map (sType · b2 b1 f o)) :
    decode32 (sType imm b2 b1 f o) = some op := by
  refine decode32_of_encode hignored ?_
  rw [h, signed_signExtend _ (by decide), Option.map_some]

theorem decode32_shift (d : BitVec 5) {kind : AluOp} (hkind : kind.isShift = true) (raw : U16) :
    decode32 (shift raw kind d) = some (.opImm kind (regOf d) (regOf d) (cShamt6 raw)) := by
  refine decode32_of_encode rfl ?_
  have henc : encodeOpImm kind (regOf d) (regOf d) (cShamt6 raw) =
      (unsigned 6 (cShamt6 raw)).map fun shamt => shift64 kind shamt (regOf d) (regOf d) := by
    cases kind <;> first | rfl | cases hkind
  rw [encode, henc, cShamt6_eq, unsigned_place _ (by decide)]
  rfl

end

/-! ## The quadrants -/

/-- The decoder of halfwords follows the table. -/
inductive Agrees (reserved : Prop) (decoded : Option Op) (word : U32) : Prop
  | rejected (hreserved : reserved) (hnone : decoded = none)
  | expanded (hreserved : ¬ reserved) (op : Op) (hsome : decoded = some op)
      (hword : decode32 word = some op)

section

variable (raw : U16)

theorem code_cases : ∀ code : BitVec 3,
    code = 0 ∨ code = 1 ∨ code = 2 ∨ code = 3 ∨ code = 4 ∨ code = 5 ∨ code = 6 ∨ code = 7 := by
  decide

theorem toNat_code : (field raw 13 0x7).toNat = (raw.extractLsb' 13 3).toNat :=
  toNat_field raw 13 (by decide) (by decide)

theorem immAddi4spn_eq_zero : immAddi4spn raw = 0 ↔ raw.extractLsb' 5 8 = 0 := by
  have hgather : immAddi4spn raw = gather 64 raw addi4spnImm := by
    rw [immAddi4spn_eq, uimm, signExtend_setWidth _ (by decide), setWidth_gather raw (by decide)]
  have h5 : raw.extractLsb' 5 8 = 0 ↔ raw.extractLsb' 6 7 = 0 ∧ raw.extractLsb' 5 1 = 0 :=
    extract_eq_zero_iff (a := 1) (b := 7) raw
  have h6 : raw.extractLsb' 6 7 = 0 ↔ raw.extractLsb' 7 6 = 0 ∧ raw.extractLsb' 6 1 = 0 :=
    extract_eq_zero_iff (a := 1) (b := 6) raw
  have h7 : raw.extractLsb' 7 6 = 0 ↔ raw.extractLsb' 11 2 = 0 ∧ raw.extractLsb' 7 4 = 0 :=
    extract_eq_zero_iff (a := 4) (b := 2) raw
  calc immAddi4spn raw = 0
      ↔ ∀ f ∈ addi4spnImm, raw.extractLsb' f.start f.len = BitVec.ofNat f.len 0 := by
        rw [hgather]
        exact gather_eq_zero_iff raw (by decide)
    _ ↔ raw.extractLsb' 11 2 = 0 ∧ raw.extractLsb' 7 4 = 0 ∧ raw.extractLsb' 6 1 = 0 ∧
          raw.extractLsb' 5 1 = 0 := by
        simp [addi4spnImm, column]
    _ ↔ raw.extractLsb' 5 8 = 0 := by
        tauto

/-- Both layouts of `c.lui` and `c.addi16sp` use the same six bits. -/
theorem gather_sixImm_eq_zero :
    gather 6 raw sixImm = 0 ↔ raw.extractLsb' 12 1 = 0 ∧ raw.extractLsb' 2 5 = 0 := by
  refine (gather_eq_zero_iff raw (by decide)).trans ?_
  simp [sixImm, column]

theorem immAddi16sp_eq_zero :
    immAddi16sp raw = 0 ↔ raw.extractLsb' 12 1 = 0 ∧ raw.extractLsb' 2 5 = 0 := by
  have h2 : raw.extractLsb' 2 5 = 0 ↔ raw.extractLsb' 3 4 = 0 ∧ raw.extractLsb' 2 1 = 0 :=
    extract_eq_zero_iff (a := 1) (b := 4) raw
  have h3 : raw.extractLsb' 3 4 = 0 ↔ raw.extractLsb' 5 2 = 0 ∧ raw.extractLsb' 3 2 = 0 :=
    extract_eq_zero_iff (a := 2) (b := 2) raw
  have h5 : raw.extractLsb' 5 2 = 0 ↔ raw.extractLsb' 6 1 = 0 ∧ raw.extractLsb' 5 1 = 0 :=
    extract_eq_zero_iff (a := 1) (b := 1) raw
  calc immAddi16sp raw = 0
      ↔ gather 10 raw addi16spImm = 0 := by
        rw [immAddi16sp_eq, signExtend_simm raw _ (by decide)]
        exact signExtend_eq_zero_iff _ (by decide)
    _ ↔ ∀ f ∈ addi16spImm, raw.extractLsb' f.start f.len = BitVec.ofNat f.len 0 :=
        gather_eq_zero_iff raw (by decide)
    _ ↔ raw.extractLsb' 12 1 = 0 ∧ raw.extractLsb' 6 1 = 0 ∧ raw.extractLsb' 5 1 = 0 ∧
          raw.extractLsb' 3 2 = 0 ∧ raw.extractLsb' 2 1 = 0 := by
        simp [addi16spImm, column]
    _ ↔ raw.extractLsb' 12 1 = 0 ∧ raw.extractLsb' 2 5 = 0 := by
        tauto

theorem cLui_eq : cImm6 raw <<< 12 = (place 32 12 (simm raw 6 20 sixImm)).signExtend 64 := by
  rw [signExtend_place _ (by decide) (by decide), signExtend_simm raw _ (by decide), cImm6_eq]

theorem cLui_eq_zero :
    cImm6 raw <<< 12 = 0 ↔ raw.extractLsb' 12 1 = 0 ∧ raw.extractLsb' 2 5 = 0 := by
  have hshift : ∀ imm : BitVec 6, imm.signExtend 64 <<< 12 = 0 ↔ imm = 0 := by decide
  rw [cImm6_eq, hshift]
  exact gather_sixImm_eq_zero raw

theorem agrees_quadrant0 : Agrees (Reserved0 raw) (decodeQuadrant0 raw) (quadrant0 raw) := by
  unfold Reserved0 decodeQuadrant0 quadrant0
  simp only [toNat_code, immCld_eq, immClw_eq, cRegLow_eq, cRegHigh_eq]
  rcases code_cases (raw.extractLsb' 13 3) with h | h | h | h | h | h | h | h <;> rw [h]
  · -- `c.addi4spn`
    by_cases hzero : immAddi4spn raw = 0
    · exact .rejected (Or.inl ⟨rfl, (immAddi4spn_eq_zero raw).mp hzero⟩) (if_pos hzero)
    · refine .expanded ?_ _ (if_neg hzero) ?_
      · rintro (⟨-, himm⟩ | hcode)
        · exact hzero ((immAddi4spn_eq_zero raw).mpr himm)
        · cases hcode
      · rw [immAddi4spn_eq]
        exact decode32_iType rfl rfl
  · exact .expanded (by simp) _ rfl (decode32_iType rfl rfl)
  · exact .expanded (by simp) _ rfl (decode32_iType rfl rfl)
  · exact .expanded (by simp) _ rfl (decode32_iType rfl rfl)
  · exact .rejected (Or.inr rfl) rfl
  · exact .expanded (by simp) _ rfl (decode32_sType rfl rfl)
  · exact .expanded (by simp) _ rfl (decode32_sType rfl rfl)
  · exact .expanded (by simp) _ rfl (decode32_sType rfl rfl)

/-! ### Quadrant 1 -/

theorem pair_cases : ∀ code : BitVec 2, code = 0 ∨ code = 1 ∨ code = 2 ∨ code = 3 := by
  decide

theorem bit_cases : ∀ code : BitVec 1, code = 0 ∨ code = 1 := by
  decide

theorem toNat_pair (lo : Nat) : (field raw lo 0x3).toNat = (raw.extractLsb' lo 2).toNat :=
  toNat_field raw lo (by decide) (by decide)

theorem toNat_bit (lo : Nat) : (field raw lo 0x1).toNat = (raw.extractLsb' lo 1).toNat :=
  toNat_field raw lo (by decide) (by decide)

theorem agrees_arithmetic : Agrees (ReservedArithmetic raw) (decodeCAlu raw) (arithmetic raw) := by
  unfold ReservedArithmetic decodeCAlu arithmetic
  rw [toNat_pair, toNat_pair, toNat_bit, cRegHigh_eq, cRegLow_eq]
  rcases pair_cases (raw.extractLsb' 10 2) with h | h | h | h <;> rw [h]
  · exact .expanded (by simp) _ rfl (decode32_shift _ rfl raw)
  · exact .expanded (by simp) _ rfl (decode32_shift _ rfl raw)
  · refine .expanded (by simp) _ rfl ?_
    rw [cImm6_eq, ← signExtend_simm raw (m := 12) _ (by decide)]
    exact decode32_iType rfl rfl
  · rcases bit_cases (raw.extractLsb' 12 1) with hbit | hbit <;>
      rcases pair_cases (raw.extractLsb' 5 2) with hsel | hsel | hsel | hsel <;> rw [hbit, hsel]
    · exact .expanded (by simp) _ rfl (decode32_opReg ..)
    · exact .expanded (by simp) _ rfl (decode32_opReg ..)
    · exact .expanded (by simp) _ rfl (decode32_opReg ..)
    · exact .expanded (by simp) _ rfl (decode32_opReg ..)
    · exact .expanded (by simp) _ rfl (decode32_opReg32 rfl ..)
    · exact .expanded (by simp) _ rfl (decode32_opReg32 rfl ..)
    · exact .rejected (by simp) rfl
    · exact .rejected (by simp) rfl

/-- Jump offsets are even. -/
theorem getLsbD_simm_zero {n m : Nat} {fields : List Field} (hn : 0 < n) (hm : 0 < m)
    (h : ∀ f ∈ fields, 0 < f.lo) : (simm raw n m fields).getLsbD 0 = false := by
  rw [simm, getLsbD_signExtend_of_lt _ hm, if_pos hn, getLsbD_gather_zero raw h]

theorem decode32_cj : decode32 (jType (simm raw 12 21 jumpOffset) 0 JAL) =
    some (.jal 0 (immCj raw)) := by
  have heven : (simm raw 12 21 jumpOffset).getLsbD 0 = false :=
    getLsbD_simm_zero raw (by decide) (by decide) (by decide)
  refine decode32_of_encode rfl ?_
  rw [encode, immCj_eq, offset_signExtend (by decide) (by decide) heven]
  rfl

theorem decode32_cb (cond : BranchCond) :
    decode32 (bType (simm raw 9 13 branchOffset) 0 (highBits raw) (branchFunct3 cond) BRANCH) =
      some (.branch cond (cRegHigh raw) 0 (immCb raw)) := by
  have heven : (simm raw 9 13 branchOffset).getLsbD 0 = false :=
    getLsbD_simm_zero raw (by decide) (by decide) (by decide)
  refine decode32_of_encode rfl ?_
  rw [encode, immCb_eq, offset_signExtend (by decide) (by decide) heven, cRegHigh_eq]
  rfl

/-- The sign-extended six-bit immediate in a twelve-bit slot. -/
theorem cImm6_slot : cImm6 raw = (simm raw 6 12 sixImm).signExtend 64 := by
  rw [cImm6_eq, signExtend_simm raw _ (by decide)]

/-- `c.addi16sp` and `c.lui` share a place in the quadrant. -/
theorem agrees_upper :
    Agrees (raw.extractLsb' 12 1 = 0 ∧ raw.extractLsb' 2 5 = 0)
      (if cRd raw = 2 then
        if immAddi16sp raw = 0 then none else some (.opImm .add 2 2 (immAddi16sp raw))
      else if cImm6 raw <<< 12 = 0 then none
      else some (.lui (cRd raw) (cImm6 raw <<< 12)))
      (if rdBits raw = 2 then iType (simm raw 10 12 addi16spImm) 2 (aluFunct .add).2 2 OP_IMM
      else uType (simm raw 6 20 sixImm) (rdBits raw) LUI) := by
  have hsp : cRd raw = 2 ↔ rdBits raw = 2 := by
    rw [cRd_eq]
    exact regOf_eq_iff
  simp only [hsp]
  split_ifs with hrd hzero hzero
  · exact .rejected ((immAddi16sp_eq_zero raw).mp hzero) rfl
  · refine .expanded (mt (immAddi16sp_eq_zero raw).mpr hzero) _ rfl ?_
    rw [immAddi16sp_eq]
    exact decode32_iType rfl rfl
  · exact .rejected ((cLui_eq_zero raw).mp hzero) rfl
  · refine .expanded (mt (cLui_eq_zero raw).mpr hzero) _ rfl ?_
    refine decode32_of_encode rfl ?_
    rw [encode, cLui_eq, upper_signExtend, cRd_eq]
    rfl

/-- Agreement does not depend on how the reserved halfwords are described. -/
theorem Agrees.congr {reserved reserved' : Prop} {decoded : Option Op} {word : U32}
    (h : Agrees reserved decoded word) (hiff : reserved ↔ reserved') :
    Agrees reserved' decoded word := by
  rcases h with ⟨hres, hnone⟩ | ⟨hres, op, hsome, hword⟩
  · exact .rejected (hiff.mp hres) hnone
  · exact .expanded (mt hiff.mpr hres) op hsome hword

theorem agrees_quadrant1 : Agrees (Reserved1 raw) (decodeQuadrant1 raw) (quadrant1 raw) := by
  unfold Reserved1 decodeQuadrant1 quadrant1
  rw [toNat_code]
  rcases code_cases (raw.extractLsb' 13 3) with h | h | h | h | h | h | h | h <;> rw [h]
  · rw [cImm6_slot, cRd_eq]
    exact .expanded (by simp) _ rfl (decode32_iType rfl rfl)
  · -- `c.addiw`
    rw [cImm6_slot, cRd_eq]
    by_cases hzero : regOf (rdBits raw) = 0
    · exact .rejected (Or.inl ⟨rfl, regOf_eq_zero.mp hzero⟩) (if_pos hzero)
    · exact .expanded (by simpa using mt regOf_eq_zero.mpr hzero) _ (if_neg hzero)
        (decode32_iType rfl rfl)
  · rw [cImm6_slot, cRd_eq]
    exact .expanded (by simp) _ rfl (decode32_iType rfl rfl)
  · exact (agrees_upper raw).congr (by simp)
  · exact (agrees_arithmetic raw).congr (by simp)
  · exact .expanded (by simp) _ rfl (decode32_cj raw)
  · exact .expanded (by simp) _ rfl (decode32_cb raw .eq)
  · exact .expanded (by simp) _ rfl (decode32_cb raw .ne)

/-! ### Quadrant 2 -/

theorem agrees_jump : Agrees (ReservedJump raw) (decodeCJump raw) (jumpMoveAdd raw) := by
  have hbit : field raw 12 0x1 = 0 ↔ raw.extractLsb' 12 1 = 0 := by
    simp [place_eq_zero_iff]
  have hjump : ∀ d : BitVec 5, decode32 (iType 0 (rdBits raw) 0 d JALR) =
      some (.jalr (regOf d) (regOf (rdBits raw)) 0) := by
    intro d
    exact decode32_iType rfl rfl
  unfold ReservedJump decodeCJump jumpMoveAdd
  simp only [hbit, cRs2_eq, cRd_eq, regOf_eq_zero]
  split_ifs with hlink hrs2 hrd hrs2 hrd
  · exact .rejected ⟨hlink, hrs2, hrd⟩ rfl
  · exact .expanded (fun hres => hrd hres.2.2) _ rfl (hjump 0)
  · exact .expanded (fun hres => hrs2 hres.2.1) _ rfl (decode32_opReg ..)
  · exact .expanded (fun hres => hlink hres.1) _ rfl (by decide)
  · exact .expanded (fun hres => hlink hres.1) _ rfl (hjump 1)
  · exact .expanded (fun hres => hlink hres.1) _ rfl (decode32_opReg ..)

theorem agrees_quadrant2 : Agrees (Reserved2 raw) (decodeQuadrant2 raw) (quadrant2 raw) := by
  unfold Reserved2 decodeQuadrant2 quadrant2
  simp only [toNat_code, cRd_eq, regOf_eq_zero, cRs2_eq, immCldsp_eq, immClwsp_eq, immCsdsp_eq,
    immCswsp_eq]
  rcases code_cases (raw.extractLsb' 13 3) with h | h | h | h | h | h | h | h <;> rw [h]
  · exact .expanded (by simp) _ rfl (decode32_shift _ rfl raw)
  · exact .expanded (by simp) _ rfl (decode32_iType rfl rfl)
  · -- `c.lwsp`
    by_cases hzero : rdBits raw = 0
    · exact .rejected (Or.inl ⟨rfl, hzero⟩) (if_pos hzero)
    · exact .expanded (by simpa using hzero) _ (if_neg hzero) (decode32_iType rfl rfl)
  · -- `c.ldsp`
    by_cases hzero : rdBits raw = 0
    · exact .rejected (Or.inr (Or.inl ⟨rfl, hzero⟩)) (if_pos hzero)
    · exact .expanded (by simpa using hzero) _ (if_neg hzero) (decode32_iType rfl rfl)
  · exact (agrees_jump raw).congr (by simp)
  · exact .expanded (by simp) _ rfl (decode32_sType rfl rfl)
  · exact .expanded (by simp) _ rfl (decode32_sType rfl rfl)
  · exact .expanded (by simp) _ rfl (decode32_sType rfl rfl)

/-! ## Halfwords and fetch windows -/

theorem agrees_decode16 (hlow : raw.extractLsb' 0 2 ≠ 3) :
    Agrees (Reserved raw) (decode16 raw) (expansion raw) := by
  have hquadrant : (raw &&& 0x3).toNat = (raw.extractLsb' 0 2).toNat := by
    rw [and_place (k := 2) raw (by decide : _ = place 16 0 _), toNat_place _ (by decide)]
  by_cases hzero : raw = 0
  · subst hzero
    exact .rejected (Or.inl ⟨rfl, Or.inl ⟨rfl, rfl⟩⟩) rfl
  · unfold Reserved decode16 expansion
    rw [if_neg hzero, hquadrant]
    rcases pair_cases (raw.extractLsb' 0 2) with h | h | h | h <;> rw [h]
    · exact (agrees_quadrant0 raw).congr (by simp)
    · exact (agrees_quadrant1 raw).congr (by simp)
    · exact (agrees_quadrant2 raw).congr (by simp)
    · exact absurd h hlow

end

/-- Every opcode ends in two ones. -/
theorem low_of_decode32 {word : U32} {op : Op} (h : decode32 word = some op) : word &&& 3 = 3 := by
  by_contra hlow
  have hopcode : ∀ code : U32, code &&& 3 = 3 → (word &&& 0x7f = code) = False := by
    intro code hcode
    refine eq_false fun heq => hlow ?_
    calc word &&& 3 = (word &&& 0x7f) &&& 3 := by
          rw [BitVec.and_assoc]
          rfl
      _ = 3 := by rw [heq, hcode]
  simp (disch := decide) only [decode32, hopcode, if_false] at h
  cases h

theorem quadrant_ne_three {raw : U32} (hlow : raw &&& 3 ≠ 3) :
    (raw.setWidth 16).extractLsb' 0 2 ≠ 3 := by
  intro hthree
  have hfield : (raw.setWidth 16).extractLsb' 0 2 = raw.extractLsb' 0 2 := by
    have hplace : raw.setWidth 16 = place 16 0 raw := (BitVec.shiftLeft_zero _).symm
    rw [hplace, extract_place _ (by decide) (by decide) (by decide)]
  rw [and_place (k := 2) raw (by decide : _ = place 32 0 _), ← hfield, hthree] at hlow
  exact hlow (by decide)

/-- An operation with an encoding has an even offset, if any. -/
theorem evenOffset_of_encode {op : Op} {word : U32} (h : encode op = some word) :
    op.EvenOffset := by
  intro imm himm
  unfold IsEven
  by_contra hodd
  rw [Bool.not_eq_false] at hodd
  cases op with
  | jal rd imm' | branch cond rs1 rs2 imm' =>
    cases himm
    simp [encode, offset, hodd] at h
  | _ => cases himm

/-- What the decoder promises of an instruction. -/
theorem decode_even {raw : U32} {inst : DecodedInst} (h : decode raw = some inst) :
    IsEven inst.len ∧ inst.op.EvenOffset := by
  unfold decode at h
  split at h
  · obtain ⟨op, hop, rfl⟩ := Option.map_eq_some_iff.mp h
    exact ⟨(rfl : (4 : U64).getLsbD 0 = false), evenOffset_of_encode (encodes_decode32 _ op hop)⟩
  · next hlow =>
    obtain ⟨op, hop, rfl⟩ := Option.map_eq_some_iff.mp h
    refine ⟨(rfl : (2 : U64).getLsbD 0 = false), ?_⟩
    -- A compressed instruction means what its expansion means.
    rcases agrees_decode16 (raw.setWidth 16) (quadrant_ne_three hlow) with
      ⟨-, hnone⟩ | ⟨-, op', hsome, hword⟩
    · exact nomatch hnone.symm.trans hop
    · obtain rfl : op' = op := Option.some.inj (hsome.symm.trans hop)
      exact evenOffset_of_encode (encodes_decode32 _ op' hword)

/-- A fetch window with a compressed instruction is decoded by its lower half alone: it is rejected
exactly when that is reserved, and is otherwise the two-byte form of its expansion. -/
theorem decode_compressed (raw : U32) (hlow : raw &&& 3 ≠ 3) :
    (decode raw = none ↔ Reserved (raw.setWidth 16)) ∧
    ∀ inst, decode raw = some inst →
      inst.len = 2 ∧ decode (expansion (raw.setWidth 16)) = some { inst with len := 4 } := by
  rw [decode, if_neg hlow]
  rcases agrees_decode16 (raw.setWidth 16) (quadrant_ne_three hlow) with
    ⟨hres, hnone⟩ | ⟨hres, op, hsome, hword⟩
  · rw [hnone]
    exact ⟨iff_of_true rfl hres, by simp⟩
  · rw [hsome]
    refine ⟨iff_of_false (Option.some_ne_none _) hres, fun inst hinst => ?_⟩
    cases hinst
    refine ⟨rfl, ?_⟩
    rw [decode, if_pos (low_of_decode32 hword), hword]
    rfl

/-- `c.addi16sp -512`, below an unrelated upper half. -/
theorem decode_compressed_addi16sp : decode (expansion 0x7101) = some ⟨.opImm .add 2 2 (-512), 4⟩ :=
  ((decode_compressed 0xabcd7101 (by decide)).2 ⟨.opImm .add 2 2 (-512), 2⟩ (by decide)).2

end Decode

end EmulateComputer
