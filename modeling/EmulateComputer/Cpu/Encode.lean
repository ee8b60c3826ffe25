import EmulateComputer.Cpu.Decode
import EmulateComputer.Lib.BitFields

/-!
# Encode — the architecture's encodings of the 32-bit instructions

The instruction formats, and for every operation the word that stands for it, written from the
instruction tables and not from the decoder: RV64IMAFD with Zicsr and Zifencei, Zbb, Zbc, Zbkb,
Zknd, Zkne and Zknh, and the privileged instructions.  An operation no instruction stands for, such
as a shift by 64 or an `addi` of a 13-bit constant, has no encoding.

`ignored` are the bits hardware disregards: the operands of `fence` and `fence.i`, and the ordering
bits of the atomics, which mean nothing to a single hart.
-/

namespace EmulateComputer

namespace Encode

open BitFields (place)

/-! ## Formats -/

def rType (funct7 : BitVec 7) (rs2 rs1 : BitVec 5) (funct3 : BitVec 3) (rd : BitVec 5)
    (opcode : BitVec 7) : U32 :=
  place 32 25 funct7 ||| place 32 20 rs2 ||| place 32 15 rs1 ||| place 32 12 funct3 |||
    place 32 7 rd ||| place 32 0 opcode

/-- The immediate lies where `funct7` and `rs2` lie. -/
def iType (imm : BitVec 12) (rs1 : BitVec 5) (funct3 : BitVec 3) (rd : BitVec 5)
    (opcode : BitVec 7) : U32 :=
  rType (imm.extractLsb' 5 7) (imm.extractLsb' 0 5) rs1 funct3 rd opcode

/-- The immediate lies where `funct7` and `rd` lie. -/
def sType (imm : BitVec 12) (rs2 rs1 : BitVec 5) (funct3 : BitVec 3) (opcode : BitVec 7) : U32 :=
  rType (imm.extractLsb' 5 7) rs2 rs1 funct3 (imm.extractLsb' 0 5) opcode

/-- `imm[12|10:5]` and `imm[4:1|11]`. -/
def bType (imm : BitVec 13) (rs2 rs1 : BitVec 5) (funct3 : BitVec 3) (opcode : BitVec 7) : U32 :=
  rType (place 7 6 (imm.extractLsb' 12 1) ||| place 7 0 (imm.extractLsb' 5 6)) rs2 rs1 funct3
    (place 5 1 (imm.extractLsb' 1 4) ||| place 5 0 (imm.extractLsb' 11 1)) opcode

/-- Bits 31 to 12 of the value. -/
def uType (imm : BitVec 20) (rd : BitVec 5) (opcode : BitVec 7) : U32 :=
  rType (imm.extractLsb' 13 7) (imm.extractLsb' 8 5) (imm.extractLsb' 3 5) (imm.extractLsb' 0 3) rd
    opcode

/-- `imm[20|10:1|11|19:12]`. -/
def jType (imm : BitVec 21) (rd : BitVec 5) (opcode : BitVec 7) : U32 :=
  rType (place 7 6 (imm.extractLsb' 20 1) ||| place 7 0 (imm.extractLsb' 5 6))
    (place 5 1 (imm.extractLsb' 1 4) ||| place 5 0 (imm.extractLsb' 11 1))
    (imm.extractLsb' 15 5) (imm.extractLsb' 12 3) rd opcode

/-! ## Operands -/

def regBits (r : Reg) : BitVec 5 :=
  BitVec.ofFin r

/-- An immediate that is the sign extension of its low `n` bits. -/
def signed (n : Nat) (imm : U64) : Option (BitVec n) :=
  if (imm.setWidth n).signExtend 64 = imm then some (imm.setWidth n) else none

/-- An immediate of `n` bits. -/
def unsigned (n : Nat) {w : Nat} (imm : BitVec w) : Option (BitVec n) :=
  if (imm.setWidth n).setWidth w = imm then some (imm.setWidth n) else none

/-- A signed offset in multiples of two bytes. -/
def offset (n : Nat) (imm : U64) : Option (BitVec n) :=
  if imm.getLsbD 0 then none else signed n imm

/-- The upper bits of a 32-bit constant whose lower twelve are zero. -/
def upper (imm : U64) : Option (BitVec 20) :=
  if (place 32 12 (imm.extractLsb' 12 20)).signExtend 64 = imm then
    some (imm.extractLsb' 12 20)
  else none

/-! ## Opcodes and function codes -/

def LOAD : BitVec 7 := 0x03
def LOAD_FP : BitVec 7 := 0x07
def MISC_MEM : BitVec 7 := 0x0f
def OP_IMM : BitVec 7 := 0x13
def AUIPC : BitVec 7 := 0x17
def OP_IMM_32 : BitVec 7 := 0x1b
def STORE : BitVec 7 := 0x23
def STORE_FP : BitVec 7 := 0x27
def AMO : BitVec 7 := 0x2f
def OP : BitVec 7 := 0x33
def LUI : BitVec 7 := 0x37
def OP_32 : BitVec 7 := 0x3b
def MADD : BitVec 7 := 0x43
def MSUB : BitVec 7 := 0x47
def NMSUB : BitVec 7 := 0x4b
def NMADD : BitVec 7 := 0x4f
def OP_FP : BitVec 7 := 0x53
def BRANCH : BitVec 7 := 0x63
def JALR : BitVec 7 := 0x67
def JAL : BitVec 7 := 0x6f
def SYSTEM : BitVec 7 := 0x73

def branchFunct3 : BranchCond → BitVec 3
  | .eq => 0
  | .ne => 1
  | .lt => 4
  | .ge => 5
  | .ltu => 6
  | .geu => 7

def loadFunct3 : LoadKind → BitVec 3
  | .b => 0
  | .h => 1
  | .w => 2
  | .d => 3
  | .bu => 4
  | .hu => 5
  | .wu => 6

def storeFunct3 : StoreKind → BitVec 3
  | .b => 0
  | .h => 1
  | .w => 2
  | .d => 3

def csrFunct3 : CsrOp → BitVec 3
  | .rw => 1
  | .rs => 2
  | .rc => 3
  | .rwi => 5
  | .rsi => 6
  | .rci => 7

def amoFunct3 : AmoWidth → BitVec 3
  | .w => 2
  | .d => 3

def amoFunct5 : AmoOp → BitVec 5
  | .add => 0x00
  | .swap => 0x01
  | .xor => 0x04
  | .or => 0x08
  | .and => 0x0c
  | .min => 0x10
  | .max => 0x14
  | .minu => 0x18
  | .maxu => 0x1c

/-- `funct7` and `funct3` of the integer operations. -/
def aluFunct : AluOp → BitVec 7 × BitVec 3
  | .add => (0x00, 0)
  | .sub => (0x20, 0)
  | .sll => (0x00, 1)
  | .slt => (0x00, 2)
  | .sltu => (0x00, 3)
  | .xor => (0x00, 4)
  | .srl => (0x00, 5)
  | .sra => (0x20, 5)
  | .or => (0x00, 6)
  | .and => (0x00, 7)
  | .mul => (0x01, 0)
  | .mulh => (0x01, 1)
  | .mulhsu => (0x01, 2)
  | .mulhu => (0x01, 3)
  | .div => (0x01, 4)
  | .divu => (0x01, 5)
  | .rem => (0x01, 6)
  | .remu => (0x01, 7)

def hasWordForm : AluOp → Bool
  | .add | .sub | .sll | .srl | .sra | .mul | .div | .divu | .rem | .remu => true
  | _ => false

/-- Opcode, `funct7` and `funct3` of the register-register forms of Zbb, Zbc, Zbkb, Zknd, Zkne. -/
def bitFunct : BitOp → BitVec 7 × BitVec 7 × BitVec 3
  | .andn => (OP, 0x20, 7)
  | .orn => (OP, 0x20, 6)
  | .xnor => (OP, 0x20, 4)
  | .clmul => (OP, 0x05, 1)
  | .clmulr => (OP, 0x05, 2)
  | .clmulh => (OP, 0x05, 3)
  | .min => (OP, 0x05, 4)
  | .minu => (OP, 0x05, 5)
  | .max => (OP, 0x05, 6)
  | .maxu => (OP, 0x05, 7)
  | .rol => (OP, 0x30, 1)
  | .ror => (OP, 0x30, 5)
  | .rolw => (OP_32, 0x30, 1)
  | .rorw => (OP_32, 0x30, 5)
  | .pack => (OP, 0x04, 4)
  | .packh => (OP, 0x04, 7)
  | .packw => (OP_32, 0x04, 4)
  | .aes64es => (OP, 0x19, 0)
  | .aes64esm => (OP, 0x1b, 0)
  | .aes64ds => (OP, 0x1d, 0)
  | .aes64dsm => (OP, 0x1f, 0)
  | .aes64ks2 => (OP, 0x3f, 0)

/-- Opcode, `funct12` and `funct3` of the one-operand forms. -/
def bitUnaryFunct : BitUnaryOp → BitVec 7 × BitVec 12 × BitVec 3
  | .clz => (OP_IMM, 0x600, 1)
  | .ctz => (OP_IMM, 0x601, 1)
  | .cpop => (OP_IMM, 0x602, 1)
  | .sextB => (OP_IMM, 0x604, 1)
  | .sextH => (OP_IMM, 0x605, 1)
  | .clzw => (OP_IMM_32, 0x600, 1)
  | .ctzw => (OP_IMM_32, 0x601, 1)
  | .cpopw => (OP_IMM_32, 0x602, 1)
  | .orcB => (OP_IMM, 0x287, 5)
  | .rev8 => (OP_IMM, 0x6b8, 5)
  | .brev8 => (OP_IMM, 0x687, 5)
  | .aes64im => (OP_IMM, 0x300, 1)
  | .sha256sum0 => (OP_IMM, 0x100, 1)
  | .sha256sum1 => (OP_IMM, 0x101, 1)
  | .sha256sig0 => (OP_IMM, 0x102, 1)
  | .sha256sig1 => (OP_IMM, 0x103, 1)
  | .sha512sum0 => (OP_IMM, 0x104, 1)
  | .sha512sum1 => (OP_IMM, 0x105, 1)
  | .sha512sig0 => (OP_IMM, 0x106, 1)
  | .sha512sig1 => (OP_IMM, 0x107, 1)

/-! ## Floating point -/

def fpWidth : FpSize → BitVec 3
  | .s => 2
  | .d => 3

def fmtBits : FpSize → BitVec 2
  | .s => 0
  | .d => 1

/-- The codes of an operation under OP-FP; a fixed `rs2` or `rm` selects among operations. -/
structure FpCode where
  funct5 : BitVec 5
  rs2 : Option (BitVec 5)
  rm : Option (BitVec 3)

def fpCode (sz : FpSize) : FpOp → Option FpCode
  | .add => some ⟨0x00, none, none⟩
  | .sub => some ⟨0x01, none, none⟩
  | .mul => some ⟨0x02, none, none⟩
  | .div => some ⟨0x03, none, none⟩
  | .sqrt => some ⟨0x0b, some 0, none⟩
  | .sgnj => some ⟨0x04, none, some 0⟩
  | .sgnjn => some ⟨0x04, none, some 1⟩
  | .sgnjx => some ⟨0x04, none, some 2⟩
  | .min => some ⟨0x05, none, some 0⟩
  | .max => some ⟨0x05, none, some 1⟩
  | .cvtWFmt => some ⟨0x18, some 0, none⟩
  | .cvtWuFmt => some ⟨0x18, some 1, none⟩
  | .cvtLFmt => some ⟨0x18, some 2, none⟩
  | .cvtLuFmt => some ⟨0x18, some 3, none⟩
  | .cvtFmtW => some ⟨0x1a, some 0, none⟩
  | .cvtFmtWu => some ⟨0x1a, some 1, none⟩
  | .cvtFmtL => some ⟨0x1a, some 2, none⟩
  | .cvtFmtLu => some ⟨0x1a, some 3, none⟩
  -- `fcvt.s.d` and `fcvt.d.s`: `rs2` names the source format.
  | .cvtFmtFmt => some ⟨0x08, some (match sz with | .s => 1 | .d => 0), none⟩
  | .mvXFmt => some ⟨0x1c, some 0, some 0⟩
  | .class => some ⟨0x1c, some 0, some 1⟩
  | .mvFmtX => some ⟨0x1e, some 0, some 0⟩
  | .eq => some ⟨0x14, none, some 2⟩
  | .lt => some ⟨0x14, none, some 1⟩
  | .le => some ⟨0x14, none, some 0⟩
  | .madd | .msub | .nmsub | .nmadd => none

def fusedOpcode : FpOp → Option (BitVec 7)
  | .madd => some MADD
  | .msub => some MSUB
  | .nmsub => some NMSUB
  | .nmadd => some NMADD
  | _ => none

/-- The function field of the floating-point forms: a five-bit code over the format. -/
def fpFunct (code : BitVec 5) (sz : FpSize) : BitVec 7 :=
  place 7 2 code ||| place 7 0 (fmtBits sz)

def encodeFp (op : FpOp) (sz : FpSize) (rd rs1 rs2 rs3 : Reg) (rm : U8) : Option U32 :=
  (unsigned 3 rm).bind fun rm =>
    match fpCode sz op with
    | some code =>
      if rs3 = 0 ∧ code.rs2.getD (regBits rs2) = regBits rs2 ∧ code.rm.getD rm = rm then
        some (rType (fpFunct code.funct5 sz) (regBits rs2) (regBits rs1) rm (regBits rd) OP_FP)
      else none
    | none =>
      (fusedOpcode op).map fun opcode =>
        rType (fpFunct (regBits rs3) sz) (regBits rs2) (regBits rs1) rm (regBits rd) opcode

/-! ## The encoding of an operation -/

/-- A shift by an immediate: the upper six bits of `funct7`, then six bits of amount. -/
def shift64 (kind : AluOp) (shamt : BitVec 6) (rs1 rd : Reg) : U32 :=
  iType (place 12 6 ((aluFunct kind).1.extractLsb' 1 6) ||| place 12 0 shamt) (regBits rs1)
    (aluFunct kind).2 (regBits rd) OP_IMM

def encodeOpImm (kind : AluOp) (rd rs1 : Reg) (imm : U64) : Option U32 :=
  match kind with
  | .add | .slt | .sltu | .xor | .or | .and =>
    (signed 12 imm).map fun imm => iType imm (regBits rs1) (aluFunct kind).2 (regBits rd) OP_IMM
  | .sll | .srl | .sra => (unsigned 6 imm).map fun shamt => shift64 kind shamt rs1 rd
  | _ => none

def encodeOpImm32 (kind : AluOp) (rd rs1 : Reg) (imm : U64) : Option U32 :=
  match kind with
  | .add =>
    (signed 12 imm).map fun imm =>
      iType imm (regBits rs1) (aluFunct kind).2 (regBits rd) OP_IMM_32
  | .sll | .srl | .sra =>
    (unsigned 5 imm).map fun shamt =>
      rType (aluFunct kind).1 shamt (regBits rs1) (aluFunct kind).2 (regBits rd) OP_IMM_32
  | _ => none

def encodeBitImm (kind : BitImmOp) (rd rs1 : Reg) (imm : U32) : Option U32 :=
  match kind with
  | .rori =>
    (unsigned 6 imm).map fun shamt =>
      iType (place 12 6 (0x18 : BitVec 6) ||| place 12 0 shamt) (regBits rs1) 5 (regBits rd) OP_IMM
  | .roriw =>
    (unsigned 5 imm).map fun shamt =>
      rType 0x30 shamt (regBits rs1) 5 (regBits rd) OP_IMM_32
  | .aes64ks1i =>
    if imm ≤ 10 then
      some (iType (place 12 4 (0x31 : BitVec 8) ||| place 12 0 (imm.setWidth 4)) (regBits rs1) 1
        (regBits rd) OP_IMM)
    else none

/-- The word that stands for an operation, with zeros in the ignored bits. -/
def encode : Op → Option U32
  | .lui rd imm => (upper imm).map fun imm => uType imm (regBits rd) LUI
  | .auipc rd imm => (upper imm).map fun imm => uType imm (regBits rd) AUIPC
  | .jal rd imm => (offset 21 imm).map fun imm => jType imm (regBits rd) JAL
  | .jalr rd rs1 imm =>
    (signed 12 imm).map fun imm => iType imm (regBits rs1) 0 (regBits rd) JALR
  | .branch cond rs1 rs2 imm =>
    (offset 13 imm).map fun imm =>
      bType imm (regBits rs2) (regBits rs1) (branchFunct3 cond) BRANCH
  | .load kind rd rs1 imm =>
    (signed 12 imm).map fun imm => iType imm (regBits rs1) (loadFunct3 kind) (regBits rd) LOAD
  | .store kind rs1 rs2 imm =>
    (signed 12 imm).map fun imm =>
      sType imm (regBits rs2) (regBits rs1) (storeFunct3 kind) STORE
  | .opImm kind rd rs1 imm => encodeOpImm kind rd rs1 imm
  | .opImm32 kind rd rs1 imm => encodeOpImm32 kind rd rs1 imm
  | .opReg kind rd rs1 rs2 =>
    some (rType (aluFunct kind).1 (regBits rs2) (regBits rs1) (aluFunct kind).2 (regBits rd) OP)
  | .opReg32 kind rd rs1 rs2 =>
    if hasWordForm kind then
      some (rType (aluFunct kind).1 (regBits rs2) (regBits rs1) (aluFunct kind).2 (regBits rd)
        OP_32)
    else none
  | .bit kind rd rs1 rs2 =>
    some (rType (bitFunct kind).2.1 (regBits rs2) (regBits rs1) (bitFunct kind).2.2 (regBits rd)
      (bitFunct kind).1)
  | .bitUnary kind rd rs1 =>
    some (iType (bitUnaryFunct kind).2.1 (regBits rs1) (bitUnaryFunct kind).2.2 (regBits rd)
      (bitUnaryFunct kind).1)
  | .bitImm kind rd rs1 imm => encodeBitImm kind rd rs1 imm
  | .fence => some (iType 0 0 0 0 MISC_MEM)
  | .fenceI => some (iType 0 0 1 0 MISC_MEM)
  | .ecall => some (iType 0x000 0 0 0 SYSTEM)
  | .ebreak => some (iType 0x001 0 0 0 SYSTEM)
  | .csr kind rd rs1 csr => some (iType csr (regBits rs1) (csrFunct3 kind) (regBits rd) SYSTEM)
  | .mret => some (iType 0x302 0 0 0 SYSTEM)
  | .sret => some (iType 0x102 0 0 0 SYSTEM)
  | .wfi => some (iType 0x105 0 0 0 SYSTEM)
  | .sfenceVma rs1 rs2 => some (rType 0x09 (regBits rs2) (regBits rs1) 0 0 SYSTEM)
  | .lr width rd rs1 =>
    some (rType (place 7 2 (0x02 : BitVec 5)) 0 (regBits rs1) (amoFunct3 width) (regBits rd) AMO)
  | .sc width rd rs1 rs2 =>
    some (rType (place 7 2 (0x03 : BitVec 5)) (regBits rs2) (regBits rs1) (amoFunct3 width)
      (regBits rd) AMO)
  | .amo op width rd rs1 rs2 =>
    some (rType (place 7 2 (amoFunct5 op)) (regBits rs2) (regBits rs1) (amoFunct3 width)
      (regBits rd) AMO)
  | .fpLoad sz frd rs1 imm =>
    (signed 12 imm).map fun imm => iType imm (regBits rs1) (fpWidth sz) (regBits frd) LOAD_FP
  | .fpStore sz rs1 frs2 imm =>
    (signed 12 imm).map fun imm => sType imm (regBits frs2) (regBits rs1) (fpWidth sz) STORE_FP
  | .fp op sz rd rs1 rs2 rs3 rm => encodeFp op sz rd rs1 rs2 rs3 rm

/-- The bits of an instruction that hardware disregards. -/
def ignored : Op → U32
  | .fence | .fenceI => 0xffff8f80
  | .lr .. | .sc .. | .amo .. => 0x06000000
  | _ => 0

end Encode

end EmulateComputer
