import EmulateComputer.Cpu.Bitmanip
import EmulateComputer.Cpu.Csr

/-!
# Decode — raw instruction bits to operations

`decode` reads a 32-bit fetch window.  Low bits `11` mean a 32-bit instruction; anything else is
a compressed instruction, expanded to the same operations.  Illegal encodings answer `none`.
-/

namespace EmulateComputer

inductive BranchCond
  | eq | ne | lt | ge | ltu | geu
  deriving DecidableEq, Repr

inductive LoadKind
  | b | h | w | d | bu | hu | wu
  deriving DecidableEq, Repr

inductive StoreKind
  | b | h | w | d
  deriving DecidableEq, Repr

/-- Integer ALU operations, shared by the immediate, register and 32-bit forms. -/
inductive AluOp
  | add | sub | sll | slt | sltu | xor | srl | sra | or | and
  | mul | mulh | mulhsu | mulhu | div | divu | rem | remu
  deriving DecidableEq, Repr

inductive CsrOp
  | rw | rs | rc | rwi | rsi | rci
  deriving DecidableEq, Repr

inductive AmoWidth
  | w | d
  deriving DecidableEq, Repr

inductive AmoOp
  | swap | add | xor | and | or | min | max | minu | maxu
  deriving DecidableEq, Repr

inductive FpSize
  | s | d
  deriving DecidableEq, Repr

inductive FpOp
  | add | sub | mul | div | sqrt
  | sgnj | sgnjn | sgnjx | min | max
  | madd | msub | nmsub | nmadd
  | cvtWFmt | cvtWuFmt | cvtLFmt | cvtLuFmt
  | cvtFmtW | cvtFmtWu | cvtFmtL | cvtFmtLu
  | cvtFmtFmt | mvXFmt | mvFmtX | «class» | eq | lt | le
  deriving DecidableEq, Repr

abbrev Reg := Fin 32

/-- Decoded operations; immediates are the two's complement words they are added as. -/
inductive Op
  | lui (rd : Reg) (imm : U64)
  | auipc (rd : Reg) (imm : U64)
  | jal (rd : Reg) (imm : U64)
  | jalr (rd rs1 : Reg) (imm : U64)
  | branch (cond : BranchCond) (rs1 rs2 : Reg) (imm : U64)
  | load (kind : LoadKind) (rd rs1 : Reg) (imm : U64)
  | store (kind : StoreKind) (rs1 rs2 : Reg) (imm : U64)
  | opImm (kind : AluOp) (rd rs1 : Reg) (imm : U64)
  | opImm32 (kind : AluOp) (rd rs1 : Reg) (imm : U64)
  | opReg (kind : AluOp) (rd rs1 rs2 : Reg)
  | opReg32 (kind : AluOp) (rd rs1 rs2 : Reg)
  | bit (kind : BitOp) (rd rs1 rs2 : Reg)
  | bitUnary (kind : BitUnaryOp) (rd rs1 : Reg)
  | bitImm (kind : BitImmOp) (rd rs1 : Reg) (imm : U32)
  | fence
  | fenceI
  | ecall
  | ebreak
  /-- For the immediate forms, `rs1` is the 5-bit immediate. -/
  | csr (kind : CsrOp) (rd rs1 : Reg) (csr : CsrAddr)
  | mret
  | sret
  | wfi
  | sfenceVma (rs1 rs2 : Reg)
  | lr (width : AmoWidth) (rd rs1 : Reg)
  | sc (width : AmoWidth) (rd rs1 rs2 : Reg)
  | amo (op : AmoOp) (width : AmoWidth) (rd rs1 rs2 : Reg)
  | fpLoad (sz : FpSize) (frd rs1 : Reg) (imm : U64)
  | fpStore (sz : FpSize) (rs1 frs2 : Reg) (imm : U64)
  /-- The roles of the registers depend on `op`; rounding mode 7 is dynamic. -/
  | fp (op : FpOp) (sz : FpSize) (rd rs1 rs2 rs3 : Reg) (rm : U8)
  deriving DecidableEq, Repr

structure DecodedInst where
  op : Op
  /-- 2 or 4. -/
  len : U64
  deriving DecidableEq, Repr

namespace Decode

/-- `(raw >> lo) & mask`. -/
def field {w : Nat} (raw : BitVec w) (lo : Nat) (mask : BitVec w) : BitVec w :=
  (raw >>> lo) &&& mask

theorem toNat_field_le {w : Nat} (raw : BitVec w) (lo : Nat) (mask : BitVec w) :
    (field raw lo mask).toNat ≤ mask.toNat := by
  exact Nat.and_le_right

def regField (raw : U32) (lo : Nat) : Reg :=
  ⟨(field raw lo 0x1f).toNat, Nat.lt_succ_of_le (toNat_field_le raw lo 0x1f)⟩

/-! ## Fields and immediates of 32-bit instructions -/

def rd (raw : U32) : Reg := regField raw 7
def rs1 (raw : U32) : Reg := regField raw 15
def rs2 (raw : U32) : Reg := regField raw 20
def rs3 (raw : U32) : Reg := regField raw 27
def funct3 (raw : U32) : U32 := field raw 12 0x7
def funct7 (raw : U32) : U32 := field raw 25 0x7f

def immI (raw : U32) : U64 :=
  (raw.sshiftRight 20).signExtend 64

def immS (raw : U32) : U64 :=
  ((raw &&& 0xfe000000).sshiftRight 20).signExtend 64 ||| (field raw 7 0x1f).setWidth 64

def immB (raw : U32) : U64 :=
  ((raw &&& 0x80000000).sshiftRight 19).signExtend 64 |||
    (field raw 25 0x3f <<< 5).setWidth 64 |||
    (field raw 8 0xf <<< 1).setWidth 64 |||
    (field raw 7 0x1 <<< 11).setWidth 64

def immU (raw : U32) : U64 :=
  (raw &&& 0xfffff000).signExtend 64

def immJ (raw : U32) : U64 :=
  ((raw &&& 0x80000000).sshiftRight 11).signExtend 64 |||
    (field raw 21 0x3ff <<< 1).setWidth 64 |||
    (field raw 20 0x1 <<< 11).setWidth 64 |||
    (field raw 12 0xff <<< 12).setWidth 64

/-! ## Opcode tables -/

def opBitKind (funct7 funct3 : Nat) (w : Bool) : Option BitOp :=
  match funct7, funct3, w with
  | 0x20, 7, false => some .andn
  | 0x20, 6, false => some .orn
  | 0x20, 4, false => some .xnor
  | 0x05, 4, false => some .min
  | 0x05, 5, false => some .minu
  | 0x05, 6, false => some .max
  | 0x05, 7, false => some .maxu
  | 0x05, 1, false => some .clmul
  | 0x05, 2, false => some .clmulr
  | 0x05, 3, false => some .clmulh
  | 0x30, 1, false => some .rol
  | 0x30, 5, false => some .ror
  | 0x30, 1, true => some .rolw
  | 0x30, 5, true => some .rorw
  | 0x04, 4, false => some .pack
  | 0x04, 7, false => some .packh
  | 0x04, 4, true => some .packw
  | 0x19, 0, false => some .aes64es
  | 0x1b, 0, false => some .aes64esm
  | 0x1d, 0, false => some .aes64ds
  | 0x1f, 0, false => some .aes64dsm
  | 0x3f, 0, false => some .aes64ks2
  | _, _, _ => none

/-- Register-register forms sharing the OP (`w = false`) and OP-32 opcodes. -/
def decodeOpBit (raw : U32) (w : Bool) : Option Op :=
  (opBitKind (funct7 raw).toNat (funct3 raw).toNat w).map
    fun kind => .bit kind (rd raw) (rs1 raw) (rs2 raw)

def opImmBitKind (funct3 funct12 : Nat) : Option BitUnaryOp :=
  match funct3, funct12 with
  | 1, 0x600 => some .clz
  | 1, 0x601 => some .ctz
  | 1, 0x602 => some .cpop
  | 1, 0x604 => some .sextB
  | 1, 0x605 => some .sextH
  | 5, 0x287 => some .orcB
  | 5, 0x6b8 => some .rev8
  | 5, 0x687 => some .brev8
  | 1, 0x300 => some .aes64im
  | 1, 0x100 => some .sha256sum0
  | 1, 0x101 => some .sha256sum1
  | 1, 0x102 => some .sha256sig0
  | 1, 0x103 => some .sha256sig1
  | 1, 0x104 => some .sha512sum0
  | 1, 0x105 => some .sha512sum1
  | 1, 0x106 => some .sha512sig0
  | 1, 0x107 => some .sha512sig1
  | _, _ => none

/-- OP-IMM forms with a fixed `funct12`, and `aes64ks1i` with its round number. -/
def decodeOpImmBit (raw : U32) : Option Op :=
  let funct12 := raw >>> 20
  if funct3 raw = 1 ∧ funct12 >>> 4 = 0x31 then
    let rnum := funct12 &&& 0xf
    if 0xa < rnum then none else some (.bitImm .aes64ks1i (rd raw) (rs1 raw) rnum)
  else
    (opImmBitKind (funct3 raw).toNat funct12.toNat).map
      fun kind => .bitUnary kind (rd raw) (rs1 raw)

def branchCond (funct3 : Nat) : Option BranchCond :=
  match funct3 with
  | 0 => some .eq
  | 1 => some .ne
  | 4 => some .lt
  | 5 => some .ge
  | 6 => some .ltu
  | 7 => some .geu
  | _ => none

def loadKind (funct3 : Nat) : Option LoadKind :=
  match funct3 with
  | 0 => some .b
  | 1 => some .h
  | 2 => some .w
  | 3 => some .d
  | 4 => some .bu
  | 5 => some .hu
  | 6 => some .wu
  | _ => none

def storeKind (funct3 : Nat) : Option StoreKind :=
  match funct3 with
  | 0 => some .b
  | 1 => some .h
  | 2 => some .w
  | 3 => some .d
  | _ => none

/-- The operations of OP-IMM that take the I-immediate. -/
def opImmKind (funct3 : Nat) : Option AluOp :=
  match funct3 with
  | 0 => some .add
  | 2 => some .slt
  | 3 => some .sltu
  | 4 => some .xor
  | 6 => some .or
  | 7 => some .and
  | _ => none

def decodeOpImm (raw : U32) : Option Op :=
  let shamt := field raw 20 0x3f
  let shift (kind : AluOp) : Option Op := some (.opImm kind (rd raw) (rs1 raw) (shamt.setWidth 64))
  if funct3 raw = 1 then
    if raw >>> 26 = 0x00 then shift .sll else decodeOpImmBit raw
  else if funct3 raw = 5 then
    if raw >>> 26 = 0x00 then shift .srl
    else if raw >>> 26 = 0x10 then shift .sra
    else if raw >>> 26 = 0x18 then some (.bitImm .rori (rd raw) (rs1 raw) shamt)
    else decodeOpImmBit raw
  else
    (opImmKind (funct3 raw).toNat).map fun kind => .opImm kind (rd raw) (rs1 raw) (immI raw)

def countWKind (sel : Nat) : Option BitUnaryOp :=
  match sel with
  | 0 => some .clzw
  | 1 => some .ctzw
  | 2 => some .cpopw
  | _ => none

def decodeOpImm32 (raw : U32) : Option Op :=
  let shamt := field raw 20 0x1f
  let shift (kind : AluOp) : Option Op :=
    some (.opImm32 kind (rd raw) (rs1 raw) (shamt.setWidth 64))
  if funct3 raw = 0 then some (.opImm32 .add (rd raw) (rs1 raw) (immI raw))
  else if funct3 raw = 1 then
    if funct7 raw = 0x00 then shift .sll
    else if funct7 raw = 0x30 then
      (countWKind shamt.toNat).map fun kind => .bitUnary kind (rd raw) (rs1 raw)
    else none
  else if funct3 raw = 5 then
    if funct7 raw = 0x00 then shift .srl
    else if funct7 raw = 0x20 then shift .sra
    else if funct7 raw = 0x30 then some (.bitImm .roriw (rd raw) (rs1 raw) shamt)
    else none
  else none

def opRegKind (funct7 funct3 : Nat) : Option AluOp :=
  match funct7, funct3 with
  | 0x00, 0 => some .add
  | 0x20, 0 => some .sub
  | 0x00, 1 => some .sll
  | 0x00, 2 => some .slt
  | 0x00, 3 => some .sltu
  | 0x00, 4 => some .xor
  | 0x00, 5 => some .srl
  | 0x20, 5 => some .sra
  | 0x00, 6 => some .or
  | 0x00, 7 => some .and
  | 0x01, 0 => some .mul
  | 0x01, 1 => some .mulh
  | 0x01, 2 => some .mulhsu
  | 0x01, 3 => some .mulhu
  | 0x01, 4 => some .div
  | 0x01, 5 => some .divu
  | 0x01, 6 => some .rem
  | 0x01, 7 => some .remu
  | _, _ => none

def opReg32Kind (funct7 funct3 : Nat) : Option AluOp :=
  match funct7, funct3 with
  | 0x00, 0 => some .add
  | 0x20, 0 => some .sub
  | 0x00, 1 => some .sll
  | 0x00, 5 => some .srl
  | 0x20, 5 => some .sra
  | 0x01, 0 => some .mul
  | 0x01, 4 => some .div
  | 0x01, 5 => some .divu
  | 0x01, 6 => some .rem
  | 0x01, 7 => some .remu
  | _, _ => none

def decodeOp (raw : U32) : Option Op :=
  match opRegKind (funct7 raw).toNat (funct3 raw).toNat with
  | some kind => some (.opReg kind (rd raw) (rs1 raw) (rs2 raw))
  | none => decodeOpBit raw false

def decodeOp32 (raw : U32) : Option Op :=
  match opReg32Kind (funct7 raw).toNat (funct3 raw).toNat with
  | some kind => some (.opReg32 kind (rd raw) (rs1 raw) (rs2 raw))
  | none => decodeOpBit raw true

def csrKind (funct3 : Nat) : Option CsrOp :=
  match funct3 with
  | 1 => some .rw
  | 2 => some .rs
  | 3 => some .rc
  | 5 => some .rwi
  | 6 => some .rsi
  | 7 => some .rci
  | _ => none

def decodeSystem (raw : U32) : Option Op :=
  if funct3 raw = 0 then
    if raw = 0x00000073 then some .ecall
    else if raw = 0x00100073 then some .ebreak
    else if raw = 0x10200073 then some .sret
    else if raw = 0x30200073 then some .mret
    else if raw = 0x10500073 then some .wfi
    else if funct7 raw = 0x09 ∧ rd raw = 0 then some (.sfenceVma (rs1 raw) (rs2 raw))
    else none
  else
    (csrKind (funct3 raw).toNat).map
      fun kind => .csr kind (rd raw) (rs1 raw) ((raw >>> 20).setWidth 12)

def amoWidth (funct3 : Nat) : Option AmoWidth :=
  match funct3 with
  | 2 => some .w
  | 3 => some .d
  | _ => none

def amoKind (funct5 : Nat) : Option AmoOp :=
  match funct5 with
  | 0x01 => some .swap
  | 0x00 => some .add
  | 0x04 => some .xor
  | 0x0c => some .and
  | 0x08 => some .or
  | 0x10 => some .min
  | 0x14 => some .max
  | 0x18 => some .minu
  | 0x1c => some .maxu
  | _ => none

def decodeAmo (raw : U32) : Option Op :=
  (amoWidth (funct3 raw).toNat).bind fun width =>
    let funct5 := funct7 raw >>> 2
    if funct5 = 0x02 then
      if rs2 raw ≠ 0 then none else some (.lr width (rd raw) (rs1 raw))
    else if funct5 = 0x03 then some (.sc width (rd raw) (rs1 raw) (rs2 raw))
    else (amoKind funct5.toNat).map fun op => .amo op width (rd raw) (rs1 raw) (rs2 raw)

def fpMemSize (funct3 : Nat) : Option FpSize :=
  match funct3 with
  | 2 => some .s
  | 3 => some .d
  | _ => none

/-- Only single and double precision are supported. -/
def fpFmt (fmt : Nat) : Option FpSize :=
  match fmt with
  | 0 => some .s
  | 1 => some .d
  | _ => none

/-- The operation of OP-FP from its selector, the `funct3` and `rs2` fields and the format. -/
def fpKind (sel funct3 rs2 fmt : Nat) : Option FpOp :=
  match sel with
  | 0x00 => some .add
  | 0x01 => some .sub
  | 0x02 => some .mul
  | 0x03 => some .div
  | 0x0b => if rs2 ≠ 0 then none else some .sqrt
  | 0x04 =>
    match funct3 with
    | 0 => some .sgnj
    | 1 => some .sgnjn
    | 2 => some .sgnjx
    | _ => none
  | 0x05 =>
    match funct3 with
    | 0 => some .min
    | 1 => some .max
    | _ => none
  | 0x18 =>
    match rs2 with
    | 0 => some .cvtWFmt
    | 1 => some .cvtWuFmt
    | 2 => some .cvtLFmt
    | 3 => some .cvtLuFmt
    | _ => none
  | 0x1a =>
    match rs2 with
    | 0 => some .cvtFmtW
    | 1 => some .cvtFmtWu
    | 2 => some .cvtFmtL
    | 3 => some .cvtFmtLu
    | _ => none
  -- The format is the destination, `rs2` names the source.
  | 0x08 => if (fmt = 0 ∧ rs2 = 1) ∨ (fmt = 1 ∧ rs2 = 0) then some .cvtFmtFmt else none
  | 0x1c =>
    if rs2 ≠ 0 then none
    else match funct3 with
      | 0 => some .mvXFmt
      | 1 => some .class
      | _ => none
  | 0x1e => if funct3 = 0 ∧ rs2 = 0 then some .mvFmtX else none
  | 0x14 =>
    match funct3 with
    | 2 => some .eq
    | 1 => some .lt
    | 0 => some .le
    | _ => none
  | _ => none

def decodeOpFp (raw : U32) : Option Op :=
  let fmt := (funct7 raw &&& 0x3).toNat
  (fpFmt fmt).bind fun sz =>
    (fpKind (funct7 raw >>> 2).toNat (funct3 raw).toNat (rs2 raw).val fmt).map fun op =>
      .fp op sz (rd raw) (rs1 raw) (rs2 raw) 0 ((funct3 raw).setWidth 8)

def decodeFused (raw : U32) (op : FpOp) : Option Op :=
  (fpFmt (field raw 25 0x3).toNat).map fun sz =>
    .fp op sz (rd raw) (rs1 raw) (rs2 raw) (rs3 raw) ((funct3 raw).setWidth 8)

def decode32 (raw : U32) : Option Op :=
  let opcode := raw &&& 0x7f
  if opcode = 0x37 then some (.lui (rd raw) (immU raw))
  else if opcode = 0x17 then some (.auipc (rd raw) (immU raw))
  else if opcode = 0x6f then some (.jal (rd raw) (immJ raw))
  else if opcode = 0x67 then
    if funct3 raw = 0 then some (.jalr (rd raw) (rs1 raw) (immI raw)) else none
  else if opcode = 0x63 then
    (branchCond (funct3 raw).toNat).map fun cond => .branch cond (rs1 raw) (rs2 raw) (immB raw)
  else if opcode = 0x03 then
    (loadKind (funct3 raw).toNat).map fun kind => .load kind (rd raw) (rs1 raw) (immI raw)
  else if opcode = 0x23 then
    (storeKind (funct3 raw).toNat).map fun kind => .store kind (rs1 raw) (rs2 raw) (immS raw)
  else if opcode = 0x13 then decodeOpImm raw
  else if opcode = 0x1b then decodeOpImm32 raw
  else if opcode = 0x33 then decodeOp raw
  else if opcode = 0x3b then decodeOp32 raw
  else if opcode = 0x0f then
    if funct3 raw = 0 then some .fence else if funct3 raw = 1 then some .fenceI else none
  else if opcode = 0x73 then decodeSystem raw
  else if opcode = 0x2f then decodeAmo raw
  else if opcode = 0x07 then
    (fpMemSize (funct3 raw).toNat).map fun sz => .fpLoad sz (rd raw) (rs1 raw) (immI raw)
  else if opcode = 0x27 then
    (fpMemSize (funct3 raw).toNat).map fun sz => .fpStore sz (rs1 raw) (rs2 raw) (immS raw)
  else if opcode = 0x43 then decodeFused raw .madd
  else if opcode = 0x47 then decodeFused raw .msub
  else if opcode = 0x4b then decodeFused raw .nmsub
  else if opcode = 0x4f then decodeFused raw .nmadd
  else if opcode = 0x53 then decodeOpFp raw
  else none

/-! ## Compressed instructions -/

def cRegField (raw : U16) (lo : Nat) : Reg :=
  ⟨(field raw lo 0x1f).toNat, Nat.lt_succ_of_le (toNat_field_le raw lo 0x1f)⟩

/-- The registers 8 to 15 of the three-bit fields. -/
def cRegField3 (raw : U16) (lo : Nat) : Reg :=
  ⟨8 + (field raw lo 0x7).toNat, by
    have hle : (field raw lo 0x7).toNat ≤ 7 := toNat_field_le raw lo 0x7
    omega⟩

def cRd (raw : U16) : Reg := cRegField raw 7
def cRs2 (raw : U16) : Reg := cRegField raw 2
def cRegLow (raw : U16) : Reg := cRegField3 raw 2
def cRegHigh (raw : U16) : Reg := cRegField3 raw 7

def sext (value : U64) (bits : Nat) : U64 :=
  (value <<< (64 - bits)).sshiftRight (64 - bits)

def cImm6 (raw : U16) : U64 :=
  sext ((field raw 12 0x1 <<< 5 ||| field raw 2 0x1f).setWidth 64) 6

def cShamt6 (raw : U16) : U64 :=
  (field raw 12 0x1 <<< 5 ||| field raw 2 0x1f).setWidth 64

def immAddi4spn (raw : U16) : U64 :=
  (field raw 11 0x3 <<< 4 ||| field raw 7 0xf <<< 6 ||| field raw 6 0x1 <<< 2 |||
    field raw 5 0x1 <<< 3).setWidth 64

def immCld (raw : U16) : U64 :=
  (field raw 10 0x7 <<< 3 ||| field raw 5 0x3 <<< 6).setWidth 64

def immClw (raw : U16) : U64 :=
  (field raw 10 0x7 <<< 3 ||| field raw 6 0x1 <<< 2 ||| field raw 5 0x1 <<< 6).setWidth 64

def immAddi16sp (raw : U16) : U64 :=
  sext ((field raw 12 0x1 <<< 9 ||| field raw 6 0x1 <<< 4 ||| field raw 5 0x1 <<< 6 |||
    field raw 3 0x3 <<< 7 ||| field raw 2 0x1 <<< 5).setWidth 64) 10

def immCj (raw : U16) : U64 :=
  sext ((field raw 12 0x1 <<< 11 ||| field raw 11 0x1 <<< 4 ||| field raw 9 0x3 <<< 8 |||
    field raw 8 0x1 <<< 10 ||| field raw 7 0x1 <<< 6 ||| field raw 6 0x1 <<< 7 |||
    field raw 3 0x7 <<< 1 ||| field raw 2 0x1 <<< 5).setWidth 64) 12

def immCb (raw : U16) : U64 :=
  sext ((field raw 12 0x1 <<< 8 ||| field raw 10 0x3 <<< 3 ||| field raw 5 0x3 <<< 6 |||
    field raw 3 0x3 <<< 1 ||| field raw 2 0x1 <<< 5).setWidth 64) 9

def immCldsp (raw : U16) : U64 :=
  (field raw 12 0x1 <<< 5 ||| field raw 5 0x3 <<< 3 ||| field raw 2 0x7 <<< 6).setWidth 64

def immClwsp (raw : U16) : U64 :=
  (field raw 12 0x1 <<< 5 ||| field raw 4 0x7 <<< 2 ||| field raw 2 0x3 <<< 6).setWidth 64

def immCsdsp (raw : U16) : U64 :=
  (field raw 10 0x7 <<< 3 ||| field raw 7 0x7 <<< 6).setWidth 64

def immCswsp (raw : U16) : U64 :=
  (field raw 9 0xf <<< 2 ||| field raw 7 0x3 <<< 6).setWidth 64

def decodeQuadrant0 (raw : U16) : Option Op :=
  match (field raw 13 0x7).toNat with
  | 0 =>
    if immAddi4spn raw = 0 then none
    else some (.opImm .add (cRegLow raw) 2 (immAddi4spn raw))
  | 1 => some (.fpLoad .d (cRegLow raw) (cRegHigh raw) (immCld raw))
  | 2 => some (.load .w (cRegLow raw) (cRegHigh raw) (immClw raw))
  | 3 => some (.load .d (cRegLow raw) (cRegHigh raw) (immCld raw))
  | 5 => some (.fpStore .d (cRegHigh raw) (cRegLow raw) (immCld raw))
  | 6 => some (.store .w (cRegHigh raw) (cRegLow raw) (immClw raw))
  | 7 => some (.store .d (cRegHigh raw) (cRegLow raw) (immCld raw))
  | _ => none

def decodeCAlu (raw : U16) : Option Op :=
  let r := cRegHigh raw
  let rs2 := cRegLow raw
  match (field raw 10 0x3).toNat with
  | 0 => some (.opImm .srl r r (cShamt6 raw))
  | 1 => some (.opImm .sra r r (cShamt6 raw))
  | 2 => some (.opImm .and r r (cImm6 raw))
  | _ =>
    match (field raw 12 0x1).toNat, (field raw 5 0x3).toNat with
    | 0, 0 => some (.opReg .sub r r rs2)
    | 0, 1 => some (.opReg .xor r r rs2)
    | 0, 2 => some (.opReg .or r r rs2)
    | 0, 3 => some (.opReg .and r r rs2)
    | 1, 0 => some (.opReg32 .sub r r rs2)
    | 1, 1 => some (.opReg32 .add r r rs2)
    | _, _ => none

def decodeQuadrant1 (raw : U16) : Option Op :=
  let r := cRd raw
  match (field raw 13 0x7).toNat with
  | 0 => some (.opImm .add r r (cImm6 raw))
  | 1 => if r = 0 then none else some (.opImm32 .add r r (cImm6 raw))
  | 2 => some (.opImm .add r 0 (cImm6 raw))
  | 3 =>
    if r = 2 then
      if immAddi16sp raw = 0 then none else some (.opImm .add 2 2 (immAddi16sp raw))
    else if cImm6 raw <<< 12 = 0 then none
    else some (.lui r (cImm6 raw <<< 12))
  | 4 => decodeCAlu raw
  | 5 => some (.jal 0 (immCj raw))
  | 6 => some (.branch .eq (cRegHigh raw) 0 (immCb raw))
  | _ => some (.branch .ne (cRegHigh raw) 0 (immCb raw))

def decodeCJump (raw : U16) : Option Op :=
  let r := cRd raw
  let rs2 := cRs2 raw
  if field raw 12 0x1 = 0 then
    if rs2 = 0 then
      if r = 0 then none else some (.jalr 0 r 0)
    else some (.opReg .add r 0 rs2)
  else if rs2 = 0 then
    if r = 0 then some .ebreak else some (.jalr 1 r 0)
  else some (.opReg .add r r rs2)

def decodeQuadrant2 (raw : U16) : Option Op :=
  let r := cRd raw
  match (field raw 13 0x7).toNat with
  | 0 => some (.opImm .sll r r (cShamt6 raw))
  | 1 => some (.fpLoad .d r 2 (immCldsp raw))
  | 2 => if r = 0 then none else some (.load .w r 2 (immClwsp raw))
  | 3 => if r = 0 then none else some (.load .d r 2 (immCldsp raw))
  | 4 => decodeCJump raw
  | 5 => some (.fpStore .d 2 (cRs2 raw) (immCsdsp raw))
  | 6 => some (.store .w 2 (cRs2 raw) (immCswsp raw))
  | _ => some (.store .d 2 (cRs2 raw) (immCsdsp raw))

def decode16 (raw : U16) : Option Op :=
  if raw = 0 then none
  else
    match (raw &&& 0x3).toNat with
    | 0 => decodeQuadrant0 raw
    | 1 => decodeQuadrant1 raw
    | 2 => decodeQuadrant2 raw
    | _ => none

def decode (raw : U32) : Option DecodedInst :=
  if raw &&& 3 = 3 then
    (decode32 raw).map fun op => { op := op, len := 4 }
  else
    (decode16 (raw.setWidth 16)).map fun op => { op := op, len := 2 }

end Decode

end EmulateComputer
