import EmulateComputer.Cpu.Float
import EmulateComputer.Cpu.Hart

/-!
# Fpu — execution of the F and D extensions

Every floating-point instruction is illegal while `mstatus.FS` is Off; whatever writes a
floating-point register or accrues a flag makes FS Dirty.  Single-precision values are NaN-boxed
in the 64-bit registers, and a value that is not boxed reads as the canonical NaN.
-/

namespace EmulateComputer

def boolWord (b : Bool) : U64 :=
  if b then 1 else 0

namespace Fpu

open EmulateComputer.Float

def NAN_BOX : U64 := 0xFFFFFFFF00000000

def nanBox (bits : U32) : U64 :=
  NAN_BOX ||| bits.setWidth 64

/-- The low half of a boxed value, else the canonical NaN. -/
def unboxBits (v : U64) : U32 :=
  if v &&& NAN_BOX = NAN_BOX then v.setWidth 32 else CANONICAL_NAN_F32

/-! ## Writes to the floating-point state -/

/-- Accrue flags; any of them makes FS Dirty. -/
def setFflags (cpu : Cpu) (flags : U64) : Cpu :=
  if flags ≠ 0 then
    { cpu with
      csr := (cpu.csr.storeRaw Csr.FCSR
        (cpu.csr.loadRaw Csr.FCSR ||| (flags &&& 0x1F))).setFsDirty }
  else cpu

def writeF64Raw (cpu : Cpu) (rd : Reg) (bits : U64) : Cpu :=
  { cpu with fregs := Function.update cpu.fregs rd bits, csr := cpu.csr.setFsDirty }

def writeF32Raw (cpu : Cpu) (rd : Reg) (bits : U32) : Cpu :=
  writeF64Raw cpu rd (nanBox bits)

/-- A computed result, with NaN made canonical. -/
def writeF32 (cpu : Cpu) (rd : Reg) (v : U32) : Cpu :=
  writeF32Raw cpu rd (if F32.isNan v then CANONICAL_NAN_F32 else v)

def writeF64 (cpu : Cpu) (rd : Reg) (v : U64) : Cpu :=
  writeF64Raw cpu rd (if F64.isNan v then CANONICAL_NAN_F64 else v)

/-- Validate the rounding-mode field, resolving the dynamic mode through `frm`. -/
def resolveRm (cpu : Cpu) (raw : U32) (rm : U8) : Except Exception U8 :=
  let eff := if rm = 7 then (cpu.csr.loadRaw Csr.FRM).setWidth 8 else rm
  if rm = 5 ∨ rm = 6 ∨ 4 < eff then
    .error (.illegalInstruction (raw.setWidth 64))
  else .ok eff

section

variable [ApFloat]

open ApFloat

def writeApSingle (cpu : Cpu) (rd : Reg) (result : StatusAnd (Value .single))
    (overflowed : Bool) : Cpu :=
  writeF32 (setFflags cpu (apFflags (adjustedApStatus result.value result.status overflowed))) rd
    ((toBits result.value).setWidth 32)

def writeApDouble (cpu : Cpu) (rd : Reg) (result : StatusAnd (Value .double))
    (overflowed : Bool) : Cpu :=
  writeF64 (setFflags cpu (apFflags (adjustedApStatus result.value result.status overflowed))) rd
    ((toBits result.value).setWidth 64)

def readSingle (cpu : Cpu) (r : Reg) : Value .single :=
  fromBits .single ((unboxBits (cpu.fregs r)).setWidth 128)

def readDouble (cpu : Cpu) (r : Reg) : Value .double :=
  fromBits .double ((cpu.fregs r).setWidth 128)

/-! ## Operations -/

def cvtRange (op : FpOp) : Int × Int :=
  match op with
  | .cvtWFmt => (-2 ^ 31, 2 ^ 31 - 1)
  | .cvtWuFmt => (0, 2 ^ 32 - 1)
  | .cvtLFmt => (-2 ^ 63, 2 ^ 63 - 1)
  | _ => (0, 2 ^ 64 - 1)

/-- The register value of a converted integer; both 32-bit forms sign-extend. -/
def cvtOut (op : FpOp) (v : Int) : U64 :=
  match op with
  | .cvtWFmt | .cvtWuFmt => (BitVec.ofInt 32 v).signExtend 64
  | _ => BitVec.ofInt 64 v

def fromInteger (op : FpOp) (f : Format) (v : U64) (round : Round) : StatusAnd (Value f) :=
  match op with
  | .cvtFmtW => fromI128R f (v.setWidth 32).toInt round
  | .cvtFmtWu => fromU128R f (v.setWidth 32).toNat round
  | .cvtFmtL => fromI128R f v.toInt round
  | _ => fromU128R f v.toNat round

def sgnj {w : Nat} (f : BinFormat w) (op : FpOp) (a b : BitVec w) : BitVec w :=
  match op with
  | .sgnj => (a &&& ~~~f.sign) ||| (b &&& f.sign)
  | .sgnjn => (a &&& ~~~f.sign) ||| (~~~b &&& f.sign)
  | _ => a ^^^ (b &&& f.sign)

/-- Comparison and its flags: `feq` is quiet, the others signal on any NaN. -/
def compare {w : Nat} (f : BinFormat w) (op : FpOp) (a b : BitVec w) : Bool × U64 :=
  match op with
  | .eq => (f.eq a b, if f.isSnan a || f.isSnan b then NV else 0)
  | .lt => (f.lt a b, if f.isNan a || f.isNan b then NV else 0)
  | _ => (f.le a b, if f.isNan a || f.isNan b then NV else 0)

/-- `fmin` and `fmax` signal on signaling NaNs only. -/
def minMaxFlags {w : Nat} (f : BinFormat w) (a b : BitVec w) : U64 :=
  if f.isSnan a || f.isSnan b then NV else 0

def execBinary (cpu : Cpu) (op : FpOp) (sz : FpSize) (rd rs1 rs2 : Reg) (round : Round) : Cpu :=
  match sz with
  | .s =>
    let r := SINGLE.binary op (readSingle cpu rs1) (readSingle cpu rs2) round
    writeApSingle cpu rd r.1 r.2
  | .d =>
    let r := DOUBLE.binary op (readDouble cpu rs1) (readDouble cpu rs2) round
    writeApDouble cpu rd r.1 r.2

def execSqrt (cpu : Cpu) (sz : FpSize) (rd rs1 : Reg) (round : Round) : Cpu :=
  match sz with
  | .s => writeApSingle cpu rd (sqrtSingle (readSingle cpu rs1) round) false
  | .d => writeApDouble cpu rd (sqrtDouble (readDouble cpu rs1) round) false

def execFused (cpu : Cpu) (op : FpOp) (sz : FpSize) (rd rs1 rs2 rs3 : Reg) (round : Round) : Cpu :=
  match sz with
  | .s =>
    let r := SINGLE.fused op (readSingle cpu rs1) (readSingle cpu rs2) (readSingle cpu rs3) round
    writeApSingle cpu rd r.1 r.2
  | .d =>
    let r := DOUBLE.fused op (readDouble cpu rs1) (readDouble cpu rs2) (readDouble cpu rs3) round
    writeApDouble cpu rd r.1 r.2

def execSgnj (cpu : Cpu) (op : FpOp) (sz : FpSize) (rd rs1 rs2 : Reg) : Cpu :=
  match sz with
  | .s => writeF32Raw cpu rd (sgnj F32 op (unboxBits (cpu.fregs rs1)) (unboxBits (cpu.fregs rs2)))
  | .d => writeF64Raw cpu rd (sgnj F64 op (cpu.fregs rs1) (cpu.fregs rs2))

def execMinMax (cpu : Cpu) (op : FpOp) (sz : FpSize) (rd rs1 rs2 : Reg) : Cpu :=
  match sz with
  | .s =>
    let a := unboxBits (cpu.fregs rs1)
    let b := unboxBits (cpu.fregs rs2)
    writeF32 (setFflags cpu (minMaxFlags F32 a b)) rd
      (if op = .min then F32.min a b else F32.max a b)
  | .d =>
    let a := cpu.fregs rs1
    let b := cpu.fregs rs2
    writeF64 (setFflags cpu (minMaxFlags F64 a b)) rd
      (if op = .min then F64.min a b else F64.max a b)

/-- Integer destination: FS becomes Dirty only if flags accrue. -/
def execCompare (cpu : Cpu) (op : FpOp) (sz : FpSize) (rd rs1 rs2 : Reg) : Cpu :=
  let r := match sz with
    | .s => compare F32 op (unboxBits (cpu.fregs rs1)) (unboxBits (cpu.fregs rs2))
    | .d => compare F64 op (cpu.fregs rs1) (cpu.fregs rs2)
  (setFflags cpu r.2).setReg rd (boolWord r.1)

def execClass (cpu : Cpu) (sz : FpSize) (rd rs1 : Reg) : Cpu :=
  cpu.setReg rd (match sz with
    | .s => F32.classify (unboxBits (cpu.fregs rs1))
    | .d => F64.classify (cpu.fregs rs1))

/-- Widening to double precision is exact, so one path serves both sizes. -/
def execToInt (cpu : Cpu) (op : FpOp) (sz : FpSize) (rd rs1 : Reg) (rm : U8) : Cpu :=
  let x := match sz with
    | .s => widen (unboxBits (cpu.fregs rs1))
    | .d => cpu.fregs rs1
  let r := fcvtToInt x rm (cvtRange op).1 (cvtRange op).2
  (setFflags cpu r.2).setReg rd (cvtOut op r.1)

def execFromInt (cpu : Cpu) (op : FpOp) (sz : FpSize) (rd rs1 : Reg) (round : Round) : Cpu :=
  match sz with
  | .s => writeApSingle cpu rd (fromInteger op .single (cpu.reg rs1) round) false
  | .d => writeApDouble cpu rd (fromInteger op .double (cpu.reg rs1) round) false

/-- `fcvt.s.d` narrows, `fcvt.d.s` widens exactly. -/
def execCvtFmt (cpu : Cpu) (sz : FpSize) (rd rs1 : Reg) (round : Round) : Cpu :=
  match sz with
  | .s =>
    let a := readDouble cpu rs1
    let result := repairTininess .extendedSingle (convertR a .single round)
      (convertR a .extendedSingle round).value
    writeApSingle cpu rd result (SINGLE.wideOverflows a)
  | .d => writeApDouble cpu rd (convertR (readSingle cpu rs1) .double round) false

/-- Raw bits to an integer register; no flags, no FS change. -/
def execMvX (cpu : Cpu) (sz : FpSize) (rd rs1 : Reg) : Cpu :=
  cpu.setReg rd (match sz with
    | .s => ((cpu.fregs rs1).setWidth 32).signExtend 64
    | .d => cpu.fregs rs1)

def execMvFmt (cpu : Cpu) (sz : FpSize) (rd rs1 : Reg) : Cpu :=
  match sz with
  | .s => writeF32Raw cpu rd ((cpu.reg rs1).setWidth 32)
  | .d => writeF64Raw cpu rd (cpu.reg rs1)

def execFp (cpu : Cpu) (raw : U32) (op : FpOp) (sz : FpSize) (rd rs1 rs2 rs3 : Reg) (rm : U8) :
    Except Exception Cpu :=
  match op with
  | .add | .sub | .mul | .div =>
    (resolveRm cpu raw rm).map fun eff => execBinary cpu op sz rd rs1 rs2 (apRound eff)
  | .sqrt => (resolveRm cpu raw rm).map fun eff => execSqrt cpu sz rd rs1 (apRound eff)
  | .madd | .msub | .nmsub | .nmadd =>
    (resolveRm cpu raw rm).map fun eff => execFused cpu op sz rd rs1 rs2 rs3 (apRound eff)
  | .sgnj | .sgnjn | .sgnjx => .ok (execSgnj cpu op sz rd rs1 rs2)
  | .min | .max => .ok (execMinMax cpu op sz rd rs1 rs2)
  | .eq | .lt | .le => .ok (execCompare cpu op sz rd rs1 rs2)
  | .class => .ok (execClass cpu sz rd rs1)
  | .cvtWFmt | .cvtWuFmt | .cvtLFmt | .cvtLuFmt =>
    (resolveRm cpu raw rm).map fun eff => execToInt cpu op sz rd rs1 eff
  | .cvtFmtW | .cvtFmtWu | .cvtFmtL | .cvtFmtLu =>
    (resolveRm cpu raw rm).map fun eff => execFromInt cpu op sz rd rs1 (apRound eff)
  | .cvtFmtFmt => (resolveRm cpu raw rm).map fun eff => execCvtFmt cpu sz rd rs1 (apRound eff)
  | .mvXFmt => .ok (execMvX cpu sz rd rs1)
  | .mvFmtX => .ok (execMvFmt cpu sz rd rs1)

/-! ## Instructions -/

variable {β : Type} [BlockBackend β]

open Hart

/-- Refuse while FS is Off. -/
def whenOn {α : Type} (raw : U32) (x : Hart β α) : Hart β α := do
  let s ← get
  if s.cpu.csr.fs = Csr.FS_OFF then throw (.illegalInstruction (raw.setWidth 64)) else x

def fpSizeBytes : FpSize → Nat
  | .s => 4
  | .d => 8

def execLoad (sz : FpSize) (frd rs1 : Reg) (imm : U64) : Hart β Unit := do
  let s ← get
  let v ← load (s.cpu.reg rs1 + imm) (fpSizeBytes sz)
  modifyCpu fun cpu =>
    match sz with
    | .s => writeF32Raw cpu frd (v.setWidth 32)
    | .d => writeF64Raw cpu frd v

/-- A single-precision store writes the raw low half. -/
def execStore (sz : FpSize) (rs1 frs2 : Reg) (imm : U64) : Hart β Unit := do
  let s ← get
  let addr := s.cpu.reg rs1 + imm
  match sz with
  | .s => store addr (s.cpu.fregs frs2 &&& 0xFFFFFFFF) 4
  | .d => store addr (s.cpu.fregs frs2) 8

end

end Fpu

end EmulateComputer
