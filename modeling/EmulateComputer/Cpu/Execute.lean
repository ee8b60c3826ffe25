import EmulateComputer.Cpu.Fpu

/-!
# Execute — one decoded instruction

`nextPc` is already `pc + len`; jumps, branches and trap returns overwrite it.  A failure leaves
the state reached so far, and the caller enters the trap.
-/

namespace EmulateComputer

namespace Execute

/-! ## Arithmetic -/

/-- 64-bit operations; register shift amounts are masked to six bits. -/
def alu64 (kind : AluOp) (a b : U64) : U64 :=
  match kind with
  | .add => a + b
  | .sub => a - b
  | .sll => a <<< (b &&& 0x3F).toNat
  | .slt => boolWord (a.slt b)
  | .sltu => boolWord (a < b)
  | .xor => a ^^^ b
  | .srl => a >>> (b &&& 0x3F).toNat
  | .sra => a.sshiftRight (b &&& 0x3F).toNat
  | .or => a ||| b
  | .and => a &&& b
  | .mul => a * b
  | .mulh => ((a.signExtend 128 * b.signExtend 128) >>> 64).setWidth 64
  | .mulhsu => ((a.signExtend 128 * b.setWidth 128) >>> 64).setWidth 64
  | .mulhu => ((a.setWidth 128 * b.setWidth 128) >>> 64).setWidth 64
  | .div =>
    if b = 0 then BitVec.allOnes 64
    else if a = BitVec.intMin 64 ∧ b = BitVec.allOnes 64 then BitVec.intMin 64
    else a.sdiv b
  | .divu => if b = 0 then BitVec.allOnes 64 else a / b
  | .rem =>
    if b = 0 then a
    else if a = BitVec.intMin 64 ∧ b = BitVec.allOnes 64 then 0
    else a.srem b
  | .remu => if b = 0 then a else a % b

/-- The 32-bit result before sign extension. -/
def alu32Res (kind : AluOp) (a b : U64) : U32 :=
  let au : U32 := a.setWidth 32
  let bu : U32 := b.setWidth 32
  let sh := (b &&& 0x1F).toNat
  match kind with
  | .add => au + bu
  | .sub => au - bu
  | .sll => au <<< sh
  | .srl => au >>> sh
  | .sra => au.sshiftRight sh
  | .mul => au * bu
  | .div =>
    if bu = 0 then BitVec.allOnes 32
    else if au = BitVec.intMin 32 ∧ bu = BitVec.allOnes 32 then BitVec.intMin 32
    else au.sdiv bu
  | .divu => if bu = 0 then BitVec.allOnes 32 else au / bu
  | .rem =>
    if bu = 0 then au
    else if au = BitVec.intMin 32 ∧ bu = BitVec.allOnes 32 then 0
    else au.srem bu
  | .remu => if bu = 0 then au else au % bu
  -- Not encodable as a 32-bit form.
  | _ => (alu64 kind a b).setWidth 32

def alu32 (kind : AluOp) (a b : U64) : U64 :=
  (alu32Res kind a b).signExtend 64

def amoSize : AmoWidth → Nat
  | .w => 4
  | .d => 8

def amoAt {w : Nat} (op : AmoOp) (old src : BitVec w) : BitVec w :=
  match op with
  | .swap => src
  | .add => old + src
  | .xor => old ^^^ src
  | .and => old &&& src
  | .or => old ||| src
  | .min => if src.slt old then src else old
  | .max => if old.slt src then src else old
  | .minu => if src < old then src else old
  | .maxu => if old < src then src else old

def amoResult (op : AmoOp) (width : AmoWidth) (old src : U64) : U64 :=
  match width with
  | .d => amoAt op old src
  | .w => (amoAt op (old.setWidth 32) (src.setWidth 32)).setWidth 64

/-- A loaded word sign-extends to the register. -/
def amoLoaded (width : AmoWidth) (v : U64) : U64 :=
  match width with
  | .w => (v.setWidth 32).signExtend 64
  | .d => v

def taken (cond : BranchCond) (a b : U64) : Bool :=
  match cond with
  | .eq => a = b
  | .ne => a ≠ b
  | .lt => a.slt b
  | .ge => !a.slt b
  | .ltu => a < b
  | .geu => b ≤ a

def loadSize : LoadKind → Nat
  | .b | .bu => 1
  | .h | .hu => 2
  | .w | .wu => 4
  | .d => 8

def loadExtend (kind : LoadKind) (v : U64) : U64 :=
  match kind with
  | .b => (v.setWidth 8).signExtend 64
  | .h => (v.setWidth 16).signExtend 64
  | .w => (v.setWidth 32).signExtend 64
  | .d | .bu | .hu | .wu => v

def storeSize : StoreKind → Nat
  | .b => 1
  | .h => 2
  | .w => 4
  | .d => 8

/-! ## Instructions -/

section

variable {β : Type} [BlockBackend β]

open Hart

def illegal (raw : U32) : Exception :=
  .illegalInstruction (raw.setWidth 64)

def jumpTo (cpu : Cpu) (rd : Reg) (target : U64) : Cpu :=
  { cpu with nextPc := target }.setReg rd cpu.nextPc

def csrSource (cpu : Cpu) (kind : CsrOp) (rs1 : Reg) : U64 :=
  match kind with
  | .rw | .rs | .rc => cpu.reg rs1
  | .rwi | .rsi | .rci => BitVec.ofNat 64 rs1.val

/-- A checked CSR write; a changed `satp` flushes the TLB. -/
def csrWrite (cpu : Cpu) (addr : CsrAddr) (val : U64) : Option Cpu :=
  (cpu.csr.write addr val cpu.mode).map fun csr =>
    let cpu' := { cpu with csr := csr }
    if addr = Csr.SATP ∧ cpu.csr.loadRaw Csr.SATP ≠ csr.loadRaw Csr.SATP then
      { cpu' with mmu := cpu'.mmu.flushAll }
    else cpu'

/-- `csrrw`, `csrrwi`: with `rd = x0` there is no read, hence no read check. -/
def csrReplace (cpu : Cpu) (rd : Reg) (addr : CsrAddr) (src mtime : U64) : Option Cpu :=
  if rd ≠ 0 then
    (cpu.csr.read addr cpu.mode mtime).bind fun old =>
      (csrWrite cpu addr src).map fun cpu' => cpu'.setReg rd old
  else csrWrite cpu addr src

/-- The value the set and clear forms write back. -/
def csrMerge (kind : CsrOp) (old src : U64) : U64 :=
  match kind with
  | .rs | .rsi => old ||| src
  | _ => old &&& ~~~src

/-- The set and clear forms: no write at all for `x0` or a zero immediate. -/
def csrModify (cpu : Cpu) (kind : CsrOp) (rd rs1 : Reg) (addr : CsrAddr) (src mtime : U64) :
    Option Cpu :=
  (cpu.csr.read addr cpu.mode mtime).bind fun old =>
    if rs1 ≠ 0 then
      (csrWrite cpu addr (csrMerge kind old src)).map fun cpu' => cpu'.setReg rd old
    else some (cpu.setReg rd old)

def execCsr (cpu : Cpu) (kind : CsrOp) (rd rs1 : Reg) (addr : CsrAddr) (mtime : U64) : Option Cpu :=
  let src := csrSource cpu kind rs1
  match kind with
  | .rw | .rwi => csrReplace cpu rd addr src mtime
  | .rs | .rsi | .rc | .rci => csrModify cpu kind rd rs1 addr src mtime

/-- Replace the hart, or raise an exception. -/
def putCpu (e : Exception) : Option Cpu → Hart β Unit
  | some cpu => modifyCpu fun _ => cpu
  | none => throw e

/-- Replace the hart by the answer of a fallible operation on it. -/
def putResult : Except Exception Cpu → Hart β Unit
  | .ok cpu => modifyCpu fun _ => cpu
  | .error e => throw e

def execLoad (kind : LoadKind) (rd rs1 : Reg) (imm : U64) : Hart β Unit := do
  let s ← get
  let v ← load (s.cpu.reg rs1 + imm) (loadSize kind)
  modifyCpu fun cpu => cpu.setReg rd (loadExtend kind v)

def execStore (kind : StoreKind) (rs1 rs2 : Reg) (imm : U64) : Hart β Unit := do
  let s ← get
  store (s.cpu.reg rs1 + imm) (s.cpu.reg rs2) (storeSize kind)

def execLr (width : AmoWidth) (rd rs1 : Reg) : Hart β Unit := do
  let s ← get
  let addr := s.cpu.reg rs1
  let pa ← translateAmo addr (amoSize width) false
  let v ← onBus (.loadAccessFault addr) (Bus.read pa (amoSize width))
  modifyCpu fun cpu => { cpu.setReg rd (amoLoaded width v) with reservation := some pa }

def execSc (width : AmoWidth) (rd rs1 rs2 : Reg) : Hart β Unit := do
  let s ← get
  let addr := s.cpu.reg rs1
  let saved := s.cpu.reservation
  let pa ← translateAmo addr (amoSize width) true
  let t ← get
  if ¬ t.bus.writeAccessible pa (amoSize width) then
    throw (.storeAccessFault addr)
  else do
    modifyCpu fun cpu => { cpu with reservation := none }
    if saved = some pa then do
      onBus (.storeAccessFault addr) (Bus.write pa (s.cpu.reg rs2) (amoSize width))
      modifyCpu fun cpu => cpu.setReg rd 0
    else
      modifyCpu fun cpu => cpu.setReg rd 1

def execAmo (op : AmoOp) (width : AmoWidth) (rd rs1 rs2 : Reg) : Hart β Unit := do
  let s ← get
  let addr := s.cpu.reg rs1
  modifyCpu fun cpu => { cpu with reservation := none }
  let pa ← translateAmo addr (amoSize width) true
  let old ← onBus (.storeAccessFault addr) (Bus.read pa (amoSize width))
  onBus (.storeAccessFault addr)
    (Bus.write pa (amoResult op width old (s.cpu.reg rs2)) (amoSize width))
  modifyCpu fun cpu => cpu.setReg rd (amoLoaded width old)

variable [ApFloat]

def execute (raw : U32) (op : Op) : Hart β Unit := do
  let s ← get
  let cpu := s.cpu
  match op with
  | .lui rd imm => modifyCpu fun cpu => cpu.setReg rd imm
  | .auipc rd imm => modifyCpu fun cpu => cpu.setReg rd (cpu.pc + imm)
  | .jal rd imm => modifyCpu fun cpu => jumpTo cpu rd (cpu.pc + imm)
  | .jalr rd rs1 imm => modifyCpu fun cpu => jumpTo cpu rd ((cpu.reg rs1 + imm) &&& ~~~1)
  | .branch cond rs1 rs2 imm =>
    modifyCpu fun cpu =>
      if taken cond (cpu.reg rs1) (cpu.reg rs2) then { cpu with nextPc := cpu.pc + imm } else cpu
  | .load kind rd rs1 imm => execLoad kind rd rs1 imm
  | .store kind rs1 rs2 imm => execStore kind rs1 rs2 imm
  | .opImm kind rd rs1 imm => modifyCpu fun cpu => cpu.setReg rd (alu64 kind (cpu.reg rs1) imm)
  | .opImm32 kind rd rs1 imm => modifyCpu fun cpu => cpu.setReg rd (alu32 kind (cpu.reg rs1) imm)
  | .opReg kind rd rs1 rs2 =>
    modifyCpu fun cpu => cpu.setReg rd (alu64 kind (cpu.reg rs1) (cpu.reg rs2))
  | .opReg32 kind rd rs1 rs2 =>
    modifyCpu fun cpu => cpu.setReg rd (alu32 kind (cpu.reg rs1) (cpu.reg rs2))
  | .bit kind rd rs1 rs2 =>
    modifyCpu fun cpu => cpu.setReg rd (Bitmanip.bitRr kind (cpu.reg rs1) (cpu.reg rs2))
  | .bitUnary kind rd rs1 =>
    modifyCpu fun cpu => cpu.setReg rd (Bitmanip.bitUnary kind (cpu.reg rs1))
  | .bitImm kind rd rs1 imm =>
    modifyCpu fun cpu => cpu.setReg rd (Bitmanip.bitImm kind (cpu.reg rs1) imm)
  | .fence => pure ()
  | .fenceI => modifyCpu fun cpu => { cpu with decodeCache := cpu.decodeCache.flush }
  | .ecall =>
    throw (match cpu.mode with
      | .user => .environmentCallFromU
      | .supervisor => .environmentCallFromS
      | .machine => .environmentCallFromM)
  | .ebreak => throw (.breakpoint cpu.pc)
  | .csr kind rd rs1 addr => putCpu (illegal raw) (execCsr cpu kind rd rs1 addr s.bus.clint.mtime)
  | .mret => putCpu (illegal raw) cpu.mret.toOption
  | .sret => putCpu (illegal raw) cpu.sret.toOption
  | .wfi =>
    if cpu.mode = .user ∨ (cpu.mode = .supervisor ∧ cpu.csr.mstatusField Mstatus.TW) then
      throw (illegal raw)
    else
      modifyCpu fun cpu => { cpu with wfi := true }
  | .sfenceVma _ _ =>
    if cpu.mode = .user ∨ (cpu.mode = .supervisor ∧ cpu.csr.mstatusField Mstatus.TVM) then
      throw (illegal raw)
    else
      -- Conservative: the operands are ignored and everything is flushed.
      modifyCpu fun cpu => { cpu with mmu := cpu.mmu.flushAll }
  | .lr width rd rs1 => execLr width rd rs1
  | .sc width rd rs1 rs2 => execSc width rd rs1 rs2
  | .amo op width rd rs1 rs2 => execAmo op width rd rs1 rs2
  | .fpLoad sz frd rs1 imm => Fpu.whenOn raw (Fpu.execLoad sz frd rs1 imm)
  | .fpStore sz rs1 frs2 imm => Fpu.whenOn raw (Fpu.execStore sz rs1 frs2 imm)
  | .fp op sz rd rs1 rs2 rs3 rm =>
    Fpu.whenOn raw (putResult (Fpu.execFp cpu raw op sz rd rs1 rs2 rs3 rm))

end

end Execute

end EmulateComputer
