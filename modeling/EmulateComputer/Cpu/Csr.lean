import EmulateComputer.Wire
import Mathlib.Data.List.OfFn

/-!
# Csr — the CSR file: storage and access rules

`read` and `write` are the checked accesses of CSR instructions, answering `none` where the
instruction is illegal; `loadRaw` and `storeRaw` are the unchecked accesses of the trap machinery.
The file has one slot for each of the 4096 addresses; `sstatus`, `sie`, `sip`, `fflags` and `frm`
are views of other slots, and the two counters and the device-driven `mip` levels live outside it.
-/

namespace EmulateComputer

abbrev CsrAddr := BitVec 12

namespace Csr

def FFLAGS : CsrAddr := 0x001
def FRM : CsrAddr := 0x002
def FCSR : CsrAddr := 0x003
def CYCLE : CsrAddr := 0xC00
def TIME : CsrAddr := 0xC01
def INSTRET : CsrAddr := 0xC02
def SSTATUS : CsrAddr := 0x100
def SIE : CsrAddr := 0x104
def STVEC : CsrAddr := 0x105
def SCOUNTEREN : CsrAddr := 0x106
def SENVCFG : CsrAddr := 0x10A
def SSCRATCH : CsrAddr := 0x140
def SEPC : CsrAddr := 0x141
def SCAUSE : CsrAddr := 0x142
def STVAL : CsrAddr := 0x143
def SIP : CsrAddr := 0x144
def STIMECMP : CsrAddr := 0x14D
def SATP : CsrAddr := 0x180
def MSTATUS : CsrAddr := 0x300
def MISA : CsrAddr := 0x301
def MEDELEG : CsrAddr := 0x302
def MIDELEG : CsrAddr := 0x303
def MIE : CsrAddr := 0x304
def MTVEC : CsrAddr := 0x305
def MCOUNTEREN : CsrAddr := 0x306
def MENVCFG : CsrAddr := 0x30A
def MCOUNTINHIBIT : CsrAddr := 0x320
def MSCRATCH : CsrAddr := 0x340
def MEPC : CsrAddr := 0x341
def MCAUSE : CsrAddr := 0x342
def MTVAL : CsrAddr := 0x343
def MIP : CsrAddr := 0x344
def PMPCFG0 : CsrAddr := 0x3A0
def PMPADDR0 : CsrAddr := 0x3B0
def MCYCLE : CsrAddr := 0xB00
def MINSTRET : CsrAddr := 0xB02
def MVENDORID : CsrAddr := 0xF11
def MARCHID : CsrAddr := 0xF12
def MIMPID : CsrAddr := 0xF13
def MHARTID : CsrAddr := 0xF14
def MCONFIGPTR : CsrAddr := 0xF15
def TSELECT : CsrAddr := 0x7A0
def TDATA1 : CsrAddr := 0x7A1
def TDATA2 : CsrAddr := 0x7A2
def TDATA3 : CsrAddr := 0x7A3
def TINFO : CsrAddr := 0x7A4

end Csr

namespace Mstatus

def SIE : U64 := (1 : U64) <<< 1
def MIE : U64 := (1 : U64) <<< 3
def SPIE : U64 := (1 : U64) <<< 5
def MPIE : U64 := (1 : U64) <<< 7
def SPP : U64 := (1 : U64) <<< 8
def MPP_MASK : U64 := (3 : U64) <<< 11
def MPP_SHIFT : Nat := 11
def FS_MASK : U64 := (3 : U64) <<< 13
def FS_SHIFT : Nat := 13
def XS_MASK : U64 := (3 : U64) <<< 15
def MPRV : U64 := (1 : U64) <<< 17
def SUM : U64 := (1 : U64) <<< 18
def MXR : U64 := (1 : U64) <<< 19
def TVM : U64 := (1 : U64) <<< 20
def TW : U64 := (1 : U64) <<< 21
def TSR : U64 := (1 : U64) <<< 22
def UXL_MASK : U64 := (3 : U64) <<< 32
def SXL_MASK : U64 := (3 : U64) <<< 34
def SD : U64 := (1 : U64) <<< 63

/-- Bits software may modify via `mstatus` writes. -/
def WRITE_MASK : U64 :=
  SIE ||| MIE ||| SPIE ||| MPIE ||| SPP ||| MPP_MASK ||| FS_MASK ||| MPRV ||| SUM ||| MXR |||
    TVM ||| TW ||| TSR

def SSTATUS_MASK : U64 :=
  SIE ||| SPIE ||| SPP ||| FS_MASK ||| XS_MASK ||| SUM ||| MXR ||| UXL_MASK ||| SD

def SSTATUS_WRITE_MASK : U64 :=
  SIE ||| SPIE ||| SPP ||| FS_MASK ||| SUM ||| MXR

end Mstatus

namespace Menvcfg

def FIOM : U64 := 1
def ADUE : U64 := (1 : U64) <<< 61
def STCE : U64 := (1 : U64) <<< 63

end Menvcfg

namespace Csr

def FS_OFF : U64 := 0
def FS_DIRTY : U64 := 3

def MIP_WRITE_MASK : U64 := Irq.SSIP ||| Irq.STIP ||| Irq.SEIP
def SIP_WRITE_MASK : U64 := Irq.SSIP
def MIE_MASK : U64 :=
  Irq.SSIP ||| Irq.MSIP ||| Irq.STIP ||| Irq.MTIP ||| Irq.SEIP ||| Irq.MEIP
def MIDELEG_MASK : U64 := 0x222
/-- Without causes 0 (impossible with compressed instructions) and 11 (never delegatable). -/
def MEDELEG_MASK : U64 := 0xCB3FE
def COUNTER_ENABLE_MASK : U64 := 0x7
def MCOUNTINHIBIT_MASK : U64 := ((1 : U64) <<< 0) ||| ((1 : U64) <<< 2)
def MENVCFG_MASK : U64 := Menvcfg.STCE ||| Menvcfg.ADUE ||| Menvcfg.FIOM
def SENVCFG_MASK : U64 := 1

/-- RV64 with the extensions A, C, D, F, I, M, S and U; letter `c` is bit `c - 'a'`. -/
def misaValue : U64 :=
  ((2 : U64) <<< 62) ||| ((1 : U64) <<< 0) ||| ((1 : U64) <<< 2) ||| ((1 : U64) <<< 3) |||
    ((1 : U64) <<< 5) ||| ((1 : U64) <<< 8) ||| ((1 : U64) <<< 12) ||| ((1 : U64) <<< 18) |||
    ((1 : U64) <<< 20)

/-- The trigger bank: no triggers are implemented, so it is hardwired to zero. -/
def isTrigger (addr : CsrAddr) : Bool :=
  addr = TSELECT || addr = TDATA1 || addr = TDATA2 || addr = TDATA3 || addr = TINFO

/-- Identification registers, whose writes are ignored. -/
def isIdentity (addr : CsrAddr) : Bool :=
  addr = MISA || addr = MVENDORID || addr = MARCHID || addr = MIMPID || addr = MHARTID ||
    addr = MCONFIGPTR

/-- Privilege required for a CSR, encoded in address bits 9 and 8. -/
def required (addr : CsrAddr) : U64 :=
  ((addr >>> 8) &&& 3).setWidth 64

end Csr

structure CsrFile where
  regs : CsrAddr → U64
  deviceMip : U64
  legacyPmpStubs : Bool
  cycle : U64
  instret : U64

namespace CsrFile

open Csr

def setReg (csr : CsrFile) (addr : CsrAddr) (val : U64) : CsrFile :=
  { csr with regs := Function.update csr.regs addr val }

def new : CsrFile :=
  { regs := fun addr =>
      if addr = MISA then misaValue
      else if addr = MSTATUS then ((2 : U64) <<< 32) ||| ((2 : U64) <<< 34)
      else if addr = STIMECMP then BitVec.allOnes 64
      else 0
    deviceMip := 0
    legacyPmpStubs := false
    cycle := 0
    instret := 0 }

/-- Expose storage-only PMP CSRs for compatibility profiles. -/
def enablePmpStubs (csr : CsrFile) : CsrFile :=
  { csr with legacyPmpStubs := true }

def stceEnabled (csr : CsrFile) : Bool :=
  csr.regs MENVCFG &&& Menvcfg.STCE ≠ 0

def adueEnabled (csr : CsrFile) : Bool :=
  csr.regs MENVCFG &&& Menvcfg.ADUE ≠ 0

/-- SD summarises FS and is never stored. -/
def mstatusRead (csr : CsrFile) : U64 :=
  let v := csr.regs MSTATUS
  if v &&& Mstatus.FS_MASK = Mstatus.FS_MASK then v ||| Mstatus.SD else v &&& ~~~Mstatus.SD

def mipValue (csr : CsrFile) : U64 :=
  (if csr.stceEnabled then csr.regs MIP &&& ~~~Irq.STIP else csr.regs MIP) ||| csr.deviceMip

def loadRaw (csr : CsrFile) (addr : CsrAddr) : U64 :=
  if addr = MCYCLE ∨ addr = CYCLE then csr.cycle
  else if addr = MINSTRET ∨ addr = INSTRET then csr.instret
  else if isTrigger addr then 0
  else if addr = MSTATUS then csr.mstatusRead
  else if addr = SSTATUS then csr.mstatusRead &&& Mstatus.SSTATUS_MASK
  else if addr = MIP then csr.mipValue
  else if addr = SIE then csr.regs MIE &&& csr.regs MIDELEG
  else if addr = SIP then csr.mipValue &&& csr.regs MIDELEG
  else if addr = FFLAGS then csr.regs FCSR &&& 0x1F
  else if addr = FRM then (csr.regs FCSR >>> 5) &&& 7
  else csr.regs addr

/-- MPP is WARL over 0, 1 and 3: an encoding 2 keeps the previous value. -/
def coerceMpp (old new : U64) : U64 :=
  if (new &&& Mstatus.MPP_MASK) >>> Mstatus.MPP_SHIFT = 2 then
    (new &&& ~~~Mstatus.MPP_MASK) ||| (old &&& Mstatus.MPP_MASK)
  else new

def mstatusWrite (csr : CsrFile) (val mask : U64) : CsrFile :=
  let old := csr.regs MSTATUS
  let merged := (old &&& ~~~mask) ||| (val &&& mask)
  let legal := if mask &&& Mstatus.MPP_MASK ≠ 0 then coerceMpp old merged else merged
  csr.setReg MSTATUS ((legal &&& ~~~(Mstatus.UXL_MASK ||| Mstatus.SXL_MASK)) |||
    ((2 : U64) <<< 32) ||| ((2 : U64) <<< 34))

def mipWritable (csr : CsrFile) : U64 :=
  if csr.stceEnabled then MIP_WRITE_MASK &&& ~~~Irq.STIP else MIP_WRITE_MASK

def writeMip (csr : CsrFile) (val : U64) : CsrFile :=
  csr.setReg MIP ((csr.regs MIP &&& ~~~csr.mipWritable) ||| (val &&& csr.mipWritable))

def sipWritable (csr : CsrFile) : U64 :=
  SIP_WRITE_MASK &&& csr.regs MIDELEG

def writeSip (csr : CsrFile) (val : U64) : CsrFile :=
  csr.setReg MIP ((csr.regs MIP &&& ~~~csr.sipWritable) ||| (val &&& csr.sipWritable))

def writeSie (csr : CsrFile) (val : U64) : CsrFile :=
  let delegated := csr.regs MIDELEG
  csr.setReg MIE ((csr.regs MIE &&& ~~~delegated) ||| (val &&& delegated &&& MIE_MASK))

def writeFflags (csr : CsrFile) (val : U64) : CsrFile :=
  csr.setReg FCSR ((csr.regs FCSR &&& ~~~0x1F) ||| (val &&& 0x1F))

def writeFrm (csr : CsrFile) (val : U64) : CsrFile :=
  csr.setReg FCSR ((csr.regs FCSR &&& ~~~(0xE0 : U64)) ||| ((val &&& 7) <<< 5))

/-- Unchecked write of the trap machinery: coercions, but no checks and no FS side effect. -/
def storeRaw (csr : CsrFile) (addr : CsrAddr) (val : U64) : CsrFile :=
  if addr = MSTATUS then csr.mstatusWrite val Mstatus.WRITE_MASK
  else if addr = SSTATUS then csr.mstatusWrite val Mstatus.SSTATUS_WRITE_MASK
  else if addr = MCYCLE ∨ addr = CYCLE then { csr with cycle := val }
  else if addr = MINSTRET ∨ addr = INSTRET then { csr with instret := val }
  else if isTrigger addr then csr
  else if addr = MIP then csr.writeMip val
  else if addr = SIP then csr.writeSip val
  else if addr = SIE then csr.writeSie val
  else if addr = FFLAGS then csr.writeFflags val
  else if addr = FRM then csr.writeFrm val
  else csr.setReg addr val

def setDeviceMip (csr : CsrFile) (mask pending : U64) : CsrFile :=
  { csr with deviceMip := (csr.deviceMip &&& ~~~mask) ||| (pending &&& mask) }

def fs (csr : CsrFile) : U64 :=
  (csr.regs MSTATUS &&& Mstatus.FS_MASK) >>> Mstatus.FS_SHIFT

def setFsDirty (csr : CsrFile) : CsrFile :=
  csr.setReg MSTATUS (csr.regs MSTATUS ||| Mstatus.FS_MASK)

def mstatusField (csr : CsrFile) (bit : U64) : Bool :=
  csr.regs MSTATUS &&& bit ≠ 0

/-! ## Checked accesses -/

/-- The registers of this build (`exists`). -/
def implemented (csr : CsrFile) (addr : CsrAddr) : Bool :=
  (csr.legacyPmpStubs && (addr = PMPCFG0 || addr = PMPADDR0)) ||
  addr ∈ [FFLAGS, FRM, FCSR, CYCLE, TIME, INSTRET,
    SSTATUS, SIE, STVEC, SCOUNTEREN, SENVCFG, SSCRATCH, SEPC, SCAUSE, STVAL, SIP, STIMECMP, SATP,
    MSTATUS, MISA, MEDELEG, MIDELEG, MIE, MTVEC, MCOUNTEREN, MENVCFG, MCOUNTINHIBIT, MSCRATCH,
    MEPC, MCAUSE, MTVAL, MIP,
    MVENDORID, MARCHID, MIMPID, MHARTID, MCONFIGPTR,
    TSELECT, TDATA1, TDATA2, TDATA3, TINFO,
    MCYCLE, MINSTRET]

/-- User counters are gated by `mcounteren`, and in user mode by `scounteren` too. -/
def counterAccess (csr : CsrFile) (addr : CsrAddr) (mode : Mode) : Bool :=
  let bit : U64 := (1 : U64) <<< (addr - CYCLE).toNat
  !(mode ≠ .machine && csr.regs MCOUNTEREN &&& bit = 0) &&
    !(mode = .user && csr.regs SCOUNTEREN &&& bit = 0)

def checkAccess (csr : CsrFile) (addr : CsrAddr) (mode : Mode) (isWrite : Bool) : Bool :=
  if mode.bits < required addr then false
  -- Read-only region: the top two address bits are both set.
  else if isWrite ∧ (addr >>> 10) &&& 3 = 3 then false
  else if addr = SATP ∧ mode = .supervisor ∧ csr.mstatusField Mstatus.TVM then false
  else if addr = STIMECMP ∧ mode ≠ .machine ∧
      (¬ csr.stceEnabled ∨ csr.regs MCOUNTEREN &&& ((1 : U64) <<< 1) = 0) then false
  else if (addr = FFLAGS ∨ addr = FRM ∨ addr = FCSR) ∧ csr.fs = FS_OFF then false
  else if (addr = CYCLE ∨ addr = TIME ∨ addr = INSTRET) ∧ ¬ csr.counterAccess addr mode then false
  else csr.implemented addr

def read (csr : CsrFile) (addr : CsrAddr) (mode : Mode) (mtime : U64) : Option U64 :=
  if csr.checkAccess addr mode false then
    some (if addr = TIME then mtime else csr.loadRaw addr)
  else none

/-- The mode field of a trap vector is WARL over 0 and 1. -/
def coerceTvec (val : U64) : U64 :=
  if 1 < val &&& 3 then val &&& ~~~3 else val

/-- What a permitted write does; the user counters are read-only. -/
def written (csr : CsrFile) (addr : CsrAddr) (val : U64) : Option CsrFile :=
  if isIdentity addr then some csr
  else if isTrigger addr then some csr
  else if addr = MSTATUS then some (csr.mstatusWrite val Mstatus.WRITE_MASK)
  else if addr = SSTATUS then some (csr.mstatusWrite val Mstatus.SSTATUS_WRITE_MASK)
  else if addr = MIP then some (csr.writeMip val)
  else if addr = SIP then some (csr.writeSip val)
  else if addr = MIE then some (csr.setReg MIE (val &&& MIE_MASK))
  else if addr = SIE then some (csr.writeSie val)
  else if addr = MEDELEG then some (csr.setReg MEDELEG (val &&& MEDELEG_MASK))
  else if addr = MIDELEG then some (csr.setReg MIDELEG (val &&& MIDELEG_MASK))
  else if addr = MCOUNTEREN then some (csr.setReg MCOUNTEREN (val &&& COUNTER_ENABLE_MASK))
  else if addr = SCOUNTEREN then some (csr.setReg SCOUNTEREN (val &&& COUNTER_ENABLE_MASK))
  else if addr = MCOUNTINHIBIT then some (csr.setReg MCOUNTINHIBIT (val &&& MCOUNTINHIBIT_MASK))
  else if addr = MENVCFG then some (csr.setReg MENVCFG (val &&& MENVCFG_MASK))
  else if addr = SENVCFG then some (csr.setReg SENVCFG (val &&& SENVCFG_MASK))
  else if addr = MTVEC ∨ addr = STVEC then some (csr.setReg addr (coerceTvec val))
  else if addr = MEPC ∨ addr = SEPC then some (csr.setReg addr (val &&& ~~~1))
  else if addr = SATP then
    -- Only Bare and Sv39 exist; any other mode makes the whole write void.
    some (if val >>> 60 = 0 ∨ val >>> 60 = 8 then csr.setReg SATP val else csr)
  else if addr = FFLAGS then some (csr.writeFflags val).setFsDirty
  else if addr = FRM then some (csr.writeFrm val).setFsDirty
  else if addr = FCSR then some (csr.setReg FCSR (val &&& 0xFF)).setFsDirty
  else if addr = MCYCLE then some { csr with cycle := val }
  else if addr = MINSTRET then some { csr with instret := val }
  else if addr = CYCLE ∨ addr = TIME ∨ addr = INSTRET then none
  else some (csr.setReg addr val)

def write (csr : CsrFile) (addr : CsrAddr) (val : U64) (mode : Mode) : Option CsrFile :=
  if csr.checkAccess addr mode true then csr.written addr val else none

/-! ## Snapshots -/

def SNAPSHOT_VERSION : U16 := 1

def slots (csr : CsrFile) : List U64 :=
  List.ofFn fun i : Fin 4096 => csr.regs (BitVec.ofFin i)

def snapshotBody (csr : CsrFile) : List U8 :=
  Writer.u32 4096 ++ (csr.slots.flatMap Writer.u64 ++ (Writer.u64 csr.deviceMip ++
    (Writer.bool csr.legacyPmpStubs ++ (Writer.u64 csr.cycle ++ Writer.u64 csr.instret))))

def snapshot (csr : CsrFile) : List U8 :=
  Writer.sectionOf SNAPSHOT_VERSION csr.snapshotBody

def readBody : Read CsrFile := do
  let count ← Reader.u32
  if count.toNat ≠ 4096 then
    throw (toString count.toNat ++ " CSR slots, this build has 4096")
  else
    let regs ← Cursor.readMany (fun _ => Reader.u64) 0 4096
    let deviceMip ← Reader.u64
    let legacyPmpStubs ← Reader.bool
    let cycle ← Reader.u64
    let instret ← Reader.u64
    pure
      { regs := fun addr => regs.1.get (addr.toFin.cast regs.2.symm)
        deviceMip := deviceMip
        legacyPmpStubs := legacyPmpStubs
        cycle := cycle
        instret := instret }

def restore : Read CsrFile :=
  Reader.readSection "csr" SNAPSHOT_VERSION readBody

end CsrFile

end EmulateComputer
