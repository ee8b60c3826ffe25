import EmulateComputer.Cpu.DecodeCache
import EmulateComputer.Mmu

/-!
# Hart — registers, privilege state, memory accesses and traps

`Cpu` is the state of the single hart.  Code that also takes the bus works on the pair `Sys`, in
the monad `Hart`, whose failures are exceptions; trap entry and return are functions of the hart
alone.
-/

namespace EmulateComputer

/-- One-entry memo of the last instruction-fetch translation. -/
structure FetchTranslation where
  vpn : U64
  paBase : U64
  mode : Mode
  mmuGeneration : U64
  deriving DecidableEq

structure FetchedInstruction where
  raw : U32
  /-- RAM page and generation; `none` keeps the instruction out of the block cache. -/
  cachePage : Option (U64 × U64)

structure Cpu where
  regs : Reg → U64
  /-- Single-precision values are NaN-boxed. -/
  fregs : Reg → U64
  pc : U64
  /-- Set to `pc + len` before execution; jumps and branches overwrite it. -/
  nextPc : U64
  mode : Mode
  csr : CsrFile
  mmu : Mmu
  decodeCache : DecodeCache
  fetchTranslation : Option FetchTranslation
  /-- Physical address of the LR/SC reservation. -/
  reservation : Option U64
  wfi : Bool

namespace Cpu

def new : Cpu :=
  { regs := fun _ => 0
    fregs := fun _ => 0
    pc := 0
    nextPc := 0
    mode := .machine
    csr := .new
    mmu := .new
    decodeCache := .new
    fetchTranslation := none
    reservation := none
    wfi := false }

def reg (cpu : Cpu) (r : Reg) : U64 :=
  cpu.regs r

/-- Writes to `x0` are ignored. -/
def setReg (cpu : Cpu) (r : Reg) (v : U64) : Cpu :=
  if r ≠ 0 then { cpu with regs := Function.update cpu.regs r v } else cpu

/-- Effective privilege of data accesses, honouring `mstatus.MPRV`. -/
def dataMode (cpu : Cpu) : Mode :=
  if cpu.csr.mstatusField Mstatus.MPRV then
    .fromBits ((cpu.csr.loadRaw Csr.MSTATUS &&& Mstatus.MPP_MASK) >>> Mstatus.MPP_SHIFT)
  else cpu.mode

/-- The CSR-derived inputs of a translation. -/
def translateParams (cpu : Cpu) (acc : AccessType) (mode : Mode) : Mmu.Params :=
  { mode := mode
    mxr := cpu.csr.mstatusField Mstatus.MXR
    sum := cpu.csr.mstatusField Mstatus.SUM
    adue := cpu.csr.adueEnabled
    acc := acc }

/-! ## Traps -/

def forceMstatus (cpu : Cpu) (val : U64) : Cpu :=
  { cpu with csr := cpu.csr.storeRaw Csr.MSTATUS val }

/-- Vectored targets apply to interrupts only. -/
def tvecTarget (tvec cause : U64) (isInterrupt : Bool) : U64 :=
  let base := tvec &&& ~~~3
  if tvec &&& 3 = 1 ∧ isInterrupt then
    base + (4 : U64) * (cause &&& ~~~((1 : U64) <<< 63))
  else base

/-- SPIE = SIE, SIE = 0, SPP = the current mode. -/
def strapStatus (mode : Mode) (status : U64) : U64 :=
  (status &&& ~~~(Mstatus.SPIE ||| Mstatus.SIE ||| Mstatus.SPP)) |||
    (if status &&& Mstatus.SIE ≠ 0 then Mstatus.SPIE else 0) |||
    (if mode = .supervisor then Mstatus.SPP else 0)

/-- MPIE = MIE, MIE = 0, MPP = the current mode. -/
def mtrapStatus (mode : Mode) (status : U64) : U64 :=
  (status &&& ~~~(Mstatus.MPIE ||| Mstatus.MIE ||| Mstatus.MPP_MASK)) |||
    (if status &&& Mstatus.MIE ≠ 0 then Mstatus.MPIE else 0) |||
    (mode.bits <<< Mstatus.MPP_SHIFT)

def enterTrap (cpu : Cpu) (cause tval epc : U64) (toS isInterrupt : Bool) : Cpu :=
  let status := cpu.csr.loadRaw Csr.MSTATUS
  if toS then
    let csr := ((cpu.csr.storeRaw Csr.SEPC epc).storeRaw Csr.SCAUSE cause).storeRaw Csr.STVAL tval
    let cpu' := { cpu with csr := csr }.forceMstatus (strapStatus cpu.mode status)
    { cpu' with
      mode := .supervisor
      pc := tvecTarget (cpu'.csr.loadRaw Csr.STVEC) cause isInterrupt }
  else
    let csr := ((cpu.csr.storeRaw Csr.MEPC epc).storeRaw Csr.MCAUSE cause).storeRaw Csr.MTVAL tval
    let cpu' := { cpu with csr := csr }.forceMstatus (mtrapStatus cpu.mode status)
    { cpu' with
      mode := .machine
      pc := tvecTarget (cpu'.csr.loadRaw Csr.MTVEC) cause isInterrupt }

def takeException (cpu : Cpu) (e : Exception) : Cpu :=
  let deleg := cpu.csr.loadRaw Csr.MEDELEG
  let toS := decide (cpu.mode ≠ .machine) && decide ((deleg >>> e.cause.toNat) &&& 1 = 1)
  { cpu with reservation := none }.enterTrap e.cause e.tval cpu.pc toS false

def takeInterrupt (cpu : Cpu) (i : Interrupt) : Cpu :=
  let deleg := cpu.csr.loadRaw Csr.MIDELEG
  let toS := decide (cpu.mode ≠ .machine) && decide (deleg &&& i.bit ≠ 0)
  { cpu with wfi := false }.enterTrap i.cause 0 cpu.pc toS true

/-- The first interrupt of a priority list whose bit is pending. -/
def firstPending (pending : U64) (order : List (U64 × Interrupt)) : Option Interrupt :=
  (order.find? fun entry => pending &&& entry.1 ≠ 0).map Prod.snd

def MACHINE_ORDER : List (U64 × Interrupt) :=
  [(Irq.MEIP, .machineExternal), (Irq.MSIP, .machineSoftware), (Irq.MTIP, .machineTimer),
    (Irq.SEIP, .supervisorExternal), (Irq.SSIP, .supervisorSoftware),
    (Irq.STIP, .supervisorTimer)]

def SUPERVISOR_ORDER : List (U64 × Interrupt) :=
  [(Irq.SEIP, .supervisorExternal), (Irq.SSIP, .supervisorSoftware),
    (Irq.STIP, .supervisorTimer)]

def supervisorInterrupt (cpu : Cpu) (sPending : U64) : Option Interrupt :=
  if (cpu.mode = .user ∨ (cpu.mode = .supervisor ∧ cpu.csr.mstatusField Mstatus.SIE)) ∧
      sPending ≠ 0 then
    firstPending sPending SUPERVISOR_ORDER
  else none

/-- Highest-priority pending and enabled interrupt. -/
def pendingInterrupt (cpu : Cpu) : Option Interrupt :=
  let pending := cpu.csr.loadRaw Csr.MIP &&& cpu.csr.loadRaw Csr.MIE
  let mideleg := cpu.csr.loadRaw Csr.MIDELEG
  if pending = 0 then none
  else if (cpu.mode ≠ .machine ∨ cpu.csr.mstatusField Mstatus.MIE) ∧
      pending &&& ~~~mideleg ≠ 0 then
    -- Pending bits outside the list leave the search to the supervisor level.
    match firstPending (pending &&& ~~~mideleg) MACHINE_ORDER with
    | some i => some i
    | none => cpu.supervisorInterrupt (pending &&& mideleg)
  else cpu.supervisorInterrupt (pending &&& mideleg)

/-- SIE = SPIE, SPIE = 1, SPP = 0; a return below machine mode clears MPRV. -/
def sretStatus (newMode : Mode) (status : U64) : U64 :=
  let s := (status &&& ~~~(Mstatus.SIE ||| Mstatus.SPP)) |||
    (if status &&& Mstatus.SPIE ≠ 0 then Mstatus.SIE else 0) ||| Mstatus.SPIE
  if newMode ≠ .machine then s &&& ~~~Mstatus.MPRV else s

def sret (cpu : Cpu) : Except Exception Cpu :=
  if cpu.mode = .user ∨ (cpu.mode = .supervisor ∧ cpu.csr.mstatusField Mstatus.TSR) then
    .error (.illegalInstruction 0)
  else
    let status := cpu.csr.loadRaw Csr.MSTATUS
    let newMode := if status &&& Mstatus.SPP ≠ 0 then Mode.supervisor else .user
    let cpu' := cpu.forceMstatus (sretStatus newMode status)
    .ok { cpu' with mode := newMode, nextPc := cpu'.csr.loadRaw Csr.SEPC }

/-- MIE = MPIE, MPIE = 1, MPP = 0; a return below machine mode clears MPRV. -/
def mretStatus (newMode : Mode) (status : U64) : U64 :=
  let s := (status &&& ~~~(Mstatus.MIE ||| Mstatus.MPP_MASK)) |||
    (if status &&& Mstatus.MPIE ≠ 0 then Mstatus.MIE else 0) ||| Mstatus.MPIE
  if newMode ≠ .machine then s &&& ~~~Mstatus.MPRV else s

def mret (cpu : Cpu) : Except Exception Cpu :=
  if cpu.mode ≠ .machine then
    .error (.illegalInstruction 0)
  else
    let status := cpu.csr.loadRaw Csr.MSTATUS
    let newMode := Mode.fromBits ((status &&& Mstatus.MPP_MASK) >>> Mstatus.MPP_SHIFT)
    let cpu' := cpu.forceMstatus (mretStatus newMode status)
    .ok { cpu' with mode := newMode, nextPc := cpu'.csr.loadRaw Csr.MEPC }

end Cpu

/-! ## Memory accesses -/

structure Sys (β : Type) where
  cpu : Cpu
  bus : Bus β

abbrev Hart (β α : Type) := EStateM Exception (Sys β) α

namespace Hart

variable {β : Type} [BlockBackend β]

def modifyCpu (f : Cpu → Cpu) : Hart β PUnit :=
  modify fun s => { s with cpu := f s.cpu }

/-- A bus access whose refusal raises `e`. -/
def onBus {α : Type} (e : Exception) (x : Access (Bus β) α) : Hart β α :=
  Effect.zoom Sys.bus (fun bus s => { s with bus := bus }) (fun _ => e) x

def onMmu {α : Type} (x : EStateM Exception (Mmu × Bus β) α) : Hart β α :=
  Effect.zoom (fun s => (s.cpu.mmu, s.bus))
    (fun t s => { cpu := { s.cpu with mmu := t.1 }, bus := t.2 }) id x

def translate (va : U64) (acc : AccessType) (mode : Mode) : Hart β U64 := do
  let s ← get
  let satp := s.cpu.csr.loadRaw Csr.SATP
  if Mmu.identity satp mode then
    pure va
  else
    onMmu (Mmu.translate satp (s.cpu.translateParams acc mode) va)

def crossesPage (va : U64) (size : Nat) : Bool :=
  1 < size && va &&& (BitVec.ofNat 64 size - 1) ≠ 0 && 0x1000 < (va &&& 0xFFF).toNat + size

/-- Physical addresses of the bytes at the given offsets, taking any fault. -/
def translateBytes (va : U64) (acc : AccessType) (mode : Mode) : List Nat → Hart β (List U64)
  | [] => pure []
  | i :: offsets =>
    if 2 ^ 64 ≤ va.toNat + i then
      throw (Mmu.pageFault acc va)
    else do
      let pa ← translate (va + BitVec.ofNat 64 i) acc mode
      let pas ← translateBytes va acc mode offsets
      pure (pa :: pas)

def loadBytes (va : U64) : List U64 → Nat → U64 → Hart β U64
  | [], _, v => pure v
  | pa :: pas, i, v => do
    let b ← onBus (.loadAccessFault va) (Bus.read pa 1)
    loadBytes va pas (i + 1) (v ||| (b <<< (i * 8)))

def loadCrossPage (va : U64) (size : Nat) (mode : Mode) : Hart β U64 :=
  if 8 < size then
    throw (.loadAccessFault va)
  else do
    let pas ← translateBytes va .load mode (List.range size)
    loadBytes va pas 0 0

def load (va : U64) (size : Nat) : Hart β U64 := do
  let s ← get
  if crossesPage va size then
    loadCrossPage va size s.cpu.dataMode
  else do
    let pa ← translate va .load s.cpu.dataMode
    onBus (.loadAccessFault va) (Bus.read pa size)

def storeBytes (va val : U64) : List U64 → Nat → Hart β Unit
  | [], _ => pure ()
  | pa :: pas, i => do
    onBus (.storeAccessFault va) (Bus.write pa ((val >>> (i * 8)) &&& 0xFF) 1)
    storeBytes va val pas (i + 1)

/-- Translate every byte and check that it is writable, then commit. -/
def storeCrossPage (va val : U64) (size : Nat) (mode : Mode) : Hart β Unit :=
  if 8 < size then
    throw (.storeAccessFault va)
  else do
    let pas ← translateBytes va .store mode (List.range size)
    let s ← get
    if pas.any fun pa => !s.bus.writeAccessible pa 1 then
      throw (.storeAccessFault va)
    else
      storeBytes va val pas 0

def store (va val : U64) (size : Nat) : Hart β Unit := do
  let s ← get
  let mode := s.cpu.dataMode
  modifyCpu fun cpu => { cpu with reservation := none }
  if crossesPage va size then
    storeCrossPage va val size mode
  else do
    let pa ← translate va .store mode
    onBus (.storeAccessFault va) (Bus.write pa val size)

/-- Translate for an AMO, LR or SC; a misaligned one is an access fault. -/
def translateAmo (va : U64) (size : Nat) (isStore : Bool) : Hart β U64 := do
  let s ← get
  let acc := if isStore then AccessType.store else .load
  if va &&& (BitVec.ofNat 64 size - 1) ≠ 0 then
    throw (Mmu.accessFault acc va)
  else
    translate va acc s.cpu.dataMode

/-! ## Instruction fetch -/

/-- The memoised frame of `pc`, if the memo is for its page, this mode and this TLB generation. -/
def memoisedFetch (cpu : Cpu) (pc : U64) : Option U64 :=
  match cpu.fetchTranslation with
  | some cached =>
    if cached.vpn = pc >>> 12 ∧ cached.mode = cpu.mode ∧
        cached.mmuGeneration = cpu.mmu.generation then
      some (cached.paBase ||| (pc &&& 0xFFF))
    else none
  | none => none

/-- Translate `pc` for an instruction fetch, memoising the page. -/
def translateFetch (pc : U64) : Hart β U64 := do
  let s ← get
  match memoisedFetch s.cpu pc with
  | some pa => pure pa
  | none => do
    let pa ← translate pc .fetch s.cpu.mode
    modifyCpu fun cpu =>
      { cpu with
        fetchTranslation := some
          { vpn := pc >>> 12
            paBase := pa &&& ~~~0xFFF
            mode := cpu.mode
            mmuGeneration := cpu.mmu.generation } }
    pure pa

def ramPageGeneration (bus : Bus β) (pa : U64) : Option (U64 × U64) :=
  if DRAM_BASE ≤ pa then bus.ram.pageGeneration (pa - DRAM_BASE) else none

/-- The page to cache a 4-byte instruction under: both halves in one page of one generation. -/
def windowPage (bus : Bus β) (pc pc2 pa pa2 : U64) : Option (U64 × U64) :=
  if pc >>> 12 = pc2 >>> 12 then
    match ramPageGeneration bus pa, ramPageGeneration bus pa2 with
    | some first, some second => if first = second then some first else none
    | _, _ => none
  else none

/-- Read the instruction window at the translated `pa`. -/
def fetchWindow (pc pa : U64) : Hart β FetchedInstruction := do
  let low ← onBus (.instructionAccessFault pc) (Bus.read pa 2)
  let low : U32 := low.setWidth 32
  let s ← get
  if low &&& 3 ≠ 3 then
    pure { raw := low, cachePage := ramPageGeneration s.bus pa }
  else do
    let pc2 := pc + 2
    -- The upper half may live on the next page.
    let pa2 ← if pc2 &&& 0xFFF = 0 then translate pc2 .fetch s.cpu.mode else pure (pa + 2)
    let high ← onBus (.instructionAccessFault pc2) (Bus.read pa2 2)
    let high : U32 := high.setWidth 32
    let s ← get
    pure { raw := low ||| (high <<< 16), cachePage := windowPage s.bus pc pc2 pa pa2 }

end Hart

end EmulateComputer
