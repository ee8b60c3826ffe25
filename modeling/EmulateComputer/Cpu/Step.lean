import EmulateComputer.Cpu.Execute

/-!
# Step — fetch, decode and execute one instruction

An instruction comes from the active block, from a block found by physical address, or from
memory; only the first needs no translation.  Whatever happens, `x0` is reset and the cycle
counter advances unless it is inhibited.
-/

namespace EmulateComputer

inductive StepResult
  | executed
  | waitingForInterrupt
  deriving DecidableEq, Repr

/-- An instruction about to execute, and its place in the block cache if it has one. -/
structure Fetched where
  raw : U32
  inst : DecodedInst
  location : Option CacheLocation

namespace Hart

variable {β : Type} [BlockBackend β]

def ofLocation (location : CacheLocation) : Fetched :=
  ⟨location.instruction.raw, location.instruction.decoded, some location⟩

/-- Read and decode the instruction at `pa`, caching it if its page can be cached. -/
def fetchDecode (pc pa : U64) (append : Option (Nat × Nat)) : Hart β Fetched := do
  let fetched ← fetchWindow pc pa
  match Decode.decode fetched.raw with
  | none => throw (.illegalInstruction (fetched.raw.setWidth 64))
  | some decoded =>
    match fetched.cachePage with
    | none => pure ⟨fetched.raw, decoded, none⟩
    | some (page, generation) => do
      let s ← get
      let r := s.cpu.decodeCache.insert pa page generation ⟨pa, fetched.raw, decoded⟩ append
      modifyCpu fun cpu => { cpu with decodeCache := r.2 }
      pure ⟨fetched.raw, decoded, some r.1⟩

/-- A block start: translate first, so that any fault of a fresh fetch is raised. -/
def fetchPhysical (pc : U64) (append : Option (Nat × Nat)) : Hart β Fetched :=
  if pc &&& 1 ≠ 0 then
    throw (.instructionAddressMisaligned pc)
  else do
    let pa ← translateFetch pc
    match append with
    | some _ => fetchDecode pc pa append
    | none => do
      let s ← get
      let r := s.cpu.decodeCache.lookupPhysical pa s.bus.ram
      modifyCpu fun cpu => { cpu with decodeCache := r.2 }
      match r.1 with
      | .hit location => pure (ofLocation location)
      | .miss => fetchDecode pc pa none

def fetch (pc : U64) : Hart β Fetched := do
  let s ← get
  let r := s.cpu.decodeCache.lookupActive pc s.bus.ram
  modifyCpu fun cpu => { cpu with decodeCache := r.2 }
  match r.1 with
  | .hit location => pure (ofLocation location)
  | .append slot index => fetchPhysical pc (some (slot, index))
  | .none => fetchPhysical pc none

/-- A CSR instruction that writes `minstret` keeps the value it wrote. -/
def writesMinstret : Op → Bool
  | .csr .rw _ _ addr | .csr .rwi _ _ addr => addr = Csr.MINSTRET
  | .csr _ _ rs1 addr => rs1 ≠ 0 && addr = Csr.MINSTRET
  | _ => false

def retire (cpu : Cpu) (op : Op) : Cpu :=
  let inhibited := cpu.csr.loadRaw Csr.MCOUNTINHIBIT &&& ((1 : U64) <<< 2) ≠ 0
  { cpu with
    pc := cpu.nextPc
    csr := if ¬ writesMinstret op ∧ ¬ inhibited then
      { cpu.csr with instret := cpu.csr.instret + 1 } else cpu.csr }

def finish (f : Fetched) (pc : U64) (s : Sys β) : Sys β :=
  match f.location with
  | none => s
  | some location =>
    { s with
      cpu := { s.cpu with
        decodeCache := s.cpu.decodeCache.finishInstruction location pc (pc + f.inst.len)
          s.cpu.pc s.bus.ram } }

variable [ApFloat]

def run (f : Fetched) (pc : U64) : Hart β Unit := do
  modifyCpu fun cpu => { cpu with nextPc := cpu.pc + f.inst.len }
  Execute.execute f.raw f.inst.op
  modifyCpu fun cpu => retire cpu f.inst.op
  modify (finish f pc)

def stepInner : Hart β Unit := do
  let s ← get
  let f ← fetch s.cpu.pc
  run f s.cpu.pc

end Hart

namespace Sys

variable {β : Type} [BlockBackend β] [ApFloat]

def takeException (s : Sys β) (e : Exception) : Sys β :=
  { s with cpu := s.cpu.takeException e }

/-- The state after an attempted instruction, with the trap of a failure taken. -/
def settle (r : EStateM.Result Exception (Sys β) Unit) : Sys β :=
  match r with
  | .ok _ t => t
  | .error e t => t.takeException e

/-- `x0` reads as zero, and the cycle counter advances. -/
def tickCycle (cpu : Cpu) : Cpu :=
  { cpu with
    regs := Function.update cpu.regs 0 0
    csr := if cpu.csr.loadRaw Csr.MCOUNTINHIBIT &&& 1 = 0 then
      { cpu.csr with cycle := cpu.csr.cycle + 1 } else cpu.csr }

def stepAwake (s : Sys β) : Sys β :=
  let t := settle (Hart.stepInner s)
  { t with cpu := tickCycle t.cpu }

/-- An enabled interrupt is pending, whatever the global masks say. -/
def wakes (cpu : Cpu) : Bool :=
  cpu.csr.loadRaw Csr.MIP &&& cpu.csr.loadRaw Csr.MIE ≠ 0

def step (s : Sys β) : StepResult × Sys β :=
  if s.cpu.wfi then
    if wakes s.cpu then
      (.executed, stepAwake { s with cpu := { s.cpu with wfi := false } })
    else
      (.waitingForInterrupt, s)
  else
    (.executed, stepAwake s)

end Sys

end EmulateComputer
