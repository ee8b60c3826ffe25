import EmulateComputer.Cpu.Step

/-!
# Machine — the hart, the bus and the host around them

`run` executes a bounded slice: at every instruction boundary it services the network when its
interval is over, synchronises the interrupt lines, takes a pending interrupt and executes one
instruction.  The host calls in between deliver entropy, input, network frames and time.
-/

namespace EmulateComputer

inductive RunEvent
  | budgetExhausted
  | wfi
  | shutdown (code : U32)
  | reset
  deriving DecidableEq, Repr

/-- A machine over a block backend `β` and a network backend `ν`. -/
structure Machine (β ν : Type) extends Sys β where
  instructionTime : Bool
  mtimePhase : U8
  lastHostMtime : U64
  /-- `none` is an unplugged link. -/
  net : Option ν
  /-- Which rows the host has been shown; never part of a snapshot. -/
  framebuffer : Framebuffer.FramebufferView

namespace Machine

def TIMEBASE_FREQ : U64 := 10000000
def MAX_HOST_MTIME_ADVANCE : U64 := TIMEBASE_FREQ / 10
def TICKS_PER_MS : U64 := TIMEBASE_FREQ / 1000
def NET_TICK_INTERVAL : Nat := 4096

variable {β ν : Type}

def new (ramSize : Nat) (h : ramSize < 2 ^ 63) : Machine β ν :=
  { cpu := .new
    bus := .new ramSize h
    instructionTime := false
    mtimePhase := 0
    lastHostMtime := 0
    net := none
    framebuffer := .new }

/-- The system profile exposes the compatibility PMP registers. -/
def newSystem (ramSize : Nat) (h : ramSize < 2 ^ 63) : Machine β ν :=
  let m : Machine β ν := new ramSize h
  { m with cpu := { m.cpu with csr := m.cpu.csr.enablePmpStubs } }

def withBus (m : Machine β ν) (f : Bus β → Bus β) : Machine β ν :=
  { m with bus := f m.bus }

theorem withBus_eq_self {m : Machine β ν} {f : Bus β → Bus β} (h : f m.bus = m.bus) :
    m.withBus f = m := by
  unfold withBus
  rw [h]

def setNetBackend (m : Machine β ν) (backend : ν) : Machine β ν :=
  { m with net := some backend }

/-- Reset-vector setup of the boot handoff. -/
def setBoot (m : Machine β ν) (pc a0Hartid a1Dtb a2 : U64) : Machine β ν :=
  { m with
    cpu := { m.cpu with
      pc := pc
      regs := Function.update (Function.update (Function.update m.cpu.regs 10 a0Hartid) 11 a1Dtb)
        12 a2 } }

def loadBlob (m : Machine β ν) (paddr : U64) (blob : List U8) : Option (Machine β ν) :=
  if paddr < DRAM_BASE then none
  else (m.bus.ram.loadBlob (paddr - DRAM_BASE) blob).map fun ram =>
    m.withBus fun bus => { bus with ram := ram }

/-! ## Network -/

section Net

variable [NetBackend ν]

def transmitAll (backend : ν) : Nat → VirtioNet → ν × VirtioNet
  | 0, d => (backend, d)
  | fuel + 1, d =>
    match d.popTransmitted with
    | (some frame, d) => transmitAll (NetBackend.transmit backend frame) fuel d
    | (none, d) => (backend, d)

def receiveUpTo (backend : ν) : Nat → VirtioNet → ν × VirtioNet
  | 0, d => (backend, d)
  | space + 1, d =>
    match NetBackend.receive backend with
    | (some frame, backend) => receiveUpTo backend space (d.receiveFrame frame)
    | (none, backend) => (backend, d)

def handOver (backend : ν) (bus : Bus β) : ν × VirtioNet :=
  let sent := transmitAll backend bus.virtioNet.outbox.length bus.virtioNet
  (NetBackend.poll sent.1 (bus.clint.mtime / TICKS_PER_MS), sent.2)

def pull (backend : ν) (d : VirtioNet) : ν × VirtioNet :=
  receiveUpTo backend (VirtioNet.FRAME_QUEUE_CAPACITY - d.pendingRx) d

def exchange (backend : ν) (bus : Bus β) : ν × Bus β :=
  let sent := handOver backend bus
  -- Drain the inbox first so the pull sees real free space.
  let drained := VirtioNet.deliverRx (sent.2, bus.ram)
  let pulled := pull sent.1 drained.1
  let delivered := VirtioNet.deliverRx (pulled.2, drained.2)
  (pulled.1, { bus with virtioNet := delivered.1, ram := delivered.2 })

def tickNet (m : Machine β ν) : Machine β ν :=
  let bus := { m.bus with deviceIrqsDirty := true }
  match m.net with
  | none => { m with bus := bus }
  | some backend =>
    let r := exchange backend bus
    { m with net := some r.1, bus := r.2 }

def netDeadlineMs (m : Machine β ν) : Option U64 :=
  m.net.bind NetBackend.nextDeadlineMs

end Net

/-! ## Host calls -/

/-- Inject host randomness; the answer is the number of bytes accepted. -/
def addEntropy (m : Machine β ν) (bytes : List U8) : Nat × Machine β ν :=
  let r := VirtioEntropy.addEntropy bytes (m.bus.virtioRng, m.bus.ram)
  (r.1, m.withBus fun bus => { bus with virtioRng := r.2.1, ram := r.2.2 })

def keyboardEvents (m : Machine β ν) (events : List InputEvent) : Machine β ν :=
  let r := VirtioInput.flush (events.foldl VirtioInput.queueEvent m.bus.virtioKbd, m.bus.ram)
  m.withBus fun bus => { bus with virtioKbd := r.1, ram := r.2 }

def tabletEvents (m : Machine β ν) (events : List InputEvent) : Machine β ν :=
  let r := VirtioInput.flush (events.foldl VirtioInput.queueEvent m.bus.virtioTablet, m.bus.ram)
  m.withBus fun bus => { bus with virtioTablet := r.1, ram := r.2 }

def pressed (down : Bool) : U32 :=
  if down then 1 else 0

def inputKey (m : Machine β ν) (code : U16) (down : Bool) : Machine β ν :=
  m.keyboardEvents [⟨VirtioInput.EV_KEY, code, pressed down⟩]

def inputPointerAbs (m : Machine β ν) (x y : U16) : Machine β ν :=
  m.tabletEvents
    [⟨VirtioInput.EV_ABS, VirtioInput.ABS_X, x.setWidth 32⟩,
      ⟨VirtioInput.EV_ABS, VirtioInput.ABS_Y, y.setWidth 32⟩]

def inputButton (m : Machine β ν) (code : U16) (down : Bool) : Machine β ν :=
  m.tabletEvents [⟨VirtioInput.EV_KEY, code, pressed down⟩]

def inputWheel (m : Machine β ν) (delta : U32) : Machine β ν :=
  if delta = 0 then m
  else m.tabletEvents [⟨VirtioInput.EV_REL, VirtioInput.REL_WHEEL, delta⟩]

def uartInput (m : Machine β ν) (bytes : List U8) : Machine β ν :=
  m.withBus fun bus => { bus with uart := bytes.foldl Uart.pushRx bus.uart }

def uartOutput (m : Machine β ν) : List U8 × Machine β ν :=
  (m.bus.uart.takeTx.1, m.withBus fun bus => { bus with uart := bus.uart.takeTx.2 })

/-- A whole message for the control port, or nothing of it. -/
def controlInput (m : Machine β ν) (bytes : List U8) : Bool × Machine β ν :=
  let r := VirtioConsole.hostInput bytes (m.bus.virtioConsole, m.bus.ram)
  (r.1, m.withBus fun bus =>
    { bus with deviceIrqsDirty := true, virtioConsole := r.2.1, ram := r.2.2 })

def controlOutput (m : Machine β ν) : List U8 × Machine β ν :=
  let r := VirtioConsole.hostOutput (m.bus.virtioConsole, m.bus.ram)
  (r.1, m.withBus fun bus =>
    { bus with deviceIrqsDirty := true, virtioConsole := r.2.1, ram := r.2.2 })

/-! ## Time -/

def setMtime (m : Machine β ν) (t : U64) : Machine β ν :=
  m.withBus fun bus => { bus with clint := { bus.clint with mtime := t } }

def setUnixTimeNs (m : Machine β ν) (timeNs : U64) : Machine β ν :=
  m.withBus fun bus => { bus with rtc := bus.rtc.setTimeNs timeNs }

/-- Only the delta to the last sample is applied; the timer clock clamps it, the real-time clock
does not. -/
def advanceMtimeFromHost (m : Machine β ν) (hostTicks : U64) : Machine β ν :=
  let elapsed : U64 := if m.lastHostMtime ≤ hostTicks then hostTicks - m.lastHostMtime else 0
  let applied := if elapsed ≤ MAX_HOST_MTIME_ADVANCE then elapsed else MAX_HOST_MTIME_ADVANCE
  { m with
    lastHostMtime := hostTicks
    bus := { m.bus with
      clint := { m.bus.clint with mtime := m.bus.clint.mtime + applied }
      rtc := m.bus.rtc.advanceMtimeTicks elapsed } }

def enableInstructionTime (m : Machine β ν) : Machine β ν :=
  { m with instructionTime := true, mtimePhase := 0 }

def nextTimerDeadline (m : Machine β ν) : U64 :=
  let stimecmp := m.cpu.csr.loadRaw Csr.STIMECMP
  if m.cpu.csr.stceEnabled then
    if m.bus.clint.mtimecmp ≤ stimecmp then m.bus.clint.mtimecmp else stimecmp
  else m.bus.clint.mtimecmp

/-! ## Interrupt lines -/

def DEVICE_MASK : U64 :=
  Irq.SSIP ||| Irq.MSIP ||| Irq.STIP ||| Irq.MTIP ||| Irq.SEIP ||| Irq.MEIP

def devicePending (csr : CsrFile) (bus : Bus β) : U64 :=
  (if bus.clint.mtip then Irq.MTIP else 0) ||| (if bus.clint.msip then Irq.MSIP else 0) |||
    (if csr.stceEnabled ∧ csr.loadRaw Csr.STIMECMP ≤ bus.clint.mtime then Irq.STIP else 0) |||
    (if bus.plic.eip 0 then Irq.MEIP else 0) ||| (if bus.plic.eip 1 then Irq.SEIP else 0) |||
    bus.simpleIrq.level

def syncCpuIrqs (m : Machine β ν) : Machine β ν :=
  { m with
    cpu := { m.cpu with
      csr := m.cpu.csr.setDeviceMip DEVICE_MASK (devicePending m.cpu.csr m.bus) } }

/-- The interrupt sources of the devices with their current levels, in the order they are set. -/
def irqLines (bus : Bus β) : List (U32 × Bool) :=
  [(Bus.UART_IRQ, bus.uart.irqPending), (Bus.RTC_IRQ, bus.rtc.irqPending),
    (Bus.VIRTIO_IRQ, bus.virtioBlk.transport.irqPending),
    (Bus.VIRTIO_RNG_IRQ, bus.virtioRng.transport.irqPending),
    (Bus.VIRTIO_NET_IRQ, bus.virtioNet.transport.irqPending),
    (Bus.VIRTIO_KBD_IRQ, bus.virtioKbd.transport.irqPending),
    (Bus.VIRTIO_CONSOLE_IRQ, bus.virtioConsole.transport.irqPending),
    (Bus.VIRTIO_TABLET_IRQ, bus.virtioTablet.transport.irqPending)]

def syncIrqs (m : Machine β ν) : Machine β ν :=
  syncCpuIrqs <| m.withBus fun bus =>
    { bus with deviceIrqsDirty := false, plic := bus.plic.driveLines (irqLines bus) }

/-- The full synchronisation only when a line may have moved. -/
def lazySync (m : Machine β ν) : Machine β ν :=
  if m.bus.deviceIrqsDirty then m.syncIrqs else m.syncCpuIrqs

/-! ## The run loop -/

def interrupt (m : Machine β ν) : Machine β ν :=
  match m.cpu.pendingInterrupt with
  | some i => { m with cpu := m.cpu.takeInterrupt i }
  | none => m

/-- Deterministic time: one tick per ten instructions. -/
def tickTime (m : Machine β ν) : Machine β ν :=
  if m.instructionTime then
    let phase := m.mtimePhase + 1
    if phase = 10 then
      { m with
        mtimePhase := 0
        bus := { m.bus with clint := { m.bus.clint with mtime := m.bus.clint.mtime + 1 } } }
    else { m with mtimePhase := phase }
  else m

section Run

variable [BlockBackend β] [ApFloat]

def step (m : Machine β ν) : StepResult × Machine β ν :=
  let r := m.toSys.step
  (r.1, { m with toSys := r.2 })

variable [NetBackend ν]

def netTurn (networked : Bool) (untilNetTick : Nat) (m : Machine β ν) : Nat × Machine β ν :=
  if networked then
    if untilNetTick - 1 = 0 then (NET_TICK_INTERVAL, m.tickNet) else (untilNetTick - 1, m)
  else (untilNetTick, m)

/-- What follows an instruction: stop, or go on with the rest of the budget. -/
def afterStep (networked : Bool) (r : StepResult × Machine β ν) :
    RunEvent × Machine β ν ⊕ Machine β ν :=
  match r.1 with
  | .waitingForInterrupt => .inl (.wfi, if networked then r.2.tickNet else r.2)
  | .executed =>
    let m := r.2.tickTime
    match m.bus.shutdown with
    | some code => .inl (.shutdown code, m)
    | none => if m.bus.resetRequested then .inl (.reset, m) else .inr m

/-- The loop of `run`, over the way the interrupt lines are synchronised. -/
def runLoop (sync : Machine β ν → Machine β ν) (networked : Bool) :
    Nat → Nat → Machine β ν → RunEvent × Machine β ν
  | 0, _, m => (.budgetExhausted, m)
  | budget + 1, untilNetTick, m =>
    let t := netTurn networked untilNetTick m
    match afterStep networked (interrupt (sync t.2)).step with
    | .inl r => r
    | .inr m => runLoop sync networked budget t.1 m

def beginRun (m : Machine β ν) : Machine β ν :=
  let m := m.withBus fun bus => { bus with deviceIrqsDirty := true }
  if m.net.isSome then m.tickNet else m

/-- `run`, over the way the interrupt lines are synchronised. -/
def runWith (sync : Machine β ν → Machine β ν) (m : Machine β ν) (budget : Nat) :
    RunEvent × Machine β ν :=
  runLoop sync m.net.isSome budget NET_TICK_INTERVAL m.beginRun

def run (m : Machine β ν) (budget : Nat) : RunEvent × Machine β ν :=
  m.runWith lazySync budget

end Run

end Machine

end EmulateComputer
