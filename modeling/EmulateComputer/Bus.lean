import EmulateComputer.Devices.Platform
import EmulateComputer.Devices.Plic
import EmulateComputer.Devices.VirtioBlk
import EmulateComputer.Devices.VirtioConsole
import EmulateComputer.Devices.VirtioInput
import EmulateComputer.Devices.VirtioNet
import EmulateComputer.Devices.VirtioRng
import EmulateComputer.Devices.Framebuffer

/-!
# Bus — physical memory map and access dispatch

Addresses from `DRAM_BASE` on are RAM; below it each device owns one region.  An access that
reaches a device first raises the interrupt-recheck flag.

The second half says once what an access can do to the bus: RAM only evolves; either the recheck
flag is up afterwards or nothing but RAM has changed; a failed write changes nothing but the flag.
-/

namespace EmulateComputer

open Effect

structure Bus (β : Type) where
  ram : Ram
  clint : Clint
  plic : Plic
  uart : Uart
  rtc : GoldfishRtc
  virtioBlk : VirtioBlock β
  virtioConsole : VirtioConsole
  virtioRng : VirtioEntropy
  virtioNet : VirtioNet
  virtioKbd : VirtioInput .keyboard
  virtioTablet : VirtioInput .tablet
  simpleIrq : SimpleInterruptGenerator
  framebufferBlitter : FramebufferBlitter
  /-- Set when the guest writes the test finisher: the exit code. -/
  shutdown : Option U32
  resetRequested : Bool
  deviceIrqsDirty : Bool

/-- The device regions below `DRAM_BASE`. -/
inductive Region
  | virtioConsole
  | clint
  | plic
  | uart
  | rtc
  | virtioBlk
  | virtioRng
  | virtioNet
  | virtioKbd
  | virtioTablet
  | simpleIrq
  | framebufferBlitter
  | test
  deriving DecidableEq, Repr

namespace Region

def base : Region → U64
  | virtioConsole => 0x10007000
  | clint => 0x2000000
  | plic => 0xC000000
  | uart => 0x10000000
  | rtc => 0x101000
  | virtioBlk => 0x10001000
  | virtioRng => 0x10002000
  | virtioNet => 0x10003000
  | virtioKbd => 0x10004000
  | virtioTablet => 0x10005000
  | simpleIrq => 0x10010000
  | framebufferBlitter => 0x10006000
  | test => 0x100000

def size : Region → U64
  | virtioConsole => 0x1000
  | clint => 0x10000
  | plic => 0x600000
  | uart => 0x100
  | rtc => 0x1000
  | virtioBlk => 0x1000
  | virtioRng => 0x1000
  | virtioNet => 0x1000
  | virtioKbd => 0x1000
  | virtioTablet => 0x1000
  | simpleIrq => 0x20
  | framebufferBlitter => 0x2c
  | test => 0x1000

def all : List Region :=
  [virtioConsole, clint, plic, uart, rtc, virtioBlk, virtioRng, virtioNet, virtioKbd,
    virtioTablet, simpleIrq, framebufferBlitter, test]

def ofAddr (addr : U64) : Option Region :=
  all.find? fun r => decide (r.base ≤ addr ∧ addr < r.base + r.size)

end Region

namespace Bus

def UART_IRQ : U32 := 10
def VIRTIO_IRQ : U32 := 1
def VIRTIO_RNG_IRQ : U32 := 2
def VIRTIO_NET_IRQ : U32 := 3
def VIRTIO_KBD_IRQ : U32 := 4
def VIRTIO_TABLET_IRQ : U32 := 5
def VIRTIO_CONSOLE_IRQ : U32 := 6
def RTC_IRQ : U32 := 11

variable {β : Type}

def new (ramSize : Nat) (h : ramSize < 2 ^ 63) : Bus β :=
  { ram := Ram.new ramSize h
    clint := Clint.new
    plic := Plic.new
    uart := Uart.new
    rtc := GoldfishRtc.new
    virtioBlk := VirtioBlock.new
    virtioConsole := VirtioConsole.new
    virtioRng := VirtioEntropy.new
    virtioNet := VirtioNet.new
    virtioKbd := VirtioInput.new .keyboard
    virtioTablet := VirtioInput.new .tablet
    simpleIrq := SimpleInterruptGenerator.new
    framebufferBlitter := FramebufferBlitter.new
    shutdown := none
    resetRequested := false
    deviceIrqsDirty := true }

def ofBytes (bytes : List U8) (h : bytes.length < 2 ^ 63) : Bus β :=
  { new 0 (by decide) with ram := .ofBytes bytes h }

def isMainMemory (bus : Bus β) (addr : U64) (size : Nat) : Bool :=
  decide (DRAM_BASE ≤ addr) && decide ((addr - DRAM_BASE).toNat + size ≤ bus.ram.size)

def writeAccessible (bus : Bus β) (addr : U64) (size : Nat) : Bool :=
  if 2 ^ 64 ≤ addr.toNat + size then
    false
  else if DRAM_BASE ≤ addr then
    addr.toNat + size ≤ DRAM_BASE.toNat + bus.ram.size
  else
    Region.all.any fun r =>
      decide (r.base ≤ addr) && decide (addr.toNat + size ≤ r.base.toNat + r.size.toNat)

def finish (bus : Bus β) (val : U32) : Bus β :=
  if val &&& 0xFFFF = 0x5555 then { bus with shutdown := some 0 }
  else if val &&& 0xFFFF = 0x3333 then { bus with shutdown := some (val >>> 16) }
  else if val &&& 0xFFFF = 0x7777 then { bus with resetRequested := true }
  else bus

/-- History only: the last write of the word at `addr` was the walker's. -/
def noteMark (addr : U64) (bus : Bus β) : Bus β :=
  { bus with ram := bus.ram.noteMark (addr - DRAM_BASE).toNat }

variable [BlockBackend β]

def readDevice (offset : U64) (size : Nat) : Region → Access (Bus β) U64
  | .virtioConsole =>
    zoom Bus.virtioConsole (fun d bus => { bus with virtioConsole := d }) id
      (VirtioConsole.read offset size)
  | .clint => zoom Bus.clint (fun d bus => { bus with clint := d }) id
      (Clint.read offset size)
  | .plic => zoom Bus.plic (fun d bus => { bus with plic := d }) id
      (Plic.read offset size)
  | .uart => zoom Bus.uart (fun d bus => { bus with uart := d }) id
      (Uart.read offset size)
  | .rtc => zoom Bus.rtc (fun d bus => { bus with rtc := d }) id
      (GoldfishRtc.read offset size)
  | .virtioBlk => zoom Bus.virtioBlk (fun d bus => { bus with virtioBlk := d }) id
      (VirtioBlock.read offset size)
  | .virtioRng => zoom Bus.virtioRng (fun d bus => { bus with virtioRng := d }) id
      (VirtioEntropy.read offset size)
  | .virtioNet => zoom Bus.virtioNet (fun d bus => { bus with virtioNet := d }) id
      (VirtioNet.read offset size)
  | .virtioKbd => zoom Bus.virtioKbd (fun d bus => { bus with virtioKbd := d }) id
      (VirtioInput.read offset size)
  | .virtioTablet =>
    zoom Bus.virtioTablet (fun d bus => { bus with virtioTablet := d }) id
      (VirtioInput.read offset size)
  | .simpleIrq => zoom Bus.simpleIrq (fun d bus => { bus with simpleIrq := d }) id
      (SimpleInterruptGenerator.read offset size)
  | .framebufferBlitter =>
    zoom Bus.framebufferBlitter (fun d bus => { bus with framebufferBlitter := d }) id
      (FramebufferBlitter.read offset size)
  | .test => pure 0

/-- The write of one device, at an offset from its base; the virtio devices and the blitter may
change RAM too. -/
def writeDevice (offset val : U64) (size : Nat) : Region → Access (Bus β) Unit
  | .virtioConsole =>
    zoom (fun bus => (bus.virtioConsole, bus.ram))
      (fun s bus => { bus with virtioConsole := s.1, ram := s.2 }) id
      (VirtioConsole.write offset val size)
  | .clint => zoom Bus.clint (fun d bus => { bus with clint := d }) id
      (Clint.write offset val size)
  | .plic => zoom Bus.plic (fun d bus => { bus with plic := d }) id
      (Plic.write offset val size)
  | .uart => zoom Bus.uart (fun d bus => { bus with uart := d }) id
      (Uart.write offset val size)
  | .rtc => zoom Bus.rtc (fun d bus => { bus with rtc := d }) id
      (GoldfishRtc.write offset val size)
  | .virtioBlk =>
    zoom (fun bus => (bus.virtioBlk, bus.ram))
      (fun s bus => { bus with virtioBlk := s.1, ram := s.2 }) id
      (VirtioBlock.write offset val size)
  | .virtioRng =>
    zoom (fun bus => (bus.virtioRng, bus.ram))
      (fun s bus => { bus with virtioRng := s.1, ram := s.2 }) id
      (VirtioEntropy.write offset val size)
  | .virtioNet =>
    zoom (fun bus => (bus.virtioNet, bus.ram))
      (fun s bus => { bus with virtioNet := s.1, ram := s.2 }) id
      (VirtioNet.write offset val size)
  | .virtioKbd =>
    zoom (fun bus => (bus.virtioKbd, bus.ram))
      (fun s bus => { bus with virtioKbd := s.1, ram := s.2 }) id
      (VirtioInput.write offset val size)
  | .virtioTablet =>
    zoom (fun bus => (bus.virtioTablet, bus.ram))
      (fun s bus => { bus with virtioTablet := s.1, ram := s.2 }) id
      (VirtioInput.write offset val size)
  | .simpleIrq => zoom Bus.simpleIrq (fun d bus => { bus with simpleIrq := d }) id
      (SimpleInterruptGenerator.write offset val size)
  | .framebufferBlitter =>
    zoom (fun bus => (bus.framebufferBlitter, bus.ram))
      (fun s bus => { bus with framebufferBlitter := s.1, ram := s.2 }) id
      (FramebufferBlitter.write offset val size)
  | .test => modify fun bus => bus.finish (val.setWidth 32)

def readMmio (addr : U64) (size : Nat) : Access (Bus β) U64 := do
  modify fun bus => { bus with deviceIrqsDirty := true }
  match Region.ofAddr addr with
  | some r => readDevice (addr - r.base) size r
  | none => throw ()

def writeMmio (addr val : U64) (size : Nat) : Access (Bus β) Unit := do
  modify fun bus => { bus with deviceIrqsDirty := true }
  match Region.ofAddr addr with
  | some r => writeDevice (addr - r.base) val size r
  | none => throw ()

def read (addr : U64) (size : Nat) : Access (Bus β) U64 := fun bus =>
  if DRAM_BASE ≤ addr then
    match bus.ram.read (addr - DRAM_BASE) size with
    | some v => .ok v bus
    | none => .error () bus
  else
    readMmio addr size bus

def write (addr val : U64) (size : Nat) : Access (Bus β) Unit := fun bus =>
  if DRAM_BASE ≤ addr then
    match bus.ram.write (addr - DRAM_BASE) val size with
    | some ram => .ok () { bus with ram := ram }
    | none => .error () bus
  else
    writeMmio addr val size bus

/-! ## What an access can do -/

/-- The recheck flag is up, or nothing but RAM has changed. -/
def DirtyOrRam (bus bus' : Bus β) : Prop :=
  bus'.deviceIrqsDirty = true ∨ ∃ ram, bus' = { bus with ram := ram }

omit [BlockBackend β] in
instance : IsPreorder (Bus β) DirtyOrRam where
  refl bus := Or.inr ⟨bus.ram, rfl⟩
  trans a b c := by
    rintro (hab | ⟨ram, rfl⟩) (hbc | ⟨ram', rfl⟩)
    · exact Or.inl hbc
    · exact Or.inl hab
    · exact Or.inl hbc
    · exact Or.inr ⟨ram', rfl⟩

/-! A preorder that the flag, RAM stores and the devices keep is kept by every access. -/

section Accesses

variable {R : Bus β → Bus β → Prop} [IsPreorder (Bus β) R]
variable (hflag : ∀ bus, R bus { bus with deviceIrqsDirty := true })
include hflag

theorem keeps_read_of (hdevice : ∀ offset size r, Keeps R (readDevice offset size r))
    (addr : U64) (size : Nat) : Keeps R (read addr size) := by
  intro bus
  unfold read
  split
  · cases bus.ram.read (addr - DRAM_BASE) size with
    | none | some v => exact refl_of R bus
  · revert bus
    refine keeps_bind (keeps_modify hflag) fun _ => ?_
    cases Region.ofAddr addr with
    | none => exact keeps_throw ()
    | some r => exact hdevice (addr - r.base) size r

theorem keeps_write_of
    (hram : ∀ (bus : Bus β) offset val size ram, bus.ram.write offset val size = some ram →
      R bus { bus with ram := ram })
    (hdevice : ∀ offset val size r, Keeps R (writeDevice offset val size r)) (addr val : U64)
    (size : Nat) : Keeps R (write addr val size) := by
  intro bus
  unfold write
  split
  · cases hwrite : bus.ram.write (addr - DRAM_BASE) val size with
    | none => exact refl_of R bus
    | some ram => exact hram bus _ _ _ ram hwrite
  · revert bus
    refine keeps_bind (keeps_modify hflag) fun _ => ?_
    cases Region.ofAddr addr with
    | none => exact keeps_throw ()
    | some r => exact hdevice (addr - r.base) val size r

end Accesses

section Reads

variable (addr : U64) (size : Nat)

theorem ram_readDevice (offset : U64) (r : Region) (bus : Bus β) :
    (readDevice offset size r bus).state.ram = bus.ram ∧
      (readDevice offset size r bus).state.deviceIrqsDirty = bus.deviceIrqsDirty := by
  cases r <;> first
    | exact ⟨rfl, rfl⟩
    | (simp only [readDevice, zoom]; split <;> exact ⟨rfl, rfl⟩)

/-- A read leaves RAM alone, and raises the flag when it reaches a device. -/
theorem read_state (bus : Bus β) :
    (read addr size bus).state.ram = bus.ram ∧
      (DRAM_BASE ≤ addr → (read addr size bus).state = bus) ∧
      (¬ DRAM_BASE ≤ addr → (read addr size bus).state.deviceIrqsDirty = true) := by
  unfold read
  by_cases hram : DRAM_BASE ≤ addr
  · cases bus.ram.read (addr - DRAM_BASE) size <;> simp [hram]
  · have hmmio : (readMmio addr size bus).state.ram = bus.ram ∧
        (readMmio addr size bus).state.deviceIrqsDirty = true := by
      rw [readMmio, run_bind]
      cases Region.ofAddr addr with
      | none => exact ⟨rfl, rfl⟩
      | some r => exact ram_readDevice size (addr - r.base) r { bus with deviceIrqsDirty := true }
    simpa [hram] using hmmio

theorem keeps_read_dirtyOrRam : Keeps DirtyOrRam (read addr size : Access (Bus β) U64) := by
  intro bus
  by_cases hram : DRAM_BASE ≤ addr
  · exact Or.inr ⟨bus.ram, (read_state addr size bus).2.1 hram⟩
  · exact Or.inl ((read_state addr size bus).2.2 hram)

end Reads

section Writes

variable (addr val : U64) (size : Nat)

theorem dirty_writeDevice (offset : U64) (r : Region) (bus : Bus β) :
    (writeDevice offset val size r bus).state.deviceIrqsDirty = bus.deviceIrqsDirty := by
  cases r <;> first
    | (simp only [writeDevice, zoom]; split <;> rfl)
    | (simp only [writeDevice, run_modify, finish]; split_ifs <;> rfl)

theorem keeps_write_dirtyOrRam : Keeps DirtyOrRam (write addr val size : Access (Bus β) Unit) := by
  intro bus
  unfold write
  split
  · cases bus.ram.write (addr - DRAM_BASE) val size with
    | none => exact Or.inr ⟨bus.ram, rfl⟩
    | some ram => exact Or.inr ⟨ram, rfl⟩
  · refine Or.inl ?_
    rw [writeMmio, run_bind]
    cases Region.ofAddr addr with
    | none => rfl
    | some r => exact dirty_writeDevice val size (addr - r.base) r _

end Writes

end Bus

end EmulateComputer
