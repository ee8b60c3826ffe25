import EmulateComputer.Machine

/-!
# Snapshot — the `EMUSNAP1` container

A container is magic, format version and header, then the sections of the hart, of every device,
of RAM and of the disk overlay.  The writer side is the bytes it appends, the reader side a program
over a cursor.

A restore builds on a target machine: what no section carries (the caches of the hart, the host's
attachments) is the target's.  A failed restore may leave any mixture behind and its machine is to
be discarded; the model then keeps the target.
-/

namespace EmulateComputer

/-! ## The hart -/

namespace Cpu

def SNAPSHOT_VERSION : U16 := 1

/-- `mode as u8`. -/
def modeByte (mode : Mode) : U8 :=
  mode.bits.setWidth 8

def readMode : Read Mode := do
  let mode ← Reader.u8
  if mode = 0 then pure .user
  else if mode = 1 then pure .supervisor
  else if mode = 3 then pure .machine
  else throw (toString mode.toNat ++ " is not a privilege mode")

def snapshotBody (cpu : Cpu) : List U8 :=
  (List.ofFn cpu.regs).flatMap Writer.u64 ++ ((List.ofFn cpu.fregs).flatMap Writer.u64 ++
    (Writer.u64 cpu.pc ++ (Writer.u64 cpu.nextPc ++ (Writer.u8 (modeByte cpu.mode) ++
      (Writer.bool cpu.reservation.isSome ++ (Writer.u64 (cpu.reservation.getD 0) ++
        Writer.bool cpu.wfi))))))

def snapshot (cpu : Cpu) : List U8 :=
  Writer.sectionOf SNAPSHOT_VERSION cpu.snapshotBody ++ cpu.csr.snapshot

/-- The registers are read, the caches are the target's. -/
def readBody (cpu : Cpu) : Read Cpu := do
  let regs ← Cursor.readMany (fun _ => Reader.u64) 0 32
  let fregs ← Cursor.readMany (fun _ => Reader.u64) 0 32
  let pc ← Reader.u64
  let nextPc ← Reader.u64
  let mode ← readMode
  let held ← Reader.bool
  let address ← Reader.u64
  let wfi ← Reader.bool
  pure
    { cpu with
      regs := fun r => regs.1.get (r.cast regs.2.symm)
      fregs := fun r => fregs.1.get (r.cast fregs.2.symm)
      pc := pc
      nextPc := nextPc
      mode := mode
      reservation := if held then some address else none
      wfi := wfi }

def restore (cpu : Cpu) : Read Cpu := do
  let cpu ← Reader.readSection "cpu" SNAPSHOT_VERSION cpu.readBody
  let csr ← CsrFile.restore
  pure { cpu with csr := csr }

def invalidateCaches (cpu : Cpu) : Cpu :=
  { cpu with
    mmu := cpu.mmu.flushAll
    decodeCache := cpu.decodeCache.flush
    fetchTranslation := none }

end Cpu

/-! ## Header and overlay -/

namespace Snapshot

def MAGIC : List U8 := [0x45, 0x4d, 0x55, 0x53, 0x4e, 0x41, 0x50, 0x31]
def FORMAT_VERSION : U32 := 6
def DISK_BLOCK : Nat := 4096
def HEADER_VERSION : U16 := 1
def MACHINE_SECTION_VERSION : U16 := 1

abbrev Digest := { bytes : List U8 // bytes.length = 32 }

/-- Lowercase hex of a digest. -/
def hex (digest : Digest) : String :=
  String.ofList (digest.1.flatMap fun b =>
    [Nat.digitChar (b.toNat / 16), Nat.digitChar (b.toNat % 16)])

/-- What a snapshot was taken from. -/
structure SnapshotIdentity where
  imageHash : Digest
  diskId : String

/-- Which header fields a restore insists on. -/
structure RestoreCheck where
  imageHash : Option Digest
  diskId : Option String

structure SnapshotHeader where
  identity : SnapshotIdentity
  ramBytes : U64
  timebaseHz : U64
  mtime : U64
  capturedUnixNs : U64
  ramPages : U64
  diskBlocks : U64

namespace SnapshotHeader

def body (h : SnapshotHeader) : List U8 :=
  h.identity.imageHash.1 ++ (Writer.string h.identity.diskId ++ (Writer.u64 h.ramBytes ++
    (Writer.u64 h.timebaseHz ++ (Writer.u64 h.mtime ++ (Writer.u64 h.capturedUnixNs ++
      (Writer.u64 h.ramPages ++ Writer.u64 h.diskBlocks))))))

def write (h : SnapshotHeader) : List U8 :=
  Writer.sectionOf HEADER_VERSION h.body

def read : Read SnapshotHeader :=
  Reader.readSection "header" HEADER_VERSION do
    let imageHash ← Reader.raw 32
    let diskId ← Reader.string
    let ramBytes ← Reader.u64
    let timebaseHz ← Reader.u64
    let mtime ← Reader.u64
    let capturedUnixNs ← Reader.u64
    let ramPages ← Reader.u64
    let diskBlocks ← Reader.u64
    pure
      { identity := { imageHash := imageHash, diskId := diskId }
        ramBytes := ramBytes
        timebaseHz := timebaseHz
        mtime := mtime
        capturedUnixNs := capturedUnixNs
        ramPages := ramPages
        diskBlocks := diskBlocks }

end SnapshotHeader

/-- Absolute contents of the disk blocks that differ from the seed image. -/
structure DiskOverlay where
  blocks : List (U64 × List U8)

namespace DiskOverlay

def blockRecord (block : U64 × List U8) : List U8 :=
  Writer.u64 block.1 ++ block.2

def body (overlay : DiskOverlay) : List U8 :=
  Writer.u64 (BitVec.ofNat 64 overlay.blocks.length) ++ overlay.blocks.flatMap blockRecord

def write (overlay : DiskOverlay) : List U8 :=
  Writer.sectionOf 1 overlay.body

def readBlock : Read (U64 × List U8) := do
  let index ← Reader.u64
  let bytes ← Reader.raw DISK_BLOCK
  pure (index, bytes.1)

def read : Read DiskOverlay :=
  Reader.readSection "disk-overlay" 1 do
    let count ← Reader.u64
    let blocks ← Cursor.readMany (fun _ => readBlock) 0 count.toNat
    pure ⟨blocks.1⟩

end DiskOverlay

end Snapshot

open Snapshot

/-! ## The machine -/

namespace Machine

variable {β ν : Type}

def machineBody (m : Machine β ν) : List U8 :=
  Writer.bool m.bus.shutdown.isSome ++ (Writer.u32 (m.bus.shutdown.getD 0) ++
    (Writer.bool m.bus.resetRequested ++ (Writer.bool m.instructionTime ++
      Writer.u8 m.mtimePhase)))

def snapshotDevices (m : Machine β ν) : List U8 :=
  m.bus.clint.snapshot ++ (m.bus.plic.snapshot ++ (m.bus.uart.snapshot ++ (m.bus.rtc.snapshot ++
    (m.bus.virtioBlk.snapshot ++ (m.bus.virtioConsole.snapshot ++ (m.bus.virtioRng.snapshot ++
      (m.bus.virtioNet.snapshot ++ (m.bus.virtioKbd.snapshot ++ (m.bus.virtioTablet.snapshot ++
        (m.bus.simpleIrq.snapshot ++ (m.bus.framebufferBlitter.snapshot ++
          Writer.sectionOf MACHINE_SECTION_VERSION m.machineBody)))))))))))

def restoreDevices (m : Machine β ν) : Read (Machine β ν) := do
  let clint ← Clint.restore
  let plic ← Plic.restore
  let uart ← Uart.restore
  let rtc ← GoldfishRtc.restore
  let virtioBlk ← m.bus.virtioBlk.restore
  let virtioConsole ← VirtioConsole.restore
  let virtioRng ← VirtioEntropy.restore
  let virtioNet ← VirtioNet.restore
  let virtioKbd ← VirtioInput.restore .keyboard
  let virtioTablet ← VirtioInput.restore .tablet
  let simpleIrq ← SimpleInterruptGenerator.restore
  let framebufferBlitter ← FramebufferBlitter.restore
  Reader.readSection "machine" MACHINE_SECTION_VERSION do
    let shuttingDown ← Reader.bool
    let code ← Reader.u32
    let resetRequested ← Reader.bool
    let instructionTime ← Reader.bool
    let mtimePhase ← Reader.u8
    pure
      { m with
        bus :=
          { m.bus with
            clint := clint, plic := plic, uart := uart, rtc := rtc, virtioBlk := virtioBlk
            virtioConsole := virtioConsole, virtioRng := virtioRng, virtioNet := virtioNet
            virtioKbd := virtioKbd, virtioTablet := virtioTablet, simpleIrq := simpleIrq
            framebufferBlitter := framebufferBlitter
            shutdown := if shuttingDown then some code else none
            resetRequested := resetRequested }
        instructionTime := instructionTime
        mtimePhase := mtimePhase }

def header (m : Machine β ν) (identity : SnapshotIdentity) (overlay : DiskOverlay) :
    SnapshotHeader :=
  { identity := identity
    ramBytes := BitVec.ofNat 64 m.bus.ram.size
    timebaseHz := TIMEBASE_FREQ
    mtime := m.bus.clint.mtime
    capturedUnixNs := m.bus.rtc.timeNs
    ramPages := m.bus.ram.nonzeroPageCount
    diskBlocks := BitVec.ofNat 64 overlay.blocks.length }

def snapshot (m : Machine β ν) (identity : SnapshotIdentity) (overlay : DiskOverlay) : List U8 :=
  MAGIC ++ (Writer.u32 FORMAT_VERSION ++ ((m.header identity overlay).write ++
    (m.cpu.snapshot ++ (m.snapshotDevices ++ (m.bus.ram.snapshot ++ overlay.write)))))

/-- The checks a restore makes on a header before it changes anything. -/
def checkHeader (m : Machine β ν) (check : RestoreCheck) (header : SnapshotHeader) : Read Unit := do
  match check.imageHash with
  | some expected =>
    if expected ≠ header.identity.imageHash then
      throw ("snapshot: taken from different boot images (snapshot " ++
        hex header.identity.imageHash ++ ", this host " ++ hex expected ++ ")")
  | none => pure ()
  match check.diskId with
  | some expected =>
    if expected ≠ header.identity.diskId then
      throw ("snapshot: taken on root disk " ++ header.identity.diskId.quote ++
        ", this host has " ++ expected.quote)
  | none => pure ()
  if header.ramBytes ≠ BitVec.ofNat 64 m.bus.ram.size then
    throw ("snapshot: taken with " ++ toString header.ramBytes.toNat ++
      " bytes of RAM, this machine has " ++ toString m.bus.ram.size)
  if header.timebaseHz ≠ TIMEBASE_FREQ then
    throw ("snapshot: taken at a " ++ toString header.timebaseHz.toNat ++
      " Hz timebase, this build runs at " ++ toString TIMEBASE_FREQ.toNat ++ " Hz")

def readSections (m : Machine β ν) : Read (Machine β ν × DiskOverlay) := do
  let cpu ← m.cpu.restore
  let m ← { m with cpu := cpu }.restoreDevices
  let ram ← m.bus.ram.restore
  let overlay ← DiskOverlay.read
  pure ({ m with bus := { m.bus with ram := ram } }, overlay)

def readContainer (m : Machine β ν) (check : RestoreCheck) : Read (Machine β ν × DiskOverlay) := do
  let magic ← Reader.raw 8
  if magic.1 ≠ MAGIC then
    throw "snapshot: not an EMUSNAP container"
  else
    let formatVersion ← Reader.u32
    if formatVersion ≠ FORMAT_VERSION then
      throw ("snapshot: container is format version " ++ toString formatVersion.toNat ++
        ", this build reads " ++ toString FORMAT_VERSION.toNat)
    else
      let header ← SnapshotHeader.read
      m.checkHeader check header
      m.readSections

/-- Caches are dropped, the whole screen is dirty and the host clock's baseline is forgotten. -/
def afterRestore (m : Machine β ν) : Machine β ν :=
  { m with
    cpu := m.cpu.invalidateCaches
    framebuffer := m.framebuffer.markAllDirty
    lastHostMtime := 0 }

section Restore

variable [BlockBackend β]

/-- The name of an error as `{:?}` prints it. -/
def blockErrorName : BlockError → String
  | .outOfRange => "OutOfRange"
  | .io => "Io"

/-- A block device operation of the machine, with its failure put into words. -/
def onDisk (message : String) (x : EStateM BlockError (VirtioBlock β) Unit) :
    EStateM String (Machine β ν) Unit :=
  Effect.zoom (fun m => m.bus.virtioBlk)
    (fun d m => { m with bus := { m.bus with virtioBlk := d } })
    (fun why => message ++ blockErrorName why) x

def writeBlocks : List (U64 × List U8) → EStateM String (Machine β ν) Unit
  | [] => pure ()
  | (index, bytes) :: blocks =>
    if 2 ^ 64 ≤ index.toNat * 8 then
      throw "snapshot: disk overlay block index overflows"
    else do
      onDisk "snapshot: writing the disk overlay failed: "
        (VirtioBlock.hostWrite (index * 8) bytes)
      writeBlocks blocks

/-- Write an overlay's blocks through the attached block backend. -/
def applyDiskOverlay (overlay : DiskOverlay) : EStateM String (Machine β ν) Unit :=
  if overlay.blocks.isEmpty then
    pure ()
  else do
    writeBlocks overlay.blocks
    onDisk "snapshot: flushing the disk overlay failed: " VirtioBlock.flush

def restore (data : List U8) (check : RestoreCheck) : EStateM String (Machine β ν) Unit := fun m =>
  match m.readContainer check (Cursor.new data) with
  | .error why _ => .error why m
  | .ok (m', overlay) _ => applyDiskOverlay overlay m'.afterRestore

open Effect in
/-- The overlay changes nothing but the disk. -/
theorem keeps_applyDiskOverlay {R : Machine β ν → Machine β ν → Prop} [Std.Refl R]
    [IsTrans (Machine β ν) R]
    (hdisk : ∀ (m : Machine β ν) (d : VirtioBlock β), R m (m.withBus ({ · with virtioBlk := d })))
    (overlay : DiskOverlay) : Keeps R (applyDiskOverlay overlay) := by
  have hon : ∀ message (x : EStateM BlockError (VirtioBlock β) Unit), Keeps R (onDisk message x) :=
    fun _ _ => keeps_zoom_any hdisk
  have hblocks : ∀ blocks, Keeps R (writeBlocks blocks) := by
    intro blocks
    induction blocks with
    | nil => exact keeps_pure ()
    | cons block blocks ih =>
      exact keeps_ite (fun _ => keeps_throw _) fun _ => keeps_bind (hon _ _) fun _ => ih
  exact keeps_ite (fun _ => keeps_pure ()) fun _ => keeps_bind (hblocks _) fun _ => hon _ _

end Restore

end Machine

end EmulateComputer
