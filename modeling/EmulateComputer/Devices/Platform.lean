import EmulateComputer.Wire

/-!
# Platform — CLINT, Goldfish RTC, simple interrupt generator and UART

The four devices that own no memory: register models with their reads and writes, the interrupt
level each drives, and their snapshot sections.  Invariants that the
snapshot reader insists on (the UART's FIFO bound, the interrupt generator's profile) are fields
of the device types.
-/

namespace EmulateComputer

open Effect

/-! ## CLINT -/

structure Clint where
  mtime : U64
  mtimecmp : U64
  msip : Bool

namespace Clint

def MSIP : U64 := 0x0
def MTIMECMP : U64 := 0x4000
def MTIME : U64 := 0xBFF8

/-- A 64-bit register at 4- or 8-byte granularity; `half` is 1 for the upper half. -/
def read64 (reg : U64) (half : Nat) (size : Nat) : U64 :=
  if half = 0 then (if size = 8 then reg else reg &&& 0xFFFFFFFF) else reg >>> 32

def write64 (reg : U64) (half : Nat) (val : U64) (size : Nat) : U64 :=
  if half = 0 then
    if size = 8 then val else (reg &&& ~~~0xFFFFFFFF) ||| (val &&& 0xFFFFFFFF)
  else
    (reg &&& (0xFFFFFFFF : U64)) ||| ((val &&& 0xFFFFFFFF) <<< 32)

def new : Clint :=
  { mtime := 0, mtimecmp := BitVec.allOnes 64, msip := false }

def mtip (c : Clint) : Bool :=
  c.mtimecmp ≤ c.mtime

def read (offset : U64) (size : Nat) : Access Clint U64 := do
  let c ← get
  if offset = MSIP then pure (if c.msip then 1 else 0)
  else if offset = MTIMECMP then pure (read64 c.mtimecmp 0 size)
  else if offset = MTIMECMP + 4 then pure (read64 c.mtimecmp 1 size)
  else if offset = MTIME then pure (read64 c.mtime 0 size)
  else if offset = MTIME + 4 then pure (read64 c.mtime 1 size)
  else pure 0

/-- The registers after a write; offsets of other harts are ignored. -/
def written (c : Clint) (offset val : U64) (size : Nat) : Clint :=
  if offset = MSIP then { c with msip := val &&& 1 ≠ 0 }
  else if offset = MTIMECMP then { c with mtimecmp := write64 c.mtimecmp 0 val size }
  else if offset = MTIMECMP + 4 then { c with mtimecmp := write64 c.mtimecmp 1 val size }
  else if offset = MTIME then { c with mtime := write64 c.mtime 0 val size }
  else if offset = MTIME + 4 then { c with mtime := write64 c.mtime 1 val size }
  else c

def write (offset val : U64) (size : Nat) : Access Clint Unit :=
  modify fun c => c.written offset val size

def SNAPSHOT_VERSION : U16 := 1

def snapshotBody (c : Clint) : List U8 :=
  Writer.u64 c.mtime ++ (Writer.u64 c.mtimecmp ++ Writer.bool c.msip)

def snapshot (c : Clint) : List U8 :=
  Writer.sectionOf SNAPSHOT_VERSION c.snapshotBody

def restore : Read Clint :=
  Reader.readSection "clint" SNAPSHOT_VERSION do
    let mtime ← Reader.u64
    let mtimecmp ← Reader.u64
    let msip ← Reader.bool
    pure { mtime := mtime, mtimecmp := mtimecmp, msip := msip }

end Clint

/-! ## Goldfish RTC -/

structure GoldfishRtc where
  timeNs : U64
  alarmNs : U64
  irqEnabled : Bool
  alarmArmed : Bool
  interruptPending : Bool

namespace GoldfishRtc

def TIME_LOW : U64 := 0x00
def TIME_HIGH : U64 := 0x04
def ALARM_LOW : U64 := 0x08
def ALARM_HIGH : U64 := 0x0c
def IRQ_ENABLED : U64 := 0x10
def CLEAR_ALARM : U64 := 0x14
def ALARM_STATUS : U64 := 0x18
def CLEAR_INTERRUPT : U64 := 0x1c
def NS_PER_MTIME_TICK : U64 := 100

def new : GoldfishRtc :=
  { timeNs := 0, alarmNs := 0, irqEnabled := false, alarmArmed := false,
    interruptPending := false }

def updateAlarm (rtc : GoldfishRtc) : GoldfishRtc :=
  if rtc.alarmArmed ∧ rtc.alarmNs ≤ rtc.timeNs then { rtc with interruptPending := true } else rtc

def setTimeNs (rtc : GoldfishRtc) (timeNs : U64) : GoldfishRtc :=
  updateAlarm { rtc with timeNs := timeNs }

def advanceMtimeTicks (rtc : GoldfishRtc) (ticks : U64) : GoldfishRtc :=
  updateAlarm { rtc with timeNs := rtc.timeNs + ticks * NS_PER_MTIME_TICK }

def irqPending (rtc : GoldfishRtc) : Bool :=
  rtc.irqEnabled && rtc.interruptPending

/-- `as u32 as u64`. -/
def low32 (v : U64) : U64 :=
  (v.setWidth 32).setWidth 64

def read (offset : U64) (size : Nat) : Access GoldfishRtc U64 := do
  let rtc ← get
  if size ≠ 4 then throw ()
  else if offset = TIME_LOW then pure (low32 rtc.timeNs)
  else if offset = TIME_HIGH then pure (low32 (rtc.timeNs >>> 32))
  else if offset = ALARM_LOW then pure (low32 rtc.alarmNs)
  else if offset = ALARM_HIGH then pure (low32 (rtc.alarmNs >>> 32))
  else if offset = IRQ_ENABLED then pure (if rtc.irqEnabled then 1 else 0)
  else if offset = ALARM_STATUS then pure (if rtc.alarmArmed then 1 else 0)
  else if offset = CLEAR_ALARM ∨ offset = CLEAR_INTERRUPT then pure 0
  else throw ()

/-- Whether a register exists and, if so, whether writing it re-evaluates the alarm. -/
def updatesAlarm (offset : U64) : Option Bool :=
  if offset = TIME_LOW ∨ offset = ALARM_LOW then some true
  else if offset = TIME_HIGH ∨ offset = ALARM_HIGH then some false
  else if offset = IRQ_ENABLED ∨ offset = CLEAR_ALARM ∨ offset = ALARM_STATUS ∨
      offset = CLEAR_INTERRUPT then some false
  else none

/-- The registers after storing the 32-bit `value`, before the alarm is re-evaluated. -/
def stored (rtc : GoldfishRtc) (offset value : U64) : GoldfishRtc :=
  if offset = TIME_LOW then { rtc with timeNs := (rtc.timeNs &&& ~~~0xFFFFFFFF) ||| value }
  else if offset = TIME_HIGH then
    { rtc with timeNs := (rtc.timeNs &&& (0xFFFFFFFF : U64)) ||| (value <<< 32) }
  else if offset = ALARM_LOW then
    { rtc with
      alarmNs := (rtc.alarmNs &&& ~~~0xFFFFFFFF) ||| value
      alarmArmed := true
      interruptPending := false }
  else if offset = ALARM_HIGH then
    { rtc with alarmNs := (rtc.alarmNs &&& (0xFFFFFFFF : U64)) ||| (value <<< 32) }
  else if offset = IRQ_ENABLED then { rtc with irqEnabled := value ≠ 0 }
  else if offset = CLEAR_ALARM then
    { rtc with alarmArmed := false, interruptPending := false }
  else if offset = CLEAR_INTERRUPT then { rtc with interruptPending := false }
  else rtc

def write (offset value : U64) (size : Nat) : Access GoldfishRtc Unit :=
  if size ≠ 4 then
    throw ()
  else
    match updatesAlarm offset with
    | none => throw ()
    | some true => modify fun rtc => (rtc.stored offset (low32 value)).updateAlarm
    | some false => modify fun rtc => rtc.stored offset (low32 value)

def SNAPSHOT_VERSION : U16 := 1

def snapshotBody (rtc : GoldfishRtc) : List U8 :=
  Writer.u64 rtc.timeNs ++ (Writer.u64 rtc.alarmNs ++ (Writer.bool rtc.irqEnabled ++
    (Writer.bool rtc.alarmArmed ++ Writer.bool rtc.interruptPending)))

def snapshot (rtc : GoldfishRtc) : List U8 :=
  Writer.sectionOf SNAPSHOT_VERSION rtc.snapshotBody

def restore : Read GoldfishRtc :=
  Reader.readSection "rtc" SNAPSHOT_VERSION do
    let timeNs ← Reader.u64
    let alarmNs ← Reader.u64
    let irqEnabled ← Reader.bool
    let alarmArmed ← Reader.bool
    let interruptPending ← Reader.bool
    pure { timeNs := timeNs, alarmNs := alarmNs, irqEnabled := irqEnabled,
           alarmArmed := alarmArmed, interruptPending := interruptPending }

end GoldfishRtc

/-! ## Simple interrupt generator -/

/-- The pending bits never leave the platform profile. -/
structure SimpleInterruptGenerator where
  pending : U32
  supported : pending &&& ~~~((Irq.SSIP ||| Irq.SEIP ||| Irq.MEIP).setWidth 32) = 0

namespace SimpleInterruptGenerator

def COMMAND : U64 := 4
def SET : U32 := (1 : U32) <<< 31
def SUPPORTED : U32 := (Irq.SSIP ||| Irq.SEIP ||| Irq.MEIP).setWidth 32

def new : SimpleInterruptGenerator :=
  { pending := 0, supported := by simp }

/-- `pending() as u64`. -/
def level (g : SimpleInterruptGenerator) : U64 :=
  g.pending.setWidth 64

def read (offset : U64) (_size : Nat) : Access SimpleInterruptGenerator U64 := do
  let g ← get
  if offset = COMMAND then pure g.level
  else if offset ≤ 0x1F then pure 0
  else throw ()

theorem or_supported {a b : U32} (ha : a &&& ~~~SUPPORTED = 0) :
    (a ||| (b &&& SUPPORTED)) &&& ~~~SUPPORTED = 0 := by
  rw [BitVec.and_or_distrib_right, ha, BitVec.and_assoc, BitVec.and_not_self]
  simp

theorem and_supported {a b : U32} (ha : a &&& ~~~SUPPORTED = 0) :
    (a &&& b) &&& ~~~SUPPORTED = 0 := by
  rw [BitVec.and_assoc, BitVec.and_comm b, ← BitVec.and_assoc, ha]
  simp

def command (g : SimpleInterruptGenerator) (cmd : U32) : SimpleInterruptGenerator :=
  if cmd &&& SET ≠ 0 then
    { pending := g.pending ||| (cmd &&& SUPPORTED), supported := or_supported g.supported }
  else
    { pending := g.pending &&& ~~~(cmd &&& SUPPORTED), supported := and_supported g.supported }

def write (offset val : U64) (size : Nat) : Access SimpleInterruptGenerator Unit :=
  if offset ≠ COMMAND ∨ size ≠ 4 then
    if offset ≤ 0x1F then pure () else throw ()
  else
    modify fun g => g.command (val.setWidth 32)

def SNAPSHOT_VERSION : U16 := 1

def snapshot (g : SimpleInterruptGenerator) : List U8 :=
  Writer.sectionOf SNAPSHOT_VERSION (Writer.u32 g.pending)

/-- `{pending:#x}`. -/
def hex (v : U32) : String :=
  "0x" ++ String.ofList (Nat.toDigits 16 v.toNat)

def restore : Read SimpleInterruptGenerator :=
  Reader.readSection "simple-irq" SNAPSHOT_VERSION do
    let pending ← Reader.u32
    if h : pending &&& ~~~SUPPORTED = 0 then
      pure { pending := pending, supported := h }
    else
      throw ("pending mask " ++ hex pending ++ " is outside the profile")

end SimpleInterruptGenerator

/-! ## UART -/

structure Uart where
  rx : List U8
  tx : List U8
  ier : U8
  lcr : U8
  mcr : U8
  scr : U8
  dll : U8
  dlm : U8
  threIp : Bool
  oe : Bool
  /-- The receive FIFO never holds more than `RX_FIFO_CAP` bytes. -/
  rx_le : rx.length ≤ 4096

namespace Uart

def IER_RDA : U8 := 0x01
def IER_THRE : U8 := 0x02
def LCR_DLAB : U8 := 0x80
def LSR_OE : U8 := 0x02
def RX_FIFO_CAP : Nat := 4096

def new : Uart :=
  { rx := [], tx := [], ier := 0, lcr := 0, mcr := 0, scr := 0, dll := 0, dlm := 0,
    threIp := false, oe := false, rx_le := by simp }

/-- Host: feed one byte; a full FIFO drops it and flags the overrun. -/
def pushRx (u : Uart) (b : U8) : Uart :=
  if h : RX_FIFO_CAP ≤ u.rx.length then
    { u with oe := true }
  else
    { u with
      rx := u.rx ++ [b]
      rx_le := by
        simp only [List.length_append, List.length_singleton]
        unfold RX_FIFO_CAP at h
        omega }

/-- Host: drain the output bytes. -/
def takeTx (u : Uart) : List U8 × Uart :=
  (u.tx, { u with tx := [] })

def dlab (u : Uart) : Bool :=
  u.lcr &&& LCR_DLAB ≠ 0

def irqPending (u : Uart) : Bool :=
  (u.ier &&& IER_RDA ≠ 0 && !u.rx.isEmpty) || (u.ier &&& IER_THRE ≠ 0 && u.threIp)

/-- `rx.pop_front()`. -/
def popRx (u : Uart) : Uart :=
  { u with
    rx := u.rx.tail
    rx_le := by
      have := u.rx_le
      simp only [List.length_tail]
      omega }

def read (offset : U64) (_size : Nat) : Access Uart U64 := fun u =>
  let byte (b : U8) : U64 := b.setWidth 64
  if offset = 0 then
    if u.dlab then .ok (byte u.dll) u else .ok (byte (u.rx.head?.getD 0)) u.popRx
  else if offset = 1 then .ok (byte (if u.dlab then u.dlm else u.ier)) u
  else if offset = 2 then
    if u.ier &&& IER_RDA ≠ 0 ∧ ¬ u.rx.isEmpty then .ok 0xC4 u
    else if u.threIp ∧ u.ier &&& IER_THRE ≠ 0 then
      -- Reading IIR acknowledges the THRE interrupt.
      .ok 0xC2 { u with threIp := false }
    else .ok 0xC1 u
  else if offset = 3 then .ok (byte u.lcr) u
  else if offset = 4 then .ok (byte u.mcr) u
  else if offset = 5 then
    let lsr : U8 := (if u.rx.isEmpty then 0x60 else 0x61) ||| (if u.oe then LSR_OE else 0)
    .ok (byte lsr) { u with oe := false }
  else if offset = 6 then .ok 0xB0 u
  else if offset = 7 then .ok (byte u.scr) u
  else .ok 0 u

/-- The registers after a write of the low byte `b`. -/
def written (u : Uart) (offset : U64) (b : U8) : Uart :=
  if offset = 0 then
    if u.dlab then { u with dll := b } else { u with tx := u.tx ++ [b], threIp := true }
  else if offset = 1 then
    if u.dlab then
      { u with dlm := b }
    else
      let ier := b &&& 0x0F
      -- Enabling the THRE interrupt asserts it right away: the transmitter is always empty.
      { u with
        ier := ier
        threIp := u.threIp || (ier &&& IER_THRE ≠ 0 && u.ier &&& IER_THRE = 0) }
  else if offset = 3 then { u with lcr := b }
  else if offset = 4 then { u with mcr := b }
  else if offset = 7 then { u with scr := b }
  else u

def write (offset val : U64) (_size : Nat) : Access Uart Unit :=
  modify fun u => u.written offset (val.setWidth 8)

def SNAPSHOT_VERSION : U16 := 1

def snapshotBody (u : Uart) : List U8 :=
  Writer.bytes u.rx ++ (Writer.bytes u.tx ++ (Writer.u8 u.ier ++ (Writer.u8 u.lcr ++
    (Writer.u8 u.mcr ++ (Writer.u8 u.scr ++ (Writer.u8 u.dll ++ (Writer.u8 u.dlm ++
      (Writer.bool u.threIp ++ Writer.bool u.oe))))))))

def snapshot (u : Uart) : List U8 :=
  Writer.sectionOf SNAPSHOT_VERSION u.snapshotBody

def restore : Read Uart :=
  Reader.readSection "uart" SNAPSHOT_VERSION do
    let rx ← Reader.bytes
    if h : rx.length ≤ RX_FIFO_CAP then
      let tx ← Reader.bytes
      let ier ← Reader.u8
      let lcr ← Reader.u8
      let mcr ← Reader.u8
      let scr ← Reader.u8
      let dll ← Reader.u8
      let dlm ← Reader.u8
      let threIp ← Reader.bool
      let oe ← Reader.bool
      pure { rx := rx, tx := tx, ier := ier, lcr := lcr, mcr := mcr, scr := scr, dll := dll,
             dlm := dlm, threIp := threIp, oe := oe, rx_le := h }
    else
      throw (toString rx.length ++ " queued RX bytes exceed the FIFO")

end Uart

end EmulateComputer
