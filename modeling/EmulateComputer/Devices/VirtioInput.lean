import EmulateComputer.Devices.Virtio

/-!
# VirtioInput — VirtIO keyboard and tablet

Host events wait in a bounded backlog, oldest dropped first, until the guest posts event buffers.
The two instances differ only in what their configuration space advertises, so the kind is a
parameter of the device type.
-/

namespace EmulateComputer

open Effect

open Virtqueue (Descriptor QueueLayout ChainOutcome RamEvolves DESC_F_WRITE DESC_F_INDIRECT)

inductive InputKind
  | keyboard
  | tablet
  deriving DecidableEq, Repr

namespace InputKind

def deviceName : InputKind → String
  | keyboard => "emulate keyboard"
  | tablet => "emulate tablet"

def productId : InputKind → U16
  | keyboard => 1
  | tablet => 2

end InputKind

structure InputEvent where
  kind : U16
  code : U16
  value : U32

def InputEvent.toBytes (e : InputEvent) : List U8 :=
  Bytes.toLE 2 e.kind ++ Bytes.toLE 2 e.code ++ Bytes.toLE 4 e.value

structure VirtioInput (kind : InputKind) where
  transport : Transport 2 64
  pending : List InputEvent
  dropped : U64
  select : U8
  subsel : U8
  pending_le : pending.length ≤ 256

namespace VirtioInput

def DEVICE_ID_INPUT : U32 := 18
def QUEUE_SIZE_MAX : U16 := 64
def QUEUE_EVENT : Fin 2 := 0
def QUEUE_STATUS : Fin 2 := 1
def EVENT_BYTES : U32 := 8
def MAX_PENDING_EVENTS : Nat := 256
def CFG_UNSET : U8 := 0x00
def CFG_ID_NAME : U8 := 0x01
def CFG_ID_DEVIDS : U8 := 0x03
def CFG_EV_BITS : U8 := 0x11
def CFG_ABS_INFO : U8 := 0x12
def CONFIG_BASE : U64 := 0x100
def CONFIG_UNION_OFFSET : Nat := 8
def CONFIG_UNION_BYTES : Nat := 128
def EV_SYN : U16 := 0x00
def EV_KEY : U16 := 0x01
def EV_REL : U16 := 0x02
def EV_ABS : U16 := 0x03
def SYN_REPORT : U16 := 0
def ABS_X : U16 := 0x00
def ABS_Y : U16 := 0x01
def REL_WHEEL : U16 := 0x08
def BTN_LEFT : U16 := 0x110
def BTN_RIGHT : U16 := 0x111
def BTN_MIDDLE : U16 := 0x112
def KEY_BITS : Nat := 256
def ABS_MAX : U32 := 32767

variable {kind : InputKind}

def new (kind : InputKind) : VirtioInput kind :=
  { transport := Transport.new 2 QUEUE_SIZE_MAX, pending := [], dropped := 0, select := CFG_UNSET,
    subsel := 0, pending_le := by simp }

/-- Queue one event, dropping the oldest of a full backlog. -/
def queueEvent (d : VirtioInput kind) (event : InputEvent) : VirtioInput kind :=
  if h : MAX_PENDING_EVENTS ≤ d.pending.length then
    { d with
      pending := d.pending.tail ++ [event]
      dropped := d.dropped + 1
      pending_le := by
        have := d.pending_le
        unfold MAX_PENDING_EVENTS at h
        simp only [List.length_append, List.length_tail, List.length_singleton]
        omega }
  else
    { d with
      pending := d.pending ++ [event]
      pending_le := by
        unfold MAX_PENDING_EVENTS at h
        simp only [List.length_append, List.length_singleton]
        omega }

/-! ## Configuration space -/

def setBit (buf : Nat → U8) (bit : Nat) : Nat → U8 :=
  if bit / 8 < CONFIG_UNION_BYTES then
    Function.update buf (bit / 8) (buf (bit / 8) ||| ((1 : U8) <<< (bit % 8)))
  else buf

def bitmapLen (highest : Nat) : Nat :=
  min (highest / 8 + 1) CONFIG_UNION_BYTES

/-- A bitmap with the given bits, and its length. -/
def bitmap (bits : List Nat) (len : Nat) : (Nat → U8) × Nat :=
  (bits.foldl setBit fun _ => 0, len)

/-- Which codes of event type `subsel` the device reports; length zero means none. -/
def eventBits (d : VirtioInput kind) : (Nat → U8) × Nat :=
  if d.subsel.setWidth 16 = EV_SYN then bitmap [SYN_REPORT.toNat] 1
  else if d.subsel.setWidth 16 = EV_KEY then
    match kind with
    | .keyboard => bitmap (List.range' 1 (KEY_BITS - 1)) (KEY_BITS / 8)
    | .tablet =>
      bitmap [BTN_LEFT.toNat, BTN_RIGHT.toNat, BTN_MIDDLE.toNat] (bitmapLen BTN_MIDDLE.toNat)
  else if kind = .tablet ∧ d.subsel.setWidth 16 = EV_ABS then
    bitmap [ABS_X.toNat, ABS_Y.toNat] (bitmapLen ABS_Y.toNat)
  else if kind = .tablet ∧ d.subsel.setWidth 16 = EV_REL then
    bitmap [REL_WHEEL.toNat] (bitmapLen REL_WHEEL.toNat)
  else bitmap [] 0

/-- A byte string at the start of the union, and its length. -/
def unionBytes (bytes : List U8) (len : Nat) : (Nat → U8) × Nat :=
  (fun i => bytes[i]?.getD 0, len)

def absInfo (d : VirtioInput kind) : (Nat → U8) × Nat :=
  if kind ≠ .tablet ∨ (d.subsel.setWidth 16 ≠ ABS_X ∧ d.subsel.setWidth 16 ≠ ABS_Y) then
    unionBytes [] 0
  else
    unionBytes (Bytes.toLE 4 (0 : U32) ++ Bytes.toLE 4 ABS_MAX) 20

def configUnion (d : VirtioInput kind) : (Nat → U8) × Nat :=
  if d.select = CFG_ID_NAME then
    unionBytes (Writer.utf8 kind.deviceName) (Writer.utf8 kind.deviceName).length
  else if d.select = CFG_ID_DEVIDS then
    unionBytes (Bytes.toLE 2 (0x06 : U16) ++ Bytes.toLE 2 (0x1af4 : U16) ++
      Bytes.toLE 2 kind.productId ++ Bytes.toLE 2 (1 : U16)) 8
  else if d.select = CFG_EV_BITS then d.eventBits
  else if d.select = CFG_ABS_INFO then d.absInfo
  else unionBytes [] 0

def configByte (d : VirtioInput kind) (index : Nat) : U8 :=
  if index = 0 then d.select
  else if index = 1 then d.subsel
  else if index = 2 then BitVec.ofNat 8 d.configUnion.2
  else if CONFIG_UNION_OFFSET ≤ index ∧ index < CONFIG_UNION_OFFSET + CONFIG_UNION_BYTES then
    d.configUnion.1 (index - CONFIG_UNION_OFFSET)
  else 0

def readConfig (d : VirtioInput kind) (offset : U64) (size : Nat) : U64 :=
  if offset < CONFIG_BASE then
    0
  else
    Bytes.ofLE 64 ((List.range size).map fun byte =>
      d.configByte ((offset - CONFIG_BASE).toNat + byte))

def read (offset : U64) (size : Nat) : Access (VirtioInput kind) U64 := do
  let d ← get
  if size = 1 ∨ size = 2 ∨ size = 4 ∨ size = 8 then
    match d.transport.read offset DEVICE_ID_INPUT fun word => if word = 0 then 0 else 1 with
    | some value => pure value
    | none => pure (d.readConfig offset size)
  else throw ()

/-- Write `size` configuration bytes; only `select` and `subsel` are writable. -/
def writeConfig (d : VirtioInput kind) (index : Nat) (val : U64) (size : Nat) : VirtioInput kind :=
  (List.range size).foldl (fun d byte =>
    let value : U8 := (val >>> (byte * 8)).setWidth 8
    if index + byte = 0 then { d with select := value }
    else if index + byte = 1 then { d with subsel := value }
    else d) d

/-! ## Queues -/

/-- `pending.pop_front()`. -/
def popPending (d : VirtioInput kind) : VirtioInput kind :=
  { d with
    pending := d.pending.tail
    pending_le := by
      have := d.pending_le
      rw [List.length_tail]
      omega }

/-- Deliver the oldest event into one posted buffer; an unusable buffer consumes none. -/
def fillEventBuffer : Virtqueue.Handler (VirtioInput kind) := fun layout head => do
  let s ← get
  match s.1.pending with
  | [] => throw .retry
  | event :: _ =>
    match Virtqueue.collectChain s.2 layout head with
    | none => throw .skip
    | some [] => throw .skip
    | some (first :: _) =>
      if first.flags &&& DESC_F_WRITE = 0 ∨ first.flags &&& DESC_F_INDIRECT ≠ 0 ∨
          first.len < EVENT_BYTES then
        throw .skip
      else do
        let offset ← ofOption .skip
          (Virtqueue.ramOffset s.2 first.addr EVENT_BYTES.toNat)
        Virtqueue.writeSlice .skip offset event.toBytes
        modify fun s => (s.1.popPending, s.2)
        pure (.used EVENT_BYTES)

/-- Status buffers are consumed and ignored. -/
def statusHandler : Virtqueue.Handler (VirtioInput kind) := fun layout head => do
  let s ← get
  match Virtqueue.collectChain s.2 layout head with
  | some _ => pure (.used 0)
  | none => pure .skip

def processQueue (queue : Fin 2) (handler : Virtqueue.Handler (VirtioInput kind))
    (s : VirtioInput kind × Ram) : VirtioInput kind × Ram :=
  let (work, s') := Transport.drain (s.1.transport.queue queue) handler s
  ({ s'.1 with transport := s'.1.transport.completeQueue work }, s'.2)

def processEventQueue (s : VirtioInput kind × Ram) : VirtioInput kind × Ram :=
  if s.1.pending.isEmpty then s else processQueue QUEUE_EVENT fillEventBuffer s

def drainStatusQueue (s : VirtioInput kind × Ram) : VirtioInput kind × Ram :=
  processQueue QUEUE_STATUS statusHandler s

/-- Host: close the current report and deliver what the guest has room for. -/
def flush (s : VirtioInput kind × Ram) : VirtioInput kind × Ram :=
  processEventQueue (s.1.queueEvent { kind := EV_SYN, code := SYN_REPORT, value := 0 }, s.2)

def write (offset val : U64) (size : Nat) : Access (VirtioInput kind × Ram) Unit := fun s =>
  if CONFIG_BASE ≤ offset then
    if size = 1 ∨ size = 2 ∨ size = 4 then
      .ok () (s.1.writeConfig (offset - CONFIG_BASE).toNat val size, s.2)
    else .error () s
  else if size ≠ 4 then
    .error () s
  else
    let (effect, transport) := s.1.transport.write offset (val.setWidth 32)
    let s' := ({ s.1 with transport := transport }, s.2)
    if effect = .notify 0 then .ok () (processEventQueue s')
    else if effect = .notify 1 then .ok () (drainStatusQueue s')
    else if effect = .reset then
      .ok () ({ s'.1 with pending := [], select := CFG_UNSET, subsel := 0, pending_le := by simp },
        s'.2)
    else .ok () s'

/-! ## RAM only evolves -/

theorem keeps_fillEventBuffer (layout : QueueLayout) (head : U16) :
    Keeps RamEvolves ((fillEventBuffer : Virtqueue.Handler (VirtioInput kind)) layout head) := by
  refine keeps_bind keeps_get fun s => ?_
  cases s.1.pending with
  | nil => exact keeps_throw _
  | cons event rest =>
    match Virtqueue.collectChain s.2 layout head with
    | none => exact keeps_throw _
    | some [] => exact keeps_throw _
    | some (first :: _) =>
      exact keeps_ite (fun _ => keeps_throw _) fun _ =>
        keeps_bind (keeps_ofOption _ _) fun _ =>
          keeps_bind (Virtqueue.keeps_writeSlice _ _ _) fun _ =>
            keeps_bind (Virtqueue.keeps_modify_device _) fun _ => keeps_pure _

theorem keeps_statusHandler (layout : QueueLayout) (head : U16) :
    Keeps RamEvolves ((statusHandler : Virtqueue.Handler (VirtioInput kind)) layout head) := by
  refine keeps_bind keeps_get fun s => ?_
  cases Virtqueue.collectChain s.2 layout head with
  | none | some chain => exact keeps_pure _

theorem processEventQueue_evolves (s : VirtioInput kind × Ram) :
    RamEvolves s (processEventQueue s) := by
  unfold processEventQueue
  split
  · exact Ram.Evolves.refl s.2
  · exact Transport.drain_evolves (s.1.transport.queue QUEUE_EVENT) keeps_fillEventBuffer s

theorem drainStatusQueue_evolves (s : VirtioInput kind × Ram) : RamEvolves s (drainStatusQueue s) :=
  Transport.drain_evolves (s.1.transport.queue QUEUE_STATUS) keeps_statusHandler s

theorem keeps_write (offset val : U64) (size : Nat) :
    Keeps RamEvolves (write offset val size : Access (VirtioInput kind × Ram) Unit) := by
  intro s
  unfold write
  split
  · split <;> exact Ram.Evolves.refl s.2
  · split
    · exact Ram.Evolves.refl s.2
    · dsimp only
      split
      · exact (processEventQueue_evolves _).of_ram_eq rfl
      · split
        · exact (drainStatusQueue_evolves _).of_ram_eq rfl
        · split <;> exact Ram.Evolves.refl s.2

/-! ## Snapshots -/

def SNAPSHOT_VERSION : U16 := 1

def eventRecord (e : InputEvent) : List U8 :=
  Writer.u16 e.kind ++ (Writer.u16 e.code ++ Writer.u32 e.value)

def snapshotBody (d : VirtioInput kind) : List U8 :=
  Writer.u8 d.select ++ (Writer.u8 d.subsel ++
    (Writer.u32 (BitVec.ofNat 32 d.pending.length) ++
      (d.pending.flatMap eventRecord ++ Writer.u64 d.dropped)))

def snapshot (d : VirtioInput kind) : List U8 :=
  Writer.sectionOf SNAPSHOT_VERSION d.snapshotBody ++ d.transport.snapshot

def readEvent : Read InputEvent := do
  let kind ← Reader.u16
  let code ← Reader.u16
  let value ← Reader.u32
  pure { kind := kind, code := code, value := value }

def restore (kind : InputKind) : Read (VirtioInput kind) := do
  let build ← Reader.readSection "virtio-input" SNAPSHOT_VERSION do
    let select ← Reader.u8
    let subsel ← Reader.u8
    let count ← Reader.u32
    if h : count.toNat ≤ MAX_PENDING_EVENTS then
      let pending ← Cursor.readMany (fun _ => readEvent) 0 count.toNat
      let dropped ← Reader.u64
      pure fun transport =>
        { transport := transport, pending := pending.1, dropped := dropped, select := select,
          subsel := subsel, pending_le := pending.2.le.trans h : VirtioInput kind }
    else
      throw (toString count.toNat ++ " queued input events exceed the " ++
        toString MAX_PENDING_EVENTS ++ " the backlog holds")
  let transport ← Transport.restore 2 QUEUE_SIZE_MAX
  pure (build transport)

end VirtioInput

end EmulateComputer
