import EmulateComputer.Devices.Virtio

/-!
# VirtioNet — VirtIO network device

Frames wait in a bounded inbox and outbox; the machine moves them across the `NetBackend`
boundary on its network tick.  The bounds are fields of the device type.
-/

namespace EmulateComputer

open Effect

open Virtqueue (Descriptor QueueLayout ChainOutcome RamEvolves DESC_F_WRITE)

class NetBackend (ν : Type) where
  transmit : ν → List U8 → ν
  receive : ν → Option (List U8) × ν
  poll : ν → U64 → ν
  nextDeadlineMs : ν → Option U64

structure VirtioNet where
  transport : Transport 2 256
  mac : List U8
  inbox : List (List U8)
  outbox : List (List U8)
  rxBytes : U64
  txBytes : U64
  mac_length : mac.length = 6
  inbox_le : inbox.length ≤ 64
  outbox_le : outbox.length ≤ 64

namespace VirtioNet

def DEVICE_ID_NET : U32 := 1
def QUEUE_SIZE_MAX : U16 := 256
def QUEUE_RX : Fin 2 := 0
def QUEUE_TX : Fin 2 := 1
def NET_F_MAC : Nat := 5
def HDR_LEN : Nat := 12
def HDR_NUM_BUFFERS : Nat := 10
def MAX_FRAME_BYTES : Nat := 1514
def MAX_CHAIN_BYTES : Nat := 64 * 1024
def FRAME_QUEUE_CAPACITY : Nat := 64
def DEFAULT_MAC : List U8 := [0x52, 0x54, 0x00, 0x12, 0x34, 0x56]

def new : VirtioNet :=
  { transport := Transport.new 2 QUEUE_SIZE_MAX, mac := DEFAULT_MAC, inbox := [], outbox := [],
    rxBytes := 0, txBytes := 0, mac_length := rfl, inbox_le := by simp, outbox_le := by simp }

def pushFrame (queue : List (List U8)) (frame : List U8) : List (List U8) :=
  (if queue.length = FRAME_QUEUE_CAPACITY then queue.tail else queue) ++ [frame]

theorem length_pushFrame_le {queue : List (List U8)} (frame : List U8) (h : queue.length ≤ 64) :
    (pushFrame queue frame).length ≤ 64 := by
  unfold pushFrame FRAME_QUEUE_CAPACITY
  split
  · simp [*]
  · simp only [List.length_append, List.length_singleton]
    omega

def popTransmitted (d : VirtioNet) : Option (List U8) × VirtioNet :=
  match h : d.outbox with
  | [] => (none, d)
  | frame :: rest =>
    (some frame, { d with
      outbox := rest
      txBytes := d.txBytes + BitVec.ofNat 64 frame.length
      outbox_le := by
        have := d.outbox_le
        rw [h, List.length_cons] at this
        omega })

def receiveFrame (d : VirtioNet) (frame : List U8) : VirtioNet :=
  if frame.isEmpty ∨ MAX_FRAME_BYTES < frame.length then
    d
  else
    { d with
      inbox := pushFrame d.inbox frame
      inbox_le := length_pushFrame_le frame d.inbox_le }

def pendingRx (d : VirtioNet) : Nat :=
  d.inbox.length

/-- `inbox.pop_front()`. -/
def popInbox (d : VirtioNet) : VirtioNet :=
  { d with
    inbox := d.inbox.tail
    inbox_le := by
      have := d.inbox_le
      rw [List.length_tail]
      omega }

def pushOutbox (d : VirtioNet) (frame : List U8) : VirtioNet :=
  { d with
    outbox := pushFrame d.outbox frame
    outbox_le := length_pushFrame_le frame d.outbox_le }

def read (offset : U64) (size : Nat) : Access VirtioNet U64 := do
  let d ← get
  if 0x100 ≤ offset then
    if size = 1 ∨ size = 2 ∨ size = 4 ∨ size = 8 then
      let index := (offset - 0x100).toNat
      pure (Bytes.ofLE 64 ((List.range size).map fun byte => d.mac[index + byte]?.getD 0))
    else throw ()
  else if size ≠ 4 ∧ size ≠ 8 then throw ()
  else
    pure ((d.transport.read offset DEVICE_ID_NET
      fun word => if word = 0 then (1 : U32) <<< NET_F_MAC else 1).getD 0)

def readSegments (ram : Ram) : List Descriptor → Option (List U8)
  | [] => some []
  | desc :: rest => do
    let offset ← Virtqueue.ramOffset ram desc.addr desc.len.toNat
    let bytes ← ram.readSlice offset desc.len.toNat
    let tail ← readSegments ram rest
    some (bytes ++ tail)

def segmentsInRam (ram : Ram) : List Descriptor → Nat → Bool
  | [], needed => needed = 0
  | desc :: rest, needed =>
    if needed = 0 then
      true
    else
      let len := min needed desc.len.toNat
      if (Virtqueue.ramOffset ram desc.addr len).isNone then false
      else segmentsInRam ram rest (needed - len)

def writeSegments : List Descriptor → List U8 → Access (VirtioNet × Ram) Unit
  | [], data => if data.isEmpty then pure () else throw ()
  | desc :: rest, data =>
    if data.isEmpty then
      pure ()
    else do
      let s ← get
      let len := min data.length desc.len.toNat
      let offset ← ofOption () (Virtqueue.ramOffset s.2 desc.addr len)
      Virtqueue.writeSlice () offset (data.take len)
      writeSegments rest (data.drop len)

def transmitChain : Virtqueue.Handler VirtioNet := fun layout head => do
  let s ← get
  match Virtqueue.collectChain s.2 layout head with
  | none => pure .skip
  | some chain =>
    if chain.any fun desc => desc.flags &&& DESC_F_WRITE ≠ 0 then
      pure (.used 0)
    else if HDR_LEN ≤ Virtqueue.totalLen chain ∧ Virtqueue.totalLen chain ≤ MAX_CHAIN_BYTES then
      match readSegments s.2 chain with
      | none => pure (.used 0)
      | some bytes =>
        let frame := bytes.drop HDR_LEN
        if ¬ frame.isEmpty ∧ frame.length ≤ MAX_FRAME_BYTES then do
          modify fun s => (s.1.pushOutbox frame, s.2)
          pure (.used 0)
        else
          pure (.used 0)
    else
      pure (.used 0)

/-- The 12-byte header in front of a received frame; `num_buffers` is 1. -/
def header : List U8 :=
  (List.replicate HDR_LEN 0).set HDR_NUM_BUFFERS 1

/-- Place the oldest inbox frame into one receive chain, or drop it when it does not fit. -/
def receiveChain : Virtqueue.Handler VirtioNet := fun layout head => do
  let s ← get
  match Virtqueue.collectChain s.2 layout head with
  | none => pure .skip
  | some all => do
    let chain := all.filter fun desc => desc.flags &&& DESC_F_WRITE ≠ 0
    let frame := s.1.inbox.head?.getD []
    let needed := HDR_LEN + frame.length
    modify fun s => (s.1.popInbox, s.2)
    if Virtqueue.totalLen chain < needed ∨ ¬ segmentsInRam s.2 chain needed then
      pure (.used 0)
    else do
      let written ← attempt (writeSegments chain (header ++ frame))
      match written with
      | none => pure (.used 0)
      | some _ => do
        modify fun s =>
          ({ s.1 with rxBytes := s.1.rxBytes + BitVec.ofNat 64 frame.length }, s.2)
        pure (.used (BitVec.ofNat 32 (header ++ frame).length))

def deliverHandler : Virtqueue.Handler VirtioNet := fun layout head => do
  let s ← get
  if s.1.inbox.isEmpty then pure .retry else receiveChain layout head

def processQueue (queue : Fin 2) (handler : Virtqueue.Handler VirtioNet) (s : VirtioNet × Ram) :
    VirtioNet × Ram :=
  let (work, s') := Transport.drain (s.1.transport.queue queue) handler s
  ({ s'.1 with transport := s'.1.transport.completeQueue work }, s'.2)

def processTx (s : VirtioNet × Ram) : VirtioNet × Ram :=
  processQueue QUEUE_TX transmitChain s

def deliverRx (s : VirtioNet × Ram) : VirtioNet × Ram :=
  if s.1.inbox.isEmpty then s else processQueue QUEUE_RX deliverHandler s

def clearQueues (d : VirtioNet) : VirtioNet :=
  { d with inbox := [], outbox := [], inbox_le := by simp, outbox_le := by simp }

/-- Do what a register store asked for. -/
def perform (effect : TransportWrite) (s : VirtioNet × Ram) : VirtioNet × Ram :=
  if effect = .notify 1 then processTx s
  else if effect = .notify 0 then deliverRx s
  else if effect = .reset then (s.1.clearQueues, s.2)
  else s

/-- A register store by itself, with what it asks for. -/
def register (offset val : U64) (d : VirtioNet) : TransportWrite × VirtioNet :=
  let (effect, transport) := d.transport.write offset (val.setWidth 32)
  (effect, { d with transport := transport })

def write (offset val : U64) (size : Nat) : Access (VirtioNet × Ram) Unit := fun s =>
  if size ≠ 4 then
    .error () s
  else
    let (effect, d) := register offset val s.1
    .ok () (perform effect (d, s.2))

/-! ## RAM only evolves -/

theorem keeps_writeSegments (chain : List Descriptor) (data : List U8) :
    Keeps RamEvolves (writeSegments chain data) := by
  induction chain generalizing data with
  | nil => exact keeps_ite (fun _ => keeps_pure ()) fun _ => keeps_throw ()
  | cons desc rest ih =>
    refine keeps_ite (fun _ => keeps_pure ()) fun _ => ?_
    exact keeps_bind keeps_get fun _ =>
      keeps_bind (keeps_ofOption _ _) fun _ =>
        keeps_bind (Virtqueue.keeps_writeSlice _ _ _) fun _ => ih _

theorem keeps_transmitChain (layout : QueueLayout) (head : U16) :
    Keeps RamEvolves (transmitChain layout head) := by
  refine keeps_bind keeps_get fun s => ?_
  cases Virtqueue.collectChain s.2 layout head with
  | none => exact keeps_pure _
  | some chain =>
    refine keeps_ite (fun _ => keeps_pure _) fun _ =>
      keeps_ite (fun _ => ?_) fun _ => keeps_pure _
    cases readSegments s.2 chain with
    | none => exact keeps_pure _
    | some bytes =>
      exact keeps_ite
        (fun _ => keeps_bind (Virtqueue.keeps_modify_device _) fun _ =>
          keeps_pure _)
        fun _ => keeps_pure _

theorem keeps_deliverHandler (layout : QueueLayout) (head : U16) :
    Keeps RamEvolves (deliverHandler layout head) := by
  refine keeps_bind keeps_get fun _ =>
    keeps_ite (fun _ => keeps_pure _) fun _ => ?_
  refine keeps_bind keeps_get fun s => ?_
  cases Virtqueue.collectChain s.2 layout head with
  | none => exact keeps_pure _
  | some all =>
    refine keeps_bind (Virtqueue.keeps_modify_device _) fun _ =>
      keeps_ite (fun _ => keeps_pure _) fun _ =>
        keeps_bind (keeps_attempt (keeps_writeSegments _ _)) fun written => ?_
    cases written with
    | none => exact keeps_pure _
    | some _ =>
      exact keeps_bind (Virtqueue.keeps_modify_device _) fun _ => keeps_pure _

theorem processTx_evolves (s : VirtioNet × Ram) : RamEvolves s (processTx s) :=
  Transport.drain_evolves (s.1.transport.queue QUEUE_TX) keeps_transmitChain s

theorem deliverRx_evolves (s : VirtioNet × Ram) : RamEvolves s (deliverRx s) := by
  unfold deliverRx
  split
  · exact Ram.Evolves.refl s.2
  · exact Transport.drain_evolves (s.1.transport.queue QUEUE_RX) keeps_deliverHandler s

theorem perform_evolves (effect : TransportWrite) (s : VirtioNet × Ram) :
    RamEvolves s (perform effect s) := by
  unfold perform
  split
  · exact processTx_evolves s
  · split
    · exact deliverRx_evolves s
    · split <;> exact Ram.Evolves.refl s.2

theorem keeps_write (offset val : U64) (size : Nat) : Keeps RamEvolves (write offset val size) := by
  intro s
  unfold write
  split
  · exact Ram.Evolves.refl s.2
  · exact (perform_evolves _ _).of_ram_eq rfl

/-! ## Snapshots -/

def SNAPSHOT_VERSION : U16 := 1

def framesRecord (frames : List (List U8)) : List U8 :=
  Writer.u32 (BitVec.ofNat 32 frames.length) ++ frames.flatMap Writer.bytes

def snapshotBody (d : VirtioNet) : List U8 :=
  d.mac ++ (Writer.u64 d.rxBytes ++ (Writer.u64 d.txBytes ++
    (framesRecord d.inbox ++ framesRecord d.outbox)))

def snapshot (d : VirtioNet) : List U8 :=
  Writer.sectionOf SNAPSHOT_VERSION d.snapshotBody ++ d.transport.snapshot

/-- A frame queue, refused with the text `what` when it is too long. -/
def readFrames (what : String) : Read { frames : List (List U8) // frames.length ≤ 64 } := do
  let count ← Reader.u32
  if h : count.toNat ≤ FRAME_QUEUE_CAPACITY then
    let frames ← Cursor.readMany (fun _ => Reader.bytes) 0 count.toNat
    pure ⟨frames.1, frames.2.le.trans h⟩
  else
    throw (toString count.toNat ++ what)

def restore : Read VirtioNet := do
  let build ← Reader.readSection "virtio-net" SNAPSHOT_VERSION do
    let mac ← Reader.raw 6
    let rxBytes ← Reader.u64
    let txBytes ← Reader.u64
    let inbox ← readFrames " queued RX frames exceed the inbox"
    let outbox ← readFrames " queued TX frames exceed the outbox"
    pure fun transport =>
      { transport := transport, mac := mac.1, inbox := inbox.1, outbox := outbox.1,
        rxBytes := rxBytes, txBytes := txBytes, mac_length := mac.2, inbox_le := inbox.2,
        outbox_le := outbox.2 : VirtioNet }
  let transport ← Transport.restore 2 QUEUE_SIZE_MAX
  pure (build transport)

end VirtioNet

end EmulateComputer
