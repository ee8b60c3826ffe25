import EmulateComputer.Devices.Virtio

/-!
# VirtioBlk — VirtIO block device over a backend

The backend is the source's trait object, a type with the operations of `BlockBackend`.  The
device's reusable buffers are not state and are left out.
-/

namespace EmulateComputer

open Effect

open Virtqueue (Descriptor QueueLayout ChainOutcome RamEvolves DESC_F_NEXT DESC_F_WRITE)

inductive BlockError
  | outOfRange
  | io
  deriving DecidableEq, Repr

/-- Fixed-capacity random-access storage; a read fills a buffer of the requested length. -/
class BlockBackend (β : Type) where
  capacitySectors : β → U64
  readAt : U64 → (n : Nat) → EStateM BlockError β { buf : List U8 // buf.length = n }
  writeAt : U64 → List U8 → EStateM BlockError β Unit
  flush : EStateM BlockError β Unit

/-! ## In-memory backend -/

structure MemBackend where
  disk : List U8

namespace MemBackend

/-- Byte range of a transfer, if it lies inside the disk. -/
def checkedRange (sector : U64) (len capacity : Nat) : Option Nat :=
  if 2 ^ 64 ≤ sector.toNat * 512 ∨ 2 ^ 64 ≤ sector.toNat * 512 + len ∨
      capacity < sector.toNat * 512 + len then
    none
  else
    some (sector.toNat * 512)

theorem checkedRange_le {sector : U64} {len capacity start : Nat}
    (h : checkedRange sector len capacity = some start) : start + len ≤ capacity := by
  unfold checkedRange at h
  split at h
  · simp at h
  · simp only [Option.some.injEq] at h
    omega

def readAt (sector : U64) (n : Nat) :
    EStateM BlockError MemBackend { buf : List U8 // buf.length = n } := fun b =>
  match h : checkedRange sector n b.disk.length with
  | none => .error .outOfRange b
  | some start => .ok ⟨(b.disk.drop start).take n, by
      have := checkedRange_le h
      simp only [List.length_take, List.length_drop]
      omega⟩ b

def writeAt (sector : U64) (buf : List U8) : EStateM BlockError MemBackend Unit := fun b =>
  match checkedRange sector buf.length b.disk.length with
  | none => .error .outOfRange b
  | some start => .ok () ⟨b.disk.take start ++ buf ++ b.disk.drop (start + buf.length)⟩

instance : BlockBackend MemBackend where
  capacitySectors b := BitVec.ofNat 64 (b.disk.length / 512)
  readAt := readAt
  writeAt := writeAt
  flush := pure ()

end MemBackend

/-! ## Device -/

structure VirtioBlock (β : Type) where
  backend : Option β
  transport : Transport 1 8
  bytesRead : U64
  bytesWritten : U64

namespace VirtioBlock

def DEVICE_ID_BLOCK : U32 := 2
def QUEUE_SIZE_MAX : U16 := 8
def BLK_T_IN : U32 := 0
def BLK_T_OUT : U32 := 1
def BLK_T_FLUSH : U32 := 4
def BLK_F_SIZE_MAX : Nat := 1
def BLK_F_FLUSH : Nat := 9
def BLK_CONFIG_SIZE_MAX : U64 := 0x108
def MAX_REQUEST_BYTES : Nat := 1024 * 1024

variable {β : Type}

def new : VirtioBlock β :=
  { backend := none, transport := Transport.new 1 QUEUE_SIZE_MAX, bytesRead := 0,
    bytesWritten := 0 }

def setBackend (d : VirtioBlock β) (backend : β) : VirtioBlock β :=
  { d with backend := some backend }

/-- Run a backend operation; a missing backend is an I/O error. -/
def backendMut {α : Type} (x : EStateM BlockError β α) : EStateM BlockError (VirtioBlock β) α :=
  fun d =>
    match d.backend with
    | none => .error .io d
    | some b =>
      match x b with
      | .ok a b' => .ok a { d with backend := some b' }
      | .error e b' => .error e { d with backend := some b' }

variable [BlockBackend β]

def flush : EStateM BlockError (VirtioBlock β) Unit :=
  backendMut BlockBackend.flush

/-- Write one block straight to the backend, bypassing the virtqueue. -/
def hostWrite (sector : U64) (data : List U8) : EStateM BlockError (VirtioBlock β) Unit :=
  backendMut (BlockBackend.writeAt sector data)

def capacitySectors (d : VirtioBlock β) : U64 :=
  match d.backend with
  | none => 0
  | some b => BlockBackend.capacitySectors b

def read (offset : U64) (size : Nat) : Access (VirtioBlock β) U64 := do
  let d ← get
  if size ≠ 4 ∧ size ≠ 8 then
    throw ()
  else
    match d.transport.read offset DEVICE_ID_BLOCK
        (fun word => if word = 0 then
          ((1 : U32) <<< BLK_F_SIZE_MAX) ||| ((1 : U32) <<< BLK_F_FLUSH) else 1) with
    | some value => pure value
    | none =>
      if offset = 0x100 then
        pure (if size = 8 then d.capacitySectors else d.capacitySectors &&& 0xffffffff)
      else if offset = 0x104 then pure (d.capacitySectors >>> 32)
      else if offset = BLK_CONFIG_SIZE_MAX then pure (BitVec.ofNat 64 MAX_REQUEST_BYTES)
      else pure 0

/-- The device half of the pair a chain handler works on. -/
def onDevice {ε α : Type} (x : EStateM ε (VirtioBlock β) α) : EStateM ε (VirtioBlock β × Ram) α :=
  zoom Prod.fst (fun d s => (d, s.2)) id x

/-- A transfer lies inside the disk and all its segments inside RAM. -/
def validateTransfer (d : VirtioBlock β) (ram : Ram) (sector : U64) (total : Nat)
    (segments : List Descriptor) : Bool :=
  decide (sector.toNat * 512 < 2 ^ 64) && decide (sector.toNat * 512 + total < 2 ^ 64) &&
    decide (sector.toNat * 512 + total ≤ min (d.capacitySectors.toNat * 512) (2 ^ 64 - 1)) &&
    segments.all fun desc => (Virtqueue.ramOffset ram desc.addr desc.len.toNat).isSome

def copySliceToRam (data : List U8) (addr : U64) :
    EStateM BlockError (VirtioBlock β × Ram) Unit := do
  let s ← get
  let offset ← ofOption .outOfRange (Virtqueue.ramOffset s.2 addr data.length)
  Virtqueue.writeSlice .io offset data

/-- Spread a read's data over the segments in chain order. -/
def copySegments : List U8 → List Descriptor → EStateM BlockError (VirtioBlock β × Ram) Unit
  | _, [] => pure ()
  | data, desc :: rest => do
    copySliceToRam (data.take desc.len.toNat) desc.addr
    copySegments (data.drop desc.len.toNat) rest

def readSegments (sector : U64) (segments : List Descriptor) :
    EStateM BlockError (VirtioBlock β × Ram) Unit := do
  let s ← get
  if segments.any fun desc => desc.flags &&& DESC_F_WRITE = 0 then
    throw .io
  else if ¬ s.1.validateTransfer s.2 sector (Virtqueue.totalLen segments) segments then
    throw .outOfRange
  else
    let data ← onDevice (backendMut (BlockBackend.readAt sector (Virtqueue.totalLen segments)))
    copySegments data.1 segments

def copyRamToVec (ram : Ram) : List Descriptor → Except BlockError (List U8)
  | [] => .ok []
  | desc :: rest =>
    match Virtqueue.ramOffset ram desc.addr desc.len.toNat with
    | none => .error .outOfRange
    | some offset =>
      match ram.readSlice offset desc.len.toNat with
      | none => .error .io
      | some bytes => (bytes ++ ·) <$> copyRamToVec ram rest

def writeSegments (sector : U64) (segments : List Descriptor) :
    EStateM BlockError (VirtioBlock β × Ram) Unit := do
  let s ← get
  if segments.any fun desc => desc.flags &&& DESC_F_WRITE ≠ 0 then
    throw .io
  else if ¬ s.1.validateTransfer s.2 sector (Virtqueue.totalLen segments) segments then
    throw .outOfRange
  else
    match copyRamToVec s.2 segments with
    | .error e => throw e
    | .ok data => onDevice (backendMut (BlockBackend.writeAt sector data))

def request (requestType : U32) (sector : U64) (data : List Descriptor) :
    EStateM BlockError (VirtioBlock β × Ram) Unit :=
  if requestType = BLK_T_IN then readSegments sector data
  else if requestType = BLK_T_OUT then writeSegments sector data
  else if requestType = BLK_T_FLUSH ∧ data.isEmpty then onDevice flush
  else throw .io

def countBytes (d : VirtioBlock β) (requestType : U32) (len : Nat) : VirtioBlock β :=
  if requestType = BLK_T_IN then { d with bytesRead := d.bytesRead + BitVec.ofNat 64 len }
  else if requestType = BLK_T_OUT then
    { d with bytesWritten := d.bytesWritten + BitVec.ofNat 64 len }
  else d

def execute (chain : List Descriptor) : Access (VirtioBlock β × Ram) U32 := do
  let s ← get
  match chain with
  | header :: next :: rest =>
    let data := (next :: rest).dropLast
    if header.len < 16 ∨ header.flags &&& DESC_F_NEXT = 0 ∨
        header.flags &&& DESC_F_WRITE ≠ 0 ∨ MAX_REQUEST_BYTES < Virtqueue.totalLen data ∨
        2 ^ 64 ≤ header.addr.toNat + 8 then
      throw ()
    else
      let requestType ← ofOption () (Virtqueue.readU32 s.2 header.addr)
      let sector ← ofOption () (Virtqueue.readU64 s.2 (header.addr + 8))
      mapError (fun _ => ()) (request requestType sector data)
      modify fun s => (s.1.countBytes requestType (Virtqueue.totalLen data), s.2)
      pure (BitVec.ofNat 32 (Virtqueue.totalLen data))
  | _ => throw ()

/-- Run one chain; failure means that there is nowhere to report a status. -/
def processChain (layout : QueueLayout) (head : U16) : Access (VirtioBlock β × Ram) U32 := do
  let s ← get
  let chain ← ofOption () (Virtqueue.collectChain s.2 layout head)
  let status ← ofOption () chain.getLast?
  if status.len < 1 ∨ status.flags &&& DESC_F_WRITE = 0 ∨
      (Virtqueue.ramOffset s.2 status.addr 1).isNone then
    throw ()
  else
    let usedLen ← attempt (execute chain)
    let s ← get
    let offset ← ofOption () (Virtqueue.ramOffset s.2 status.addr 1)
    Virtqueue.writeSlice () offset [if usedLen.isSome then 0 else 1]
    pure (usedLen.getD 0)

/-- A chain without a status byte is skipped without a used element. -/
def handler : Virtqueue.Handler (VirtioBlock β) := fun layout head => do
  let usedLen ← attempt (processChain layout head)
  match usedLen with
  | some len => pure (.used len)
  | none => pure .skip

def processQueue (s : VirtioBlock β × Ram) : VirtioBlock β × Ram :=
  let (work, s') := Transport.drain (s.1.transport.queue 0) handler s
  ({ s'.1 with transport := s'.1.transport.completeQueue work }, s'.2)

def write (offset val : U64) (size : Nat) : Access (VirtioBlock β × Ram) Unit := fun s =>
  if size ≠ 4 then
    .error () s
  else
    let (effect, transport) := s.1.transport.write offset (val.setWidth 32)
    let s' := ({ s.1 with transport := transport }, s.2)
    if effect = .notify 0 then .ok () (processQueue s') else .ok () s'

/-! ## RAM only evolves -/

omit [BlockBackend β] in
theorem keeps_onDevice {ε α : Type} (x : EStateM ε (VirtioBlock β) α) :
    Keeps RamEvolves (onDevice x) := by
  refine keeps_zoom_any ?_
  intro s d
  exact Ram.Evolves.refl s.2

omit [BlockBackend β] in
theorem keeps_copySliceToRam (data : List U8) (addr : U64) :
    Keeps RamEvolves (copySliceToRam data addr : EStateM BlockError (VirtioBlock β × Ram) Unit) :=
  keeps_bind keeps_get fun _ =>
    keeps_bind (keeps_ofOption _ _) fun _ => Virtqueue.keeps_writeSlice _ _ _

omit [BlockBackend β] in
theorem keeps_copySegments (data : List U8) (segments : List Descriptor) :
    Keeps RamEvolves
      (copySegments data segments : EStateM BlockError (VirtioBlock β × Ram) Unit) := by
  induction segments generalizing data with
  | nil => exact keeps_pure ()
  | cons desc rest ih => exact keeps_bind (keeps_copySliceToRam _ _) fun _ => ih _

theorem keeps_request (requestType : U32) (sector : U64) (data : List Descriptor) :
    Keeps RamEvolves
      (request requestType sector data : EStateM BlockError (VirtioBlock β × Ram) Unit) := by
  refine keeps_ite (fun _ => ?_) fun _ => keeps_ite (fun _ => ?_) fun _ =>
    keeps_ite (fun _ => keeps_onDevice _) fun _ => keeps_throw _
  · refine keeps_bind keeps_get fun s => keeps_ite
      (fun _ => keeps_throw _) fun _ => keeps_ite (fun _ => keeps_throw _)
      fun _ => keeps_bind (keeps_onDevice _) fun _ => keeps_copySegments _ _
  · refine keeps_bind keeps_get fun s => keeps_ite
      (fun _ => keeps_throw _) fun _ => keeps_ite (fun _ => keeps_throw _)
      fun _ => ?_
    cases copyRamToVec s.2 data with
    | error e => exact keeps_throw e
    | ok bytes => exact keeps_onDevice _

theorem keeps_execute (chain : List Descriptor) :
    Keeps RamEvolves (execute chain : Access (VirtioBlock β × Ram) U32) := by
  refine keeps_bind keeps_get fun s => ?_
  match chain with
  | [] => exact keeps_throw ()
  | [_] => exact keeps_throw ()
  | header :: next :: rest =>
    refine keeps_ite (fun _ => keeps_throw ()) fun _ => ?_
    exact keeps_bind (keeps_ofOption _ _) fun _ =>
      keeps_bind (keeps_ofOption _ _) fun _ =>
        keeps_bind (keeps_mapError (keeps_request _ _ _)) fun _ =>
          keeps_bind (Virtqueue.keeps_modify_device _) fun _ => keeps_pure _

theorem keeps_handler (layout : QueueLayout) (head : U16) :
    Keeps RamEvolves (handler (β := β) layout head) := by
  have hchain : Keeps RamEvolves (processChain layout head : Access (VirtioBlock β × Ram) U32) := by
    refine keeps_bind keeps_get fun s => ?_
    refine keeps_bind (keeps_ofOption _ _) fun chain => ?_
    refine keeps_bind (keeps_ofOption _ _) fun status => ?_
    refine keeps_ite (fun _ => keeps_throw ()) fun _ => ?_
    refine keeps_bind (keeps_attempt (keeps_execute chain)) fun usedLen => ?_
    refine keeps_bind keeps_get fun s => ?_
    refine keeps_bind (keeps_ofOption _ _) fun offset => ?_
    exact keeps_bind (Virtqueue.keeps_writeSlice _ _ _) fun _ => keeps_pure _
  refine keeps_bind (keeps_attempt hchain) fun usedLen => ?_
  cases usedLen with
  | none | some len => exact keeps_pure _

theorem processQueue_evolves (s : VirtioBlock β × Ram) : RamEvolves s (processQueue s) :=
  Transport.drain_evolves (s.1.transport.queue 0) (keeps_handler (β := β)) s

theorem keeps_write (offset val : U64) (size : Nat) :
    Keeps RamEvolves (write offset val size : Access (VirtioBlock β × Ram) Unit) := by
  intro s
  unfold write
  split
  · exact Ram.Evolves.refl s.2
  · dsimp only
    split
    · exact (processQueue_evolves _).of_ram_eq rfl
    · exact Ram.Evolves.refl s.2

/-! ## Snapshots -/

def SNAPSHOT_VERSION : U16 := 1

def snapshotBody (d : VirtioBlock β) : List U8 :=
  Writer.u64 d.bytesRead ++ Writer.u64 d.bytesWritten

def snapshot (d : VirtioBlock β) : List U8 :=
  Writer.sectionOf SNAPSHOT_VERSION d.snapshotBody ++ d.transport.snapshot

/-- The backend is a host attachment and stays. -/
def restore (d : VirtioBlock β) : Read (VirtioBlock β) := do
  let (bytesRead, bytesWritten) ← Reader.readSection "virtio-blk" SNAPSHOT_VERSION do
    let bytesRead ← Reader.u64
    let bytesWritten ← Reader.u64
    pure (bytesRead, bytesWritten)
  let transport ← Transport.restore 1 QUEUE_SIZE_MAX
  pure { d with transport := transport, bytesRead := bytesRead, bytesWritten := bytesWritten }

end VirtioBlock

end EmulateComputer
