import EmulateComputer.Devices.Virtio

/-!
# VirtioRng — VirtIO entropy device

Hosts inject bytes into a bounded reservoir; requests that find it empty stay available and are
retried by the next refill.  The reservoir is a ring buffer: `entropy` is what it holds, and
`untilWrap` how far its front is from the end of the ring, where `as_slices` cuts it in two.
-/

namespace EmulateComputer

open Effect

open Virtqueue (Descriptor QueueLayout ChainOutcome RamEvolves DESC_F_WRITE DESC_F_INDIRECT)

structure VirtioEntropy where
  entropy : List U8
  untilWrap : Nat
  transport : Transport 1 8
  entropy_le : entropy.length ≤ 65536

namespace VirtioEntropy

def DEVICE_ID_ENTROPY : U32 := 4
def QUEUE_SIZE_MAX : U16 := 8
def ENTROPY_CAPACITY : Nat := 64 * 1024
def MAX_REQUEST_BYTES : Nat := 1024 * 1024

inductive RequestOutcome
  | completed (usedLen : U32)
  | pending
  | malformed

def new : VirtioEntropy :=
  { entropy := [], untilWrap := ENTROPY_CAPACITY, transport := Transport.new 1 QUEUE_SIZE_MAX,
    entropy_le := Nat.zero_le ENTROPY_CAPACITY }

def entropyNeeded (d : VirtioEntropy) : Nat :=
  ENTROPY_CAPACITY - d.entropy.length

def read (offset : U64) (size : Nat) : Access VirtioEntropy U64 := do
  let d ← get
  if size ≠ 4 ∧ size ≠ 8 then throw ()
  else
    pure ((d.transport.read offset DEVICE_ID_ENTROPY fun word => if word = 0 then 0 else 1).getD 0)

/-- `entropy.as_slices()`. -/
def asSlices (d : VirtioEntropy) : List U8 × List U8 :=
  (d.entropy.take d.untilWrap, d.entropy.drop d.untilWrap)

/-- The slice that a round of `writeChunks` takes from. -/
def source (d : VirtioEntropy) : List U8 :=
  let (first, second) := d.asSlices
  if first.isEmpty then second else first

/-- `entropy.drain(..len)`. -/
def dropEntropy (d : VirtioEntropy) (len : Nat) : VirtioEntropy :=
  { d with
    entropy := d.entropy.drop len
    untilWrap := if len < d.untilWrap then d.untilWrap - len
      else ENTROPY_CAPACITY - (len - d.untilWrap)
    entropy_le := by
      have := d.entropy_le
      rw [List.length_drop]
      omega }

/-- The loop of `writeEntropy`, with `left` bytes still to be written at `offset`. -/
def writeChunks : Nat → U64 → Nat → EStateM RequestOutcome (VirtioEntropy × Ram) Unit
  | 0, _, _ => pure ()
  | fuel + 1, offset, left =>
    if left = 0 then
      pure ()
    else do
      let s ← get
      let chunkLen := min s.1.source.length left
      Virtqueue.writeSlice .malformed offset (s.1.source.take chunkLen)
      modify fun s => (s.1.dropEntropy chunkLen, s.2)
      writeChunks fuel (offset + BitVec.ofNat 64 chunkLen) (left - chunkLen)

/-- Move the next `len` entropy bytes to a guest buffer; each round moves at least one. -/
def writeEntropy (addr : U64) (len : Nat) : EStateM RequestOutcome (VirtioEntropy × Ram) Unit := do
  let s ← get
  let offset ← ofOption .malformed (Virtqueue.ramOffset s.2 addr len)
  writeChunks len offset len

def writeLoop : List Descriptor → Nat → EStateM RequestOutcome (VirtioEntropy × Ram) Unit
  | [], _ => pure ()
  | desc :: rest, remaining =>
    if remaining = 0 then
      pure ()
    else do
      let len := min remaining desc.len.toNat
      writeEntropy desc.addr len
      writeLoop rest (remaining - len)

/-- A request of writable direct descriptors with between 1 and `MAX_REQUEST_BYTES` bytes, all of
them in RAM. -/
def wellFormed (ram : Ram) (chain : List Descriptor) : Bool :=
  !chain.isEmpty &&
    (chain.all fun desc =>
      desc.flags &&& DESC_F_WRITE ≠ 0 && desc.flags &&& DESC_F_INDIRECT = 0) &&
    Virtqueue.totalLen chain ≠ 0 && decide (Virtqueue.totalLen chain ≤ MAX_REQUEST_BYTES) &&
    chain.all fun desc => (Virtqueue.ramOffset ram desc.addr desc.len.toNat).isSome

def processChain (layout : QueueLayout) (head : U16) :
    EStateM RequestOutcome (VirtioEntropy × Ram) RequestOutcome := do
  let s ← get
  match Virtqueue.collectChain s.2 layout head with
  | none => throw .malformed
  | some chain =>
    if ¬ wellFormed s.2 chain then
      throw .malformed
    else if s.1.entropy.isEmpty then
      throw .pending
    else do
      let count := min (Virtqueue.totalLen chain) s.1.entropy.length
      writeLoop chain count
      pure (.completed (BitVec.ofNat 32 count))

/-- Requests that cannot be served yet stay available. -/
def chainOutcome : RequestOutcome → ChainOutcome
  | .completed usedLen => .used usedLen
  | .pending => .retry
  | .malformed => .skip

def handler : Virtqueue.Handler VirtioEntropy := fun layout head =>
  mapError chainOutcome (chainOutcome <$> processChain layout head)

def processQueue (s : VirtioEntropy × Ram) : VirtioEntropy × Ram :=
  let (work, s') := Transport.drain (s.1.transport.queue 0) handler s
  ({ s'.1 with transport := s'.1.transport.completeQueue work }, s'.2)

/-- Host: add as many bytes as fit and serve waiting requests. -/
def addEntropy (bytes : List U8) (s : VirtioEntropy × Ram) : Nat × (VirtioEntropy × Ram) :=
  let accepted := min bytes.length s.1.entropyNeeded
  (accepted, processQueue ({ s.1 with
    entropy := s.1.entropy ++ bytes.take accepted
    entropy_le := by
      have := s.1.entropy_le
      rw [List.length_append, List.length_take]
      simp only [accepted, entropyNeeded, ENTROPY_CAPACITY]
      omega }, s.2))

def write (offset val : U64) (size : Nat) : Access (VirtioEntropy × Ram) Unit := fun s =>
  if size ≠ 4 then
    .error () s
  else
    let (effect, transport) := s.1.transport.write offset (val.setWidth 32)
    let s' := ({ s.1 with transport := transport }, s.2)
    if effect = .notify 0 then .ok () (processQueue s') else .ok () s'

/-! ## RAM only evolves -/

theorem keeps_writeChunks (fuel : Nat) (offset : U64) (left : Nat) :
    Keeps RamEvolves (writeChunks fuel offset left) := by
  induction fuel generalizing offset left with
  | zero => exact keeps_pure ()
  | succ fuel ih =>
    exact keeps_ite (fun _ => keeps_pure ()) fun _ => keeps_bind keeps_get fun _ =>
      keeps_bind (Virtqueue.keeps_writeSlice _ _ _) fun _ =>
        keeps_bind (Virtqueue.keeps_modify_device _) fun _ => ih _ _

theorem keeps_writeLoop (chain : List Descriptor) (remaining : Nat) :
    Keeps RamEvolves (writeLoop chain remaining) := by
  induction chain generalizing remaining with
  | nil => exact keeps_pure ()
  | cons desc rest ih =>
    refine keeps_ite (fun _ => keeps_pure ()) fun _ =>
      keeps_bind ?_ fun _ => ih _
    exact keeps_bind keeps_get fun _ =>
      keeps_bind (keeps_ofOption _ _) fun _ => keeps_writeChunks _ _ _

theorem keeps_handler (layout : QueueLayout) (head : U16) :
    Keeps RamEvolves (handler layout head) := by
  refine keeps_mapError (keeps_map ?_)
  refine keeps_bind keeps_get fun s => ?_
  cases Virtqueue.collectChain s.2 layout head with
  | none => exact keeps_throw _
  | some chain =>
    exact keeps_ite (fun _ => keeps_throw _) fun _ =>
      keeps_ite (fun _ => keeps_throw _) fun _ =>
        keeps_bind (keeps_writeLoop _ _) fun _ => keeps_pure _

theorem processQueue_evolves (s : VirtioEntropy × Ram) : RamEvolves s (processQueue s) :=
  Transport.drain_evolves (s.1.transport.queue 0) keeps_handler s

theorem keeps_write (offset val : U64) (size : Nat) : Keeps RamEvolves (write offset val size) := by
  intro s
  unfold write
  split
  · exact Ram.Evolves.refl s.2
  · dsimp only
    split
    · exact (processQueue_evolves _).of_ram_eq rfl
    · exact Ram.Evolves.refl s.2

/-! ## Snapshots -/

def SNAPSHOT_VERSION : U16 := 1

def snapshot (d : VirtioEntropy) : List U8 :=
  Writer.sectionOf SNAPSHOT_VERSION (Writer.bytes d.entropy) ++ d.transport.snapshot

def restore : Read VirtioEntropy := do
  let build ← Reader.readSection "virtio-rng" SNAPSHOT_VERSION do
    let entropy ← Reader.bytes
    if h : entropy.length ≤ ENTROPY_CAPACITY then
      pure fun transport =>
        { entropy, untilWrap := ENTROPY_CAPACITY, transport, entropy_le := h : VirtioEntropy }
    else
      throw (toString entropy.length ++ " buffered bytes exceed the reservoir")
  let transport ← Transport.restore 1 QUEUE_SIZE_MAX
  pure (build transport)

end VirtioEntropy

end EmulateComputer
