import EmulateComputer.Devices.Virtio

/-!
# VirtioConsole — control console of the guest service

Host messages wait in `input` until the guest posts receive buffers (queue 0); what the guest
transmits (queue 1) waits in `output` for the host.  Both buffers are bounded by their type.
-/

namespace EmulateComputer

open Effect

open Virtqueue (Descriptor QueueLayout ChainOutcome RamEvolves DESC_F_WRITE DESC_F_INDIRECT)

structure VirtioConsole where
  input : List U8
  output : List U8
  transport : Transport 2 128
  input_le : input.length ≤ 65536
  output_le : output.length ≤ 65536

namespace VirtioConsole

def CAPACITY : Nat := 64 * 1024

/-- `VirtioConsole::default()`. -/
def new : VirtioConsole :=
  { input := [], output := [], transport := Transport.new 2 128, input_le := by simp,
    output_le := by simp }

def read (offset : U64) (size : Nat) : Access VirtioConsole U64 := do
  let d ← get
  if size ≠ 4 ∧ size ≠ 8 then throw ()
  else pure ((d.transport.read offset 3 fun word => if word = 0 then 0 else 1).getD 0)

/-- `input.drain(..len)`. -/
def dropInput (d : VirtioConsole) (len : Nat) : VirtioConsole :=
  { d with
    input := d.input.drop len
    input_le := by
      have := d.input_le
      rw [List.length_drop]
      omega }

/-- A usable chain: direct descriptors of the queue's direction, all in RAM. -/
def wellFormed (queue : Fin 2) (ram : Ram) (chain : List Descriptor) : Bool :=
  !chain.isEmpty && chain.all fun desc =>
    desc.flags &&& DESC_F_INDIRECT = 0 &&
      decide (desc.flags &&& DESC_F_WRITE ≠ 0) == decide (queue = 0) &&
      (Virtqueue.ramOffset ram desc.addr desc.len.toNat).isSome

/-- Fill receive descriptors with the next `remaining` input bytes. -/
def receiveLoop : List Descriptor → Nat → EStateM ChainOutcome (VirtioConsole × Ram) Unit
  | [], _ => pure ()
  | desc :: rest, remaining => do
    let s ← get
    let len := min remaining desc.len.toNat
    let offset ← ofOption .skip (Virtqueue.ramOffset s.2 desc.addr len)
    Virtqueue.writeSlice .skip offset (s.1.input.take len)
    modify fun s => (s.1.dropInput len, s.2)
    if remaining - len = 0 then pure () else receiveLoop rest (remaining - len)

/-- Append the bytes of transmit descriptors to `out`; false if one could not be read. -/
def transmitLoop (ram : Ram) : List Descriptor → Nat → List U8 → Bool × List U8
  | [], _, out => (true, out)
  | desc :: rest, remaining, out =>
    let len := min remaining desc.len.toNat
    match Virtqueue.ramOffset ram desc.addr len with
    | none => (false, out)
    | some offset =>
      match ram.readSlice offset len with
      | none => (false, out)
      | some bytes =>
        if remaining - len = 0 then (true, out ++ bytes)
        else transmitLoop ram rest (remaining - len) (out ++ bytes)

theorem length_transmitLoop_le (ram : Ram) (chain : List Descriptor) (remaining : Nat)
    (out : List U8) : (transmitLoop ram chain remaining out).2.length ≤ out.length + remaining := by
  induction chain generalizing remaining out with
  | nil => simp [transmitLoop]
  | cons desc rest ih =>
    rw [transmitLoop]
    split
    · simp
    · split
      · simp
      case h_2 offset _ bytes hbytes =>
        have hlen : bytes.length = min remaining desc.len.toNat := by
          rw [Ram.readSlice_eq] at hbytes
          split at hbytes
          · simp only [Option.some.injEq] at hbytes
            rw [← hbytes, Bytes.length_slice]
          · simp at hbytes
        split
        · simp only [List.length_append]
          omega
        · refine (ih _ _).trans ?_
          simp only [List.length_append]
          omega

/-- Take a transmit chain whole, or leave it for later when the buffer has no room. -/
def transmit (chain : List Descriptor) : EStateM ChainOutcome (VirtioConsole × Ram) ChainOutcome :=
  fun s =>
    if h : Virtqueue.totalLen chain ≤ CAPACITY - s.1.output.length then
      let result := transmitLoop s.2 chain (Virtqueue.totalLen chain) s.1.output
      let s' := ({ s.1 with
        output := result.2
        output_le := by
          have hloop : result.2.length ≤ s.1.output.length + Virtqueue.totalLen chain :=
            length_transmitLoop_le s.2 chain _ s.1.output
          have hcap := s.1.output_le
          unfold CAPACITY at h
          omega }, s.2)
      if result.1 then .ok (.used 0) s' else .error .skip s'
    else
      .error .retry s

def receive (chain : List Descriptor) :
    EStateM ChainOutcome (VirtioConsole × Ram) ChainOutcome := do
  let s ← get
  if s.1.input.isEmpty then
    throw .retry
  else
    let count := min (Virtqueue.totalLen chain) s.1.input.length
    receiveLoop chain count
    pure (.used (BitVec.ofNat 32 count))

def processChain (queue : Fin 2) : Virtqueue.Handler VirtioConsole := fun layout head => do
  let s ← get
  match Virtqueue.collectChain s.2 layout head with
  | none => throw .skip
  | some chain =>
    if ¬ wellFormed queue s.2 chain ∨ Virtqueue.totalLen chain = 0 ∨
        CAPACITY < Virtqueue.totalLen chain then
      throw .skip
    else if queue = 0 then receive chain
    else transmit chain

def processQueue (queue : Fin 2) (s : VirtioConsole × Ram) : VirtioConsole × Ram :=
  let (work, s') := Transport.drain (s.1.transport.queue queue) (processChain queue) s
  ({ s'.1 with transport := s'.1.transport.completeQueue work }, s'.2)

/-- Host: enqueue a complete message, or reject it without effect. -/
def hostInput (bytes : List U8) (s : VirtioConsole × Ram) : Bool × (VirtioConsole × Ram) :=
  if h : bytes.length ≤ CAPACITY - s.1.input.length then
    (true, processQueue 0 ({ s.1 with
      input := s.1.input ++ bytes
      input_le := by
        have := s.1.input_le
        unfold CAPACITY at h
        rw [List.length_append]
        omega }, s.2))
  else
    (false, s)

/-- Host: drain the output, which may let waiting transmit chains in. -/
def hostOutput (s : VirtioConsole × Ram) : List U8 × (VirtioConsole × Ram) :=
  (s.1.output, processQueue 1 ({ s.1 with output := [], output_le := by simp }, s.2))

/-- Emergency write: one byte, if there is room. -/
def emergencyWrite (d : VirtioConsole) (b : U8) : VirtioConsole :=
  if h : d.output.length < CAPACITY then
    { d with
      output := d.output ++ [b]
      output_le := by
        unfold CAPACITY at h
        rw [List.length_append, List.length_singleton]
        omega }
  else d

def write (offset val : U64) (size : Nat) : Access (VirtioConsole × Ram) Unit := fun s =>
  if size ≠ 4 then
    .error () s
  else
    let (effect, transport) := s.1.transport.write offset (val.setWidth 32)
    let s' := ({ s.1 with transport := transport }, s.2)
    if effect = .notify 0 then .ok () (processQueue 0 s')
    else if effect = .notify 1 then .ok () (processQueue 1 s')
    else if effect = .reset then
      .ok () ({ s'.1 with input := [], output := [], input_le := by simp, output_le := by simp },
        s'.2)
    else if effect = .unhandled ∧ offset = 0x108 then
      .ok () (s'.1.emergencyWrite (val.setWidth 8), s'.2)
    else .ok () s'

/-! ## RAM only evolves -/

theorem keeps_receiveLoop (chain : List Descriptor) (remaining : Nat) :
    Keeps RamEvolves (receiveLoop chain remaining) := by
  induction chain generalizing remaining with
  | nil => exact keeps_pure ()
  | cons desc rest ih =>
    exact keeps_bind keeps_get fun _ =>
      keeps_bind (keeps_ofOption _ _) fun _ =>
        keeps_bind (Virtqueue.keeps_writeSlice _ _ _) fun _ =>
          keeps_bind (Virtqueue.keeps_modify_device _) fun _ =>
            keeps_ite (fun _ => keeps_pure ()) fun _ => ih _

theorem keeps_processChain (queue : Fin 2) (layout : QueueLayout) (head : U16) :
    Keeps RamEvolves (processChain queue layout head) := by
  refine keeps_bind keeps_get fun s => ?_
  cases Virtqueue.collectChain s.2 layout head with
  | none => exact keeps_throw _
  | some chain =>
    refine keeps_ite (fun _ => keeps_throw _) fun _ =>
      keeps_ite (fun _ => ?_) fun _ => ?_
    · exact keeps_bind keeps_get fun _ =>
        keeps_ite (fun _ => keeps_throw _) fun _ =>
          keeps_bind (keeps_receiveLoop _ _) fun _ => keeps_pure _
    · intro t
      unfold transmit
      split
      · dsimp only
        split <;> exact Ram.Evolves.refl t.2
      · exact Ram.Evolves.refl t.2

theorem processQueue_evolves (queue : Fin 2) (s : VirtioConsole × Ram) :
    RamEvolves s (processQueue queue s) :=
  Transport.drain_evolves (s.1.transport.queue queue) (keeps_processChain queue) s

theorem keeps_write (offset val : U64) (size : Nat) : Keeps RamEvolves (write offset val size) := by
  intro s
  unfold write
  split
  · exact Ram.Evolves.refl s.2
  · dsimp only
    split
    · exact (processQueue_evolves 0 _).of_ram_eq rfl
    · split
      · exact (processQueue_evolves 1 _).of_ram_eq rfl
      · split
        · exact Ram.Evolves.refl s.2
        · split <;> exact Ram.Evolves.refl s.2

/-! ## Snapshots -/

def snapshotBody (d : VirtioConsole) : List U8 :=
  Writer.bytes d.input ++ Writer.bytes d.output

def snapshot (d : VirtioConsole) : List U8 :=
  Writer.sectionOf 1 d.snapshotBody ++ d.transport.snapshot

def restore : Read VirtioConsole := do
  let build ← Reader.readSection "virtio-console" 1 do
    let incoming ← Reader.bytes
    let outgoing ← Reader.bytes
    if h : incoming.length ≤ CAPACITY ∧ outgoing.length ≤ CAPACITY then
      pure fun transport =>
        { input := incoming, output := outgoing, transport := transport, input_le := h.1,
          output_le := h.2 : VirtioConsole }
    else
      throw "console buffer exceeds capacity"
  let transport ← Transport.restore 2 128
  pure (build transport)

end VirtioConsole

end EmulateComputer
