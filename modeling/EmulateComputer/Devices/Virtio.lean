import EmulateComputer.Ram
import Mathlib.Data.List.OfFn

/-!
# Virtio — split virtqueues and the VirtIO-MMIO transport

`drain` walks the available ring of a queue and hands each chain head to the device's handler.
A handler is a program over the device and RAM; a `return` in the middle of the source's handler
is a `throw` of the outcome.  All RAM changes of a drain are ring publications and what the
handler itself writes, so `keeps_drain` derives what a drain preserves from what its handler
preserves.
-/

namespace EmulateComputer

open Effect (Keeps)

namespace Virtqueue

def DESC_F_NEXT : U16 := 1
def DESC_F_WRITE : U16 := 2
def DESC_F_INDIRECT : U16 := 4

/-! ## RAM accessors -/

/-- Offset of a guest-physical range inside RAM; a sum that overflows is outside it. -/
def ramOffset (ram : Ram) (addr : U64) (len : Nat) : Option U64 :=
  if DRAM_BASE ≤ addr ∧ (addr - DRAM_BASE).toNat + len ≤ ram.size then
    some (addr - DRAM_BASE)
  else
    none

def readU16 (ram : Ram) (addr : U64) : Option U16 := do
  let offset ← ramOffset ram addr 2
  let v ← ram.read offset 2
  some (v.setWidth 16)

def readU32 (ram : Ram) (addr : U64) : Option U32 := do
  let offset ← ramOffset ram addr 4
  let v ← ram.read offset 4
  some (v.setWidth 32)

def readU64 (ram : Ram) (addr : U64) : Option U64 := do
  let offset ← ramOffset ram addr 8
  ram.read offset 8

/-- A write of `size` bytes at a guest-physical address. -/
def writeWord (addr val : U64) (size : Nat) : Access Ram Unit := fun ram =>
  match ramOffset ram addr size with
  | none => .error () ram
  | some offset =>
    match ram.write offset val size with
    | none => .error () ram
    | some ram' => .ok () ram'

def writeU16 (addr : U64) (val : U16) : Access Ram Unit :=
  writeWord addr (val.setWidth 64) 2

def writeU32 (addr : U64) (val : U32) : Access Ram Unit :=
  writeWord addr (val.setWidth 64) 4

theorem keeps_writeWord (addr val : U64) (size : Nat) :
    Keeps Ram.Evolves (writeWord addr val size) := by
  intro ram
  unfold writeWord
  cases hoffset : ramOffset ram addr size with
  | none => exact Ram.Evolves.refl ram
  | some offset =>
    cases hwrite : ram.write offset val size with
    | none =>
      simp only [hwrite]
      exact Ram.Evolves.refl ram
    | some ram' =>
      simp only [hwrite]
      exact Ram.evolves_write hwrite

/-! ## Descriptors -/

structure Descriptor where
  addr : U64
  len : U32
  flags : U16
  next : U16
  deriving DecidableEq

structure Queue where
  num : U16
  ready : Bool
  desc : U64
  avail : U64
  used : U64
  lastAvailIdx : U16

namespace Queue

/-- `Queue::default()`. -/
def default : Queue :=
  { num := 0, ready := false, desc := 0, avail := 0, used := 0, lastAvailIdx := 0 }

end Queue

structure QueueLayout where
  desc : U64
  num : U16

def Queue.layout (q : Queue) : QueueLayout :=
  { desc := q.desc, num := q.num }

def descriptor (ram : Ram) (table : U64) (queueNum index : U16) : Option Descriptor :=
  if queueNum ≤ index then
    none
  else if 2 ^ 64 ≤ table.toNat + index.toNat * 16 then
    none
  else do
    let addr := table + index.setWidth 64 * 16
    let _ ← ramOffset ram addr 16
    let target ← readU64 ram addr
    let len ← readU32 ram (addr + 8)
    let flags ← readU16 ram (addr + 12)
    let next ← readU16 ram (addr + 14)
    some { addr := target, len := len, flags := flags, next := next }

/-- Follow `next` links for at most `fuel` descriptors. -/
def collectFrom (ram : Ram) (layout : QueueLayout) : Nat → U16 → Option (List Descriptor)
  | 0, _ => none
  | fuel + 1, index => do
    let desc ← descriptor ram layout.desc layout.num index
    if desc.flags &&& DESC_F_NEXT = 0 then
      some [desc]
    else
      let rest ← collectFrom ram layout fuel desc.next
      some (desc :: rest)

/-- The chain at `head`, or nothing when it leaves the table or does not end within the queue
size. -/
def collectChain (ram : Ram) (layout : QueueLayout) (head : U16) : Option (List Descriptor) :=
  collectFrom ram layout layout.num.toNat head

/-- Sum of the descriptor lengths; at most 65535 of them, so a `usize` never overflows. -/
def totalLen (chain : List Descriptor) : Nat :=
  (chain.map fun desc => desc.len.toNat).sum

/-! ## Draining -/

inductive ChainOutcome
  | used (len : U32)
  | skip
  | retry
  deriving DecidableEq

/-- A device's treatment of one chain; an early return is a throw. -/
abbrev Handler (δ : Type) := QueueLayout → U16 → EStateM ChainOutcome (δ × Ram) ChainOutcome

variable {δ : Type}

def outcome : EStateM.Result ChainOutcome (δ × Ram) ChainOutcome → ChainOutcome × (δ × Ram)
  | .ok o s => (o, s)
  | .error o s => (o, s)

/-- `ram.write_slice`, returning early with `e` when the range is bad. -/
def writeSlice {ε : Type} (e : ε) (offset : U64) (bytes : List U8) : EStateM ε (δ × Ram) Unit :=
  fun s =>
    match s.2.writeSlice offset bytes with
    | some ram => .ok () (s.1, ram)
    | none => .error e s

def publish (entry used : U64) (head : U16) (len : U32) (usedIdx : U16) : Access Ram Unit := do
  writeU32 entry (head.setWidth 32)
  writeU32 (entry + 4) len
  writeU16 (used + 2) (usedIdx + 1)

def drainLoop (handler : Handler δ) (availIdx : U16) :
    Nat → Queue → Bool → δ × Ram → (Queue × Bool) × (δ × Ram)
  | 0, q, published, s => ((q, published), s)
  | fuel + 1, q, published, s =>
    if q.lastAvailIdx = availIdx then
      ((q, published), s)
    else
      match readU16 s.2 (q.avail + 4 + (q.lastAvailIdx % q.num).setWidth 64 * 2),
          readU16 s.2 (q.used + 2) with
      | some head, some usedIdx =>
        let entry := q.used + 4 + (usedIdx % q.num).setWidth 64 * 8
        -- Completion must be reportable before any work is done.
        if (ramOffset s.2 entry 8).isNone then
          ((q, published), s)
        else
          match outcome (handler q.layout head s) with
          | (.retry, s') => ((q, published), s')
          | (.skip, s') =>
            drainLoop handler availIdx fuel
              { q with lastAvailIdx := q.lastAvailIdx + 1 } published s'
          | (.used len, s') =>
            match publish entry q.used head len usedIdx s'.2 with
            | .error _ ram => ((q, published), (s'.1, ram))
            | .ok _ ram =>
              drainLoop handler availIdx fuel
                { q with lastAvailIdx := q.lastAvailIdx + 1 } true (s'.1, ram)
      | _, _ => ((q, published), s)

/-- The ring spans that have to lie in RAM before any of it is read. -/
def spansInRam (q : Queue) (ram : Ram) : Bool :=
  (ramOffset ram q.desc (q.num.toNat * 16)).isSome &&
    (ramOffset ram q.avail (4 + q.num.toNat * 2)).isSome &&
    (ramOffset ram q.used (4 + q.num.toNat * 8)).isSome

/-- Consume available chains, at most one ring's worth; true if a used element was published. -/
def drain (handler : Handler δ) (q : Queue) (s : δ × Ram) : (Queue × Bool) × (δ × Ram) :=
  if ¬ q.ready ∨ q.num = 0 ∨ q.desc = 0 ∨ q.avail = 0 ∨ q.used = 0 ∨ ¬ spansInRam q s.2 then
    ((q, false), s)
  else
    match readU16 s.2 (q.avail + 2) with
    | none => ((q, false), s)
    | some availIdx =>
      -- More than a ring's worth outstanding is a driver error: nothing is processed.
      if q.num < availIdx - q.lastAvailIdx then
        ((q, false), s)
      else
        drainLoop handler availIdx q.num.toNat q false s

/-! ### One turn of the loop -/

def availEntry (q : Queue) (ram : Ram) (idx : U16) : Option U16 :=
  readU16 ram (q.avail + 4 + (idx % q.num).setWidth 64 * 2)

def usedIdx (q : Queue) (ram : Ram) : Option U16 :=
  readU16 ram (q.used + 2)

def usedSlot (q : Queue) (idx : U16) : U64 :=
  q.used + 4 + (idx % q.num).setWidth 64 * 8

/-- The next head and the position of its used element, if the drain goes on. -/
def next (q : Queue) (availIdx : U16) (ram : Ram) : Option (U16 × U16) :=
  if q.lastAvailIdx = availIdx then
    none
  else do
    let head ← availEntry q ram q.lastAvailIdx
    let idx ← usedIdx q ram
    if (ramOffset ram (usedSlot q idx) 8).isNone then none else some (head, idx)

/-- What the outcome of a call leads to. -/
def settled (handler : Handler δ) (availIdx : U16) (fuel : Nat) (q : Queue) (published : Bool)
    (head idx : U16) : ChainOutcome × (δ × Ram) → (Queue × Bool) × (δ × Ram)
  | (.retry, t) => ((q, published), t)
  | (.skip, t) =>
    drainLoop handler availIdx fuel { q with lastAvailIdx := q.lastAvailIdx + 1 } published t
  | (.used len, t) =>
    match publish (usedSlot q idx) q.used head len idx t.2 with
    | .error _ ram => ((q, published), (t.1, ram))
    | .ok _ ram =>
      drainLoop handler availIdx fuel { q with lastAvailIdx := q.lastAvailIdx + 1 } true
        (t.1, ram)

variable (handler : Handler δ)

theorem drainLoop_succ (availIdx : U16) (fuel : Nat) (q : Queue) (published : Bool) (s : δ × Ram) :
    drainLoop handler availIdx (fuel + 1) q published s =
      match next q availIdx s.2 with
      | none => ((q, published), s)
      | some (head, idx) =>
        settled handler availIdx fuel q published head idx (outcome (handler q.layout head s)) := by
  rw [drainLoop]
  unfold next availEntry usedIdx usedSlot
  split
  · rfl
  · cases readU16 s.2 (q.avail + 4 + (q.lastAvailIdx % q.num).setWidth 64 * 2) with
    | none => rfl
    | some head =>
      cases readU16 s.2 (q.used + 2) with
      | none => rfl
      | some idx =>
        simp only [Option.bind_eq_bind, Option.bind_some]
        split
        · rfl
        · rfl

variable {q : Queue} {s : δ × Ram} {availIdx : U16}

theorem drainLoop_none (fuel : Nat) (published : Bool) (h : next q availIdx s.2 = none) :
    drainLoop handler availIdx (fuel + 1) q published s = ((q, published), s) := by
  rw [drainLoop_succ, h]

theorem drainLoop_some (fuel : Nat) (published : Bool) {head idx : U16}
    (h : next q availIdx s.2 = some (head, idx)) :
    drainLoop handler availIdx (fuel + 1) q published s =
      settled handler availIdx fuel q published head idx (outcome (handler q.layout head s)) := by
  rw [drainLoop_succ, h]

/-! ### What a drain preserves -/

/-- RAM only evolves; the device may change at will. -/
def RamEvolves (s t : δ × Ram) : Prop :=
  Ram.Evolves s.2 t.2

instance : IsPreorder (δ × Ram) RamEvolves where
  refl s := Ram.Evolves.refl s.2
  trans _ _ _ := Ram.Evolves.trans

/-- It does not matter what the device was before. -/
theorem RamEvolves.of_ram_eq {s t u : δ × Ram} (h : RamEvolves t u) (hram : t.2 = s.2) :
    RamEvolves s u := by
  unfold RamEvolves
  rw [← hram]
  exact h

theorem keeps_writeSlice {ε : Type} (e : ε) (offset : U64) (bytes : List U8) :
    Keeps RamEvolves (writeSlice e offset bytes : EStateM ε (δ × Ram) Unit) := by
  intro s
  unfold writeSlice
  cases hwrite : s.2.writeSlice offset bytes with
  | none => exact Ram.Evolves.refl s.2
  | some ram => exact Ram.evolves_writeSlice hwrite

theorem keeps_modify_device {ε : Type} (f : δ × Ram → δ) :
    Keeps RamEvolves (modify fun s => (f s, s.2) : EStateM ε (δ × Ram) PUnit) :=
  fun s => Ram.Evolves.refl s.2

theorem keeps_publish (entry used : U64) (head : U16) (len : U32) (usedIdx : U16) :
    Keeps Ram.Evolves (publish entry used head len usedIdx) :=
  Effect.keeps_bind (keeps_writeWord _ _ _) fun _ =>
    Effect.keeps_bind (keeps_writeWord _ _ _) fun _ => keeps_writeWord _ _ _

theorem outcome_evolves {handler : Handler δ}
    (h : ∀ layout head, Keeps RamEvolves (handler layout head)) (layout : QueueLayout) (head : U16)
    (s : δ × Ram) : RamEvolves s (outcome (handler layout head s)).2 := by
  have hs := h layout head s
  cases hr : handler layout head s with
  | ok o t | error o t => simpa [hr, outcome] using hs

variable {P : δ × Ram → Prop}

/-- What a publication and the rest of the loop preserve, every outcome preserves. -/
theorem settled_rule {handler : Handler δ} {fuel : Nat}
    (hpublish : ∀ d ram ram', P (d, ram) → Ram.Evolves ram ram' → P (d, ram'))
    (hloop : ∀ idx published t, P t →
      P (drainLoop handler availIdx fuel { q with lastAvailIdx := idx } published t).2)
    (published : Bool) (head idx : U16) (o : ChainOutcome) {t : δ × Ram} (h : P t) :
    P (settled handler availIdx fuel q published head idx (o, t)).2 := by
  cases o with
  | retry => exact h
  | skip => exact hloop _ _ _ h
  | used len =>
    have hevolves := keeps_publish (usedSlot q idx) q.used head len idx t.2
    unfold settled
    dsimp only
    split
    next e ram hres =>
      rw [hres] at hevolves
      exact hpublish t.1 t.2 ram h hevolves
    next u ram hres =>
      rw [hres] at hevolves
      exact hloop _ _ _ (hpublish t.1 t.2 ram h hevolves)

/-- What the handler and a publication preserve, a drain preserves. -/
theorem drainLoop_rule {handler : Handler δ} {layout : QueueLayout}
    (hcall : ∀ head s, P s → P (outcome (handler layout head s)).2)
    (hpublish : ∀ d ram ram', P (d, ram) → Ram.Evolves ram ram' → P (d, ram')) (availIdx : U16)
    (fuel : Nat) (published : Bool) (hq : q.layout = layout) (h : P s) :
    P (drainLoop handler availIdx fuel q published s).2 := by
  induction fuel generalizing q published s with
  | zero => exact h
  | succ fuel ih =>
    rw [drainLoop_succ, hq]
    split
    · exact h
    · exact settled_rule hpublish (fun _ _ _ ht => ih _ hq ht) _ _ _ _ (hcall _ _ h)

theorem drain_rule (hcall : ∀ head s, P s → P (outcome (handler q.layout head s)).2)
    (hpublish : ∀ d ram ram', P (d, ram) → Ram.Evolves ram ram' → P (d, ram')) (h : P s) :
    P (drain handler q s).2 := by
  unfold drain
  split
  · exact h
  · split
    · exact h
    · split
      · exact h
      · exact drainLoop_rule hcall hpublish _ _ _ rfl h

theorem drain_evolves {handler : Handler δ}
    (h : ∀ layout head, Keeps RamEvolves (handler layout head)) (q : Queue) (s : δ × Ram) :
    RamEvolves s (drain handler q s).2 :=
  drain_rule handler (fun head t ht => Ram.Evolves.trans ht (outcome_evolves h q.layout head t))
    (fun _ _ _ => Ram.Evolves.trans) (Ram.Evolves.refl s.2)

end Virtqueue

/-! ## The MMIO transport -/

open Virtqueue (Queue QueueLayout ChainOutcome Handler RamEvolves)

/-- What a transport register write asked the device to do. -/
inductive TransportWrite
  | handled
  | notify (queue : U32)
  | reset
  | unhandled
  deriving DecidableEq

/-- The register file of a device with `n` queues of at most `max` entries. -/
structure Transport (n : Nat) (max : U16) where
  queues : Fin n → Queue
  deviceFeaturesSel : U32
  driverFeaturesSel : U32
  driverFeatures : Fin 2 → U32
  queueSel : U32
  status : U32
  interruptStatus : U32

/-- A queue copied out of the transport while it is drained. -/
structure QueueWork (n : Nat) where
  index : Fin n
  queue : Queue
  published : Bool

namespace Transport

def MAGIC : U32 := 0x74726976
def VERSION : U32 := 2
def VENDOR_ID_QEMU : U32 := 0x554d4551

variable {n : Nat} {max : U16} {δ : Type}

def new (n : Nat) (max : U16) : Transport n max :=
  { queues := fun _ => Queue.default
    deviceFeaturesSel := 0
    driverFeaturesSel := 0
    driverFeatures := fun _ => 0
    queueSel := 0
    status := 0
    interruptStatus := 0 }

def queue (t : Transport n max) (index : Fin n) : QueueWork n :=
  { index := index, queue := t.queues index, published := false }

/-- `QueueWork::drain`. -/
def drain (work : QueueWork n) (handler : Handler δ) (s : δ × Ram) : QueueWork n × (δ × Ram) :=
  let ((queue, published), s') := Virtqueue.drain handler work.queue s
  ({ work with queue := queue, published := work.published || published }, s')

def completeQueue (t : Transport n max) (work : QueueWork n) : Transport n max :=
  { t with
    queues := Function.update t.queues work.index work.queue
    interruptStatus := if work.published then t.interruptStatus ||| 1 else t.interruptStatus }

def irqPending (t : Transport n max) : Bool :=
  t.interruptStatus ≠ 0

def selected (t : Transport n max) : Option (Fin n) :=
  if h : t.queueSel.toNat < n then some ⟨t.queueSel.toNat, h⟩ else none

def read (t : Transport n max) (offset : U64) (deviceId : U32) (features : Fin 2 → U32) :
    Option U64 :=
  if offset = 0x000 then some (MAGIC.setWidth 64)
  else if offset = 0x004 then some (VERSION.setWidth 64)
  else if offset = 0x008 then some (deviceId.setWidth 64)
  else if offset = 0x00c then some (VENDOR_ID_QEMU.setWidth 64)
  else if offset = 0x010 then
    some (if h : t.deviceFeaturesSel.toNat < 2 then
      (features ⟨t.deviceFeaturesSel.toNat, h⟩).setWidth 64 else 0)
  else if offset = 0x034 then some (if t.selected.isSome then max.setWidth 64 else 0)
  else if offset = 0x044 then
    some (if t.selected.any fun index => (t.queues index).ready then 1 else 0)
  else if offset = 0x060 then some (t.interruptStatus.setWidth 64)
  else if offset = 0x070 then some (t.status.setWidth 64)
  else none

def withQueue (t : Transport n max) (apply : Queue → Queue) : Transport n max :=
  match t.selected with
  | none => t
  | some index => { t with queues := Function.update t.queues index (apply (t.queues index)) }

def setLow (dst : U64) (val : U32) : U64 :=
  (dst &&& 0xffffffff00000000) ||| val.setWidth 64

def setHigh (dst : U64) (val : U32) : U64 :=
  (dst &&& (0x00000000ffffffff : U64)) ||| (val.setWidth 64 <<< 32)

def write (t : Transport n max) (offset : U64) (val : U32) : TransportWrite × Transport n max :=
  if offset = 0x014 then (.handled, { t with deviceFeaturesSel := val })
  else if offset = 0x020 then
    (.handled, if h : t.driverFeaturesSel.toNat < 2 then
      { t with
        driverFeatures := Function.update t.driverFeatures ⟨t.driverFeaturesSel.toNat, h⟩ val }
    else t)
  else if offset = 0x024 then (.handled, { t with driverFeaturesSel := val })
  else if offset = 0x030 then (.handled, { t with queueSel := val })
  else if offset = 0x038 then
    (.handled, t.withQueue fun q =>
      { q with num := if val.setWidth 16 ≤ max then val.setWidth 16 else max })
  else if offset = 0x044 then (.handled, t.withQueue fun q => { q with ready := val &&& 1 ≠ 0 })
  else if offset = 0x050 then (.notify val, t)
  else if offset = 0x064 then
    (.handled, { t with interruptStatus := t.interruptStatus &&& ~~~val })
  else if offset = 0x070 then
    if val = 0 then (.reset, new n max) else (.handled, { t with status := val })
  else if offset = 0x080 then (.handled, t.withQueue fun q => { q with desc := setLow q.desc val })
  else if offset = 0x084 then (.handled, t.withQueue fun q => { q with desc := setHigh q.desc val })
  else if offset = 0x090 then
    (.handled, t.withQueue fun q => { q with avail := setLow q.avail val })
  else if offset = 0x094 then
    (.handled, t.withQueue fun q => { q with avail := setHigh q.avail val })
  else if offset = 0x0a0 then (.handled, t.withQueue fun q => { q with used := setLow q.used val })
  else if offset = 0x0a4 then (.handled, t.withQueue fun q => { q with used := setHigh q.used val })
  else (.unhandled, t)

theorem drain_evolves (work : QueueWork n) {handler : Handler δ}
    (h : ∀ layout head, Keeps RamEvolves (handler layout head)) (s : δ × Ram) :
    RamEvolves s (drain work handler s).2 :=
  Virtqueue.drain_evolves h work.queue s

/-! ### Snapshots -/

def SNAPSHOT_VERSION : U16 := 1

def queueRecord (q : Queue) : List U8 :=
  Writer.u16 q.num ++ (Writer.bool q.ready ++ (Writer.u64 q.desc ++ (Writer.u64 q.avail ++
    (Writer.u64 q.used ++ Writer.u16 q.lastAvailIdx))))

def snapshotBody (t : Transport n max) : List U8 :=
  Writer.u32 (BitVec.ofNat 32 n) ++ (Writer.u16 max ++
    ((List.ofFn t.queues).flatMap queueRecord ++ (Writer.u32 t.deviceFeaturesSel ++
      (Writer.u32 t.driverFeaturesSel ++ (Writer.u32 (t.driverFeatures 0) ++
        (Writer.u32 (t.driverFeatures 1) ++ (Writer.u32 t.queueSel ++
          (Writer.u32 t.status ++ Writer.u32 t.interruptStatus))))))))

def snapshot (t : Transport n max) : List U8 :=
  Writer.sectionOf SNAPSHOT_VERSION t.snapshotBody

def readQueue : Read Queue := do
  let num ← Reader.u16
  let ready ← Reader.bool
  let desc ← Reader.u64
  let avail ← Reader.u64
  let used ← Reader.u64
  let lastAvailIdx ← Reader.u16
  pure { num := num, ready := ready, desc := desc, avail := avail, used := used,
         lastAvailIdx := lastAvailIdx }

def restore (n : Nat) (max : U16) : Read (Transport n max) :=
  Reader.readSection "virtio-transport" SNAPSHOT_VERSION do
    let queues ← Reader.u32
    let queueSizeMax ← Reader.u16
    if queues.toNat ≠ n ∨ queueSizeMax ≠ max then
      throw (toString queues.toNat ++ " queues of max " ++ toString queueSizeMax.toNat ++
        ", this device has " ++ toString n ++ " of max " ++ toString max.toNat)
    else
      let queues ← Cursor.readMany (fun _ => readQueue) 0 n
      let deviceFeaturesSel ← Reader.u32
      let driverFeaturesSel ← Reader.u32
      let features₀ ← Reader.u32
      let features₁ ← Reader.u32
      let queueSel ← Reader.u32
      let status ← Reader.u32
      let interruptStatus ← Reader.u32
      pure
        { queues := fun index => queues.1.get (index.cast queues.2.symm)
          deviceFeaturesSel := deviceFeaturesSel
          driverFeaturesSel := driverFeaturesSel
          driverFeatures := fun word => if word = 0 then features₀ else features₁
          queueSel := queueSel
          status := status
          interruptStatus := interruptStatus }

end Transport

end EmulateComputer
