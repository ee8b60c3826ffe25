import EmulateComputer.Disk.SparseBlock

/-!
# Seeder — filling a session disk from a stream

`DiskSeeder` cuts a disk image that arrives in chunks into 4 KiB blocks and passes the non-zero
ones on, batched to a file or one by one to an in-memory disk.  `OpfsBackend` is the disk over such
a file.

The file is a parameter: a type with the operations of `ImageIo`.  The text of the last file error,
a thread-local of the source, is part of the file's state.
-/

namespace EmulateComputer

def SEED_BLOCK_SIZE : Nat := SPARSE_BLOCK_SIZE

def SEED_BATCH_BYTES : Nat := 1024 * 1024

def MAX_SAFE_INTEGER : Nat := 2 ^ 53

class ImageIo (ι : Type) where
  sizeBytes : EStateM BlockError ι U64
  readAtExact : U64 → (n : Nat) → EStateM BlockError ι { buf : List U8 // buf.length = n }
  writeAtAll : U64 → List U8 → EStateM BlockError ι Unit
  truncateTo : U64 → EStateM BlockError ι Unit
  sync : EStateM BlockError ι Unit
  release : ι → ι
  takeImageIoFailure : ι → Option String × ι

def checkGeometry (logicalBytes : U64) : Except String Unit :=
  if logicalBytes.toNat = 0 ∨ logicalBytes.toNat % SEED_BLOCK_SIZE ≠ 0 then
    .error s!"{logicalBytes.toNat} is not a non-zero multiple of {SEED_BLOCK_SIZE}"
  else
    .ok ()

/-! ## The disk over a file -/

structure OpfsBackend (ι : Type) where
  io : ι
  logicalBytes : U64
  /-- The error of `SessionDiskStatus`, which the page takes. -/
  error : Option String

namespace OpfsBackend

variable {ι : Type} [ImageIo ι]

def «open» (io : ι) (logicalBytes : U64) : Except String (OpfsBackend ι) :=
  match checkGeometry logicalBytes with
  | .error why => .error s!"OPFS disk: {why}"
  | .ok () =>
    match ImageIo.sizeBytes io with
    | .error _ _ => .error "OPFS disk: cannot read image size"
    | .ok size io =>
      if size ≠ logicalBytes then
        .error s!"OPFS disk is {size.toNat} bytes, expected {logicalBytes.toNat}"
      else .ok { io, logicalBytes, error := none }

/-- `SessionDiskStatus::record`. -/
def record (operation : String) (b : OpfsBackend ι) : OpfsBackend ι :=
  let (failure, io) := ImageIo.takeImageIoFailure b.io
  let detail := failure.getD "I/O failed"
  { b with io, error := some s!"session disk {operation}: {detail}" }

/-- Run a file operation, recording its failure. -/
def through {α : Type} (operation : String) (x : EStateM BlockError ι α) :
    EStateM BlockError (OpfsBackend ι) α := fun b =>
  match x b.io with
  | .ok a io => .ok a { b with io }
  | .error e io => .error e ({ b with io }.record operation)

def readAt (sector : U64) (n : Nat) :
    EStateM BlockError (OpfsBackend ι) { buf : List U8 // buf.length = n } := fun b =>
  match MemBackend.checkedRange sector n b.logicalBytes.toNat with
  | none => .error .outOfRange (b.record "read outside image")
  | some offset => through "read failed" (ImageIo.readAtExact (BitVec.ofNat 64 offset) n) b

def writeAt (sector : U64) (buf : List U8) : EStateM BlockError (OpfsBackend ι) Unit := fun b =>
  match MemBackend.checkedRange sector buf.length b.logicalBytes.toNat with
  | none => .error .outOfRange (b.record "write outside image")
  | some offset => through "write failed" (ImageIo.writeAtAll (BitVec.ofNat 64 offset) buf) b

instance : BlockBackend (OpfsBackend ι) where
  capacitySectors b := b.logicalBytes / 512
  readAt := readAt
  writeAt := writeAt
  flush := through "flush failed" ImageIo.sync

end OpfsBackend

/-! ## The seeder -/

inductive SeedSink (ι : Type) (w : Nat)
  | image (io : ι) (batch : List U8) (batchStart : U64)
  | memory (backend : SparseMemBackend w)

/-- A seeding in progress; less than a block waits in `pending`. -/
structure DiskSeeder (ι : Type) (w : Nat) where
  sink : SeedSink ι w
  logicalBytes : U64
  consumed : U64
  pending : List U8
  nextBlock : U32
  pending_lt : pending.length < SEED_BLOCK_SIZE

namespace DiskSeeder

variable {ι : Type} {w : Nat}

def seedGeometry (logicalBytes : U64) : Except String Unit :=
  match checkGeometry logicalBytes with
  | .error why => .error s!"seed: {why}"
  | .ok () =>
    if 2 ^ 32 - 1 < logicalBytes.toNat / SEED_BLOCK_SIZE then
      .error s!"seed: {logicalBytes.toNat} is too large"
    else .ok ()

def start (sink : SeedSink ι w) (logicalBytes : U64) : DiskSeeder ι w :=
  { sink, logicalBytes, consumed := 0, pending := [], nextBlock := 0, pending_lt := by decide }

section Image

variable [ImageIo ι]

def beginImage (io : ι) (logicalBytes : U64) : Except String (DiskSeeder ι w) :=
  match seedGeometry logicalBytes with
  | .error why => .error why
  | .ok () =>
    match (do ImageIo.truncateTo 0; ImageIo.truncateTo logicalBytes :
        EStateM BlockError ι Unit) io with
    | .error _ _ => .error "seed: cannot size image"
    | .ok () io => .ok (start (.image io [] 0) logicalBytes)

def beginMemory (logicalBytes : U64) : Except String (DiskSeeder ι w) :=
  match seedGeometry logicalBytes with
  | .error why => .error why
  | .ok () =>
    match SparseMemBackend.new logicalBytes with
    | none => .error "seed: unusable in-memory disk size"
    | some backend => .ok (start (.memory backend) logicalBytes)

def flushBatch (offset : U64) : EStateM String (ι × List U8) Unit := fun (io, batch) =>
  if batch = [] then .ok () (io, batch)
  else
    match ImageIo.writeAtAll offset batch io with
    | .error _ io => .error s!"seed: write failed at byte {offset.toNat}" (io, batch)
    | .ok () io => .ok () (io, [])

/-- Pass a non-zero block on to the sink. -/
def emitTo (index : U32) (block : List U8) : EStateM String (SeedSink ι w) Unit := fun
  | .memory backend =>
    if h : block.length = SPARSE_BLOCK_SIZE then
      .ok () (.memory (backend.insertBlock index ⟨block, h⟩).2)
    else .error "seed: short block" (.memory backend)
  | .image io batch batchStart =>
    let offset : U64 := BitVec.ofNat 64 (index.toNat * SEED_BLOCK_SIZE)
    -- A gap before this block ends the batch.
    let flushed :=
      if batch ≠ [] ∧ batchStart + BitVec.ofNat 64 batch.length ≠ offset then
        flushBatch batchStart (io, batch)
      else .ok () (io, batch)
    match flushed with
    | .error why (io, batch) => .error why (.image io batch batchStart)
    | .ok () (io, batch) =>
      let batchStart := if batch = [] then offset else batchStart
      let batch := batch ++ block
      if SEED_BATCH_BYTES ≤ batch.length then
        match flushBatch batchStart (io, batch) with
        | .error why (io, batch) => .error why (.image io batch batchStart)
        | .ok () (io, batch) => .ok () (.image io batch batchStart)
      else .ok () (.image io batch batchStart)

def emit (block : List U8) : EStateM String (DiskSeeder ι w) Unit := fun s =>
  let blockIndex := s.nextBlock
  let s := { s with nextBlock := s.nextBlock + 1 }
  if isZero block then .ok () s
  else
    match emitTo blockIndex block s.sink with
    | .error why sink => .error why { s with sink }
    | .ok () sink => .ok () { s with sink }

def writeLoop : Nat → List U8 → EStateM String (DiskSeeder ι w) Unit
  | 0, _ => pure ()
  | fuel + 1, rest => fun s =>
    if rest = [] then .ok () s
    else if s.pending = [] ∧ SEED_BLOCK_SIZE ≤ rest.length then
      (do emit (rest.take SEED_BLOCK_SIZE); writeLoop fuel (rest.drop SEED_BLOCK_SIZE)) s
    else
      let count := min (SEED_BLOCK_SIZE - s.pending.length) rest.length
      let pending := s.pending ++ rest.take count
      if h : pending.length = SEED_BLOCK_SIZE then
        (do emit pending; writeLoop fuel (rest.drop count))
          { s with pending := [], pending_lt := by decide }
      else
        writeLoop fuel (rest.drop count)
          { s with
            pending
            pending_lt := by
              have := s.pending_lt
              simp only [pending, count, List.length_append, List.length_take] at h ⊢
              omega }

def write (chunk : List U8) : EStateM String (DiskSeeder ι w) Unit := fun s =>
  if 2 ^ 64 ≤ s.consumed.toNat + chunk.length then .error "seed: image size overflowed" s
  else
    let s := { s with consumed := s.consumed + BitVec.ofNat 64 chunk.length }
    if s.logicalBytes < s.consumed then
      .error s!"seed: image exceeds {s.logicalBytes.toNat} bytes" s
    else writeLoop chunk.length chunk s

/-- The in-memory disk, or `none` with the file closed. -/
def finish : EStateM String (DiskSeeder ι w) (Option (SparseMemBackend w)) := fun s =>
  if s.consumed ≠ s.logicalBytes then
    .error s!"seed: received {s.consumed.toNat} of {s.logicalBytes.toNat} bytes" s
  else
    match s.sink with
    | .memory backend => .ok (some backend) s
    | .image io batch batchStart =>
      match flushBatch batchStart (io, batch) with
      | .error why (io, batch) => .error why { s with sink := .image io batch batchStart }
      | .ok () (io, batch) =>
        match ImageIo.sync io with
        | .error _ io => .error "seed: flush failed" { s with sink := .image io batch batchStart }
        | .ok () io =>
          .ok none { s with sink := .image (ImageIo.release io) batch batchStart }

end Image

end DiskSeeder

end EmulateComputer
