import EmulateComputer.Disk.Seeder

/-!
# SeedImage — a seeded disk reads back as its image

However an image is cut into chunks, the seeder leaves a disk with the image's bytes.  The argument
has three layers:

* `FileLaws` says what is assumed of the file: its operations succeed, a truncated file reads as
  zeros and a write stores exactly its bytes.
* `FileHolds` and `MemoryHolds` say that a sink holds the blocks passed on so far, zeros after them.
  For the file this counts the batch that is still to be written.
* `Seeding` adds the bytes that wait for the rest of their block, and is the invariant of the loop
  that cuts a chunk up.

Read back through a `usize` of `w` bits, the in-memory disk shows the byte at each offset modulo
`2 ^ w`, so the two agree with the image exactly when the image does not change under that.
-/

namespace EmulateComputer

/-! ## The file -/

/-- What is assumed of the file under a disk. -/
structure FileLaws (ι : Type) [ImageIo ι] where
  size : ι → Nat
  /-- The contents, zero beyond the end. -/
  bytes : ι → Nat → U8
  /-- The writes made so far. -/
  writes : ι → List (Nat × List U8)
  bytes_of_size_le : ∀ {io i}, size io ≤ i → bytes io i = 0
  sizeBytes_ok : ∀ io, size io ≤ MAX_SAFE_INTEGER →
    ∃ io', ImageIo.sizeBytes io = .ok (BitVec.ofNat 64 (size io)) io' ∧
      size io' = size io ∧ bytes io' = bytes io
  readAtExact_ok : ∀ io (offset : U64) (n : Nat), offset.toNat ≤ MAX_SAFE_INTEGER →
    offset.toNat + n ≤ size io →
    ∃ buf io', ImageIo.readAtExact offset n io = .ok buf io' ∧
      buf.1 = Bytes.slice (bytes io) offset.toNat n
  writeAtAll_ok : ∀ io (offset : U64) (buf : List U8), offset.toNat ≤ MAX_SAFE_INTEGER →
    offset.toNat + buf.length ≤ size io →
    ∃ io', ImageIo.writeAtAll offset buf io = .ok () io' ∧ size io' = size io ∧
      bytes io' = Bytes.splice (bytes io) offset.toNat buf ∧
      writes io' = writes io ++ [(offset.toNat, buf)]
  truncateTo_ok : ∀ io (n : U64), n.toNat ≤ MAX_SAFE_INTEGER →
    ∃ io', ImageIo.truncateTo n io = .ok () io' ∧ size io' = n.toNat ∧
      (∀ i, bytes io' i = if i < n.toNat then bytes io i else 0) ∧ writes io' = writes io
  sync_ok : ∀ io, ∃ io', ImageIo.sync io = .ok () io' ∧ size io' = size io ∧
    bytes io' = bytes io ∧ writes io' = writes io
  release_size : ∀ io, size (ImageIo.release io) = size io
  release_bytes : ∀ io, bytes (ImageIo.release io) = bytes io
  release_writes : ∀ io, writes (ImageIo.release io) = writes io

/-- A run of whole blocks, none of them all zero. -/
def Solid (bytes : List U8) : Prop :=
  ∃ blocks : List Block, bytes = (blocks.map Subtype.val).flatten ∧
    ∀ block ∈ blocks, isZero block.1 = false

theorem solid_nil : Solid [] :=
  ⟨[], rfl, nofun⟩

theorem Solid.append {bytes block : List U8} (h : Solid bytes)
    (hlength : block.length = SPARSE_BLOCK_SIZE) (hzero : isZero block = false) :
    Solid (bytes ++ block) := by
  obtain ⟨blocks, rfl, hblocks⟩ := h
  refine ⟨blocks ++ [⟨block, hlength⟩], by simp, fun b hb => ?_⟩
  rcases List.mem_append.1 hb with hb | hb
  · exact hblocks b hb
  · rw [List.mem_singleton.1 hb]
    exact hzero

namespace DiskSeeder

/-- The sizes a disk may have. -/
structure Geometry (logical : Nat) : Prop where
  pos : logical ≠ 0
  blocks : logical % SEED_BLOCK_SIZE = 0
  count : logical / SEED_BLOCK_SIZE ≤ 2 ^ 32 - 1

variable {logical : Nat} {target : Target} {index : U32}

theorem Geometry.lt (h : Geometry logical) : logical < 2 ^ 44 := by
  have hcount := h.count
  unfold SEED_BLOCK_SIZE SPARSE_BLOCK_SIZE at hcount
  omega

theorem Geometry.le_safe (h : Geometry logical) : logical ≤ MAX_SAFE_INTEGER := by
  have hlt := h.lt
  unfold MAX_SAFE_INTEGER
  omega

theorem toNat_add_ofNat {a : U64} {n : Nat} (h : a.toNat + n < 2 ^ 64) :
    (a + BitVec.ofNat 64 n).toNat = a.toNat + n := by
  rw [BitVec.toNat_add, BitVec.toNat_ofNat, Nat.mod_eq_of_lt (a := n) (by omega),
    Nat.mod_eq_of_lt h]

theorem Geometry.toNat_ofNat (h : Geometry logical) {n : Nat} (hn : n ≤ logical) :
    (BitVec.ofNat 64 n).toNat = n := by
  have hlt := h.lt
  rw [BitVec.toNat_ofNat, Nat.mod_eq_of_lt (by omega)]

theorem checkGeometry_ok (h : Geometry logical) :
    checkGeometry (BitVec.ofNat 64 logical) = .ok () := by
  unfold checkGeometry
  rw [h.toNat_ofNat le_rfl, if_neg (by simp [h.pos, h.blocks])]

theorem seedGeometry_ok (h : Geometry logical) :
    seedGeometry (BitVec.ofNat 64 logical) = .ok () := by
  unfold seedGeometry
  simp only [checkGeometry_ok h, h.toNat_ofNat le_rfl]
  rw [if_neg (by have := h.count; omega)]

/-! ## The sinks -/

section Sinks

variable {ι : Type} {w : Nat} [ImageIo ι] (laws : FileLaws ι) (io₀ : ι) (logical : Nat)

/-- The file, once the batch is written, holds the blocks in `fed` and zeros. -/
structure FileHolds (fed : List U8) (io : ι) (batch : List U8) (batchStart : U64) : Prop where
  size : laws.size io = logical
  bytes : Bytes.splice (laws.bytes io) batchStart.toNat batch = Bytes.padded fed
  inside : batch ≠ [] → batchStart.toNat + batch.length ≤ fed.length
  solid : Solid batch
  writes : ∃ made, laws.writes io = laws.writes io₀ ++ made ∧ ∀ write ∈ made, Solid write.2

/-- The in-memory disk holds the blocks in `fed` and zeros. -/
structure MemoryHolds (fed : List U8) (backend : SparseMemBackend w) : Prop where
  size : backend.logicalBytes.toNat = logical
  bytes : ∀ i, i < logical → backend.byteAt i = Bytes.padded fed i

inductive Target
  | file
  | memory

/-- The sink is of the right kind and holds the blocks in `fed`. -/
def Holds (target : Target) (fed : List U8) (sink : SeedSink ι w) : Prop :=
  match target, sink with
  | .file, .image io batch batchStart => FileHolds laws io₀ logical fed io batch batchStart
  | .memory, .memory backend => MemoryHolds logical fed backend
  | _, _ => False

variable {laws io₀ logical} {fed batch block : List U8} {io : ι} {batchStart : U64}

section

variable (h : FileHolds laws io₀ logical fed io batch batchStart)

include h

/-- Writing the batch out changes nothing in what the file is to hold. -/
theorem FileHolds.flush (hfed : fed.length ≤ logical) (hgeometry : Geometry logical) (next : U64) :
    ∃ io', flushBatch batchStart (io, batch) = .ok () (io', []) ∧
      FileHolds laws io₀ logical fed io' [] next := by
  by_cases hbatch : batch = []
  · subst hbatch
    refine ⟨io, by simp only [flushBatch, if_true], h.size, ?_, nofun, solid_nil, h.writes⟩
    have := h.bytes
    rwa [Bytes.splice_nil] at this ⊢
  · have hinside := h.inside hbatch
    obtain ⟨io', hwrite, hsize, hbytes, hwrites⟩ := laws.writeAtAll_ok io batchStart batch
      (le_trans (by omega) hgeometry.le_safe) (by rw [h.size]; omega)
    refine ⟨io', by simp only [flushBatch, if_neg hbatch, hwrite], hsize.trans h.size, ?_, nofun,
      solid_nil, ?_⟩
    · rw [Bytes.splice_nil, hbytes, h.bytes]
    · obtain ⟨made, hmade, hsolid⟩ := h.writes
      refine ⟨made ++ [(batchStart.toNat, batch)], ?_, fun write hmem => ?_⟩
      · rw [hwrites, hmade, List.append_assoc]
      · rcases List.mem_append.1 hmem with hmem | hmem
        · exact hsolid write hmem
        · rw [List.mem_singleton.1 hmem]
          exact h.solid

/-- Appending a block to a batch that ends where the block starts. -/
theorem FileHolds.append (hnext : batchStart.toNat + batch.length = fed.length)
    (hlength : block.length = SPARSE_BLOCK_SIZE) (hzero : isZero block = false) :
    FileHolds laws io₀ logical (fed ++ block) io (batch ++ block) batchStart :=
  { h with
    bytes := by rw [Bytes.splice_append, h.bytes, hnext, Bytes.splice_padded]
    inside := fun _ => by
      rw [List.length_append, List.length_append]
      omega
    solid := h.solid.append hlength hzero }

/-- A block passed on to the file. -/
theorem FileHolds.emitTo (hgeometry : Geometry logical)
    (hindex : index.toNat * SEED_BLOCK_SIZE = fed.length)
    (hlength : block.length = SPARSE_BLOCK_SIZE) (hroom : fed.length + block.length ≤ logical)
    (hzero : isZero block = false) :
    ∃ sink, DiskSeeder.emitTo index block (.image io batch batchStart : SeedSink ι w) =
        .ok () sink ∧ Holds laws io₀ logical .file (fed ++ block) sink := by
  have hoffset : (BitVec.ofNat 64 (index.toNat * SEED_BLOCK_SIZE)).toNat = fed.length := by
    rw [hindex, hgeometry.toNat_ofNat (by omega)]
  generalize hstart : BitVec.ofNat 64 (index.toNat * SEED_BLOCK_SIZE) = offset at hoffset
  -- After the first flush the batch is empty or ends where the block starts.
  obtain ⟨io₁, batch₁, hflushed, hholds, hends⟩ :
      ∃ io₁ batch₁,
        (if batch ≠ [] ∧ batchStart + BitVec.ofNat 64 batch.length ≠ offset then
          flushBatch batchStart (io, batch) else .ok () (io, batch)) = .ok () (io₁, batch₁) ∧
        FileHolds laws io₀ logical fed io₁ batch₁
          (if batch₁ = [] then offset else batchStart) ∧
        (if batch₁ = [] then offset else batchStart).toNat + batch₁.length = fed.length := by
    by_cases hbatch : batch = []
    · subst hbatch
      have hbytes := h.bytes
      refine ⟨io, [], by simp, ⟨h.size, ?_, nofun, solid_nil, h.writes⟩, by simp [hoffset]⟩
      rwa [Bytes.splice_nil] at hbytes ⊢
    · have hinside := h.inside hbatch
      by_cases hends : batchStart + BitVec.ofNat 64 batch.length = offset
      · refine ⟨io, batch, if_neg fun hgap => hgap.2 hends, by rwa [if_neg hbatch], ?_⟩
        rw [if_neg hbatch, ← hoffset, ← hends, toNat_add_ofNat (by omega)]
      · obtain ⟨io', hflush, hholds⟩ := h.flush (by omega) hgeometry offset
        exact ⟨io', [], by rw [if_pos ⟨hbatch, hends⟩, hflush], by rwa [if_pos rfl],
          by rw [if_pos rfl, hoffset]; rfl⟩
  generalize hbatchStart : (if batch₁ = [] then offset else batchStart) = batchStart₁
    at hholds hends
  have happend := hholds.append hends hlength hzero
  unfold DiskSeeder.emitTo
  simp only [hstart, hflushed, hbatchStart]
  split
  · obtain ⟨io₂, hflush, hfull⟩ := happend.flush (by rwa [List.length_append]) hgeometry batchStart₁
    exact ⟨.image io₂ [] batchStart₁, by simp only [hflush], hfull⟩
  · exact ⟨_, rfl, happend⟩

end

/-- A block passed on to the in-memory disk. -/
theorem MemoryHolds.emitTo {backend : SparseMemBackend w} (h : MemoryHolds logical fed backend)
    (hgeometry : Geometry logical) (hindex : index.toNat * SEED_BLOCK_SIZE = fed.length)
    (hlength : block.length = SPARSE_BLOCK_SIZE) (hroom : fed.length + block.length ≤ logical) :
    ∃ sink, DiskSeeder.emitTo index block (.memory backend : SeedSink ι w) = .ok () sink ∧
      Holds laws io₀ logical .memory (fed ++ block) sink := by
  have hlt := hgeometry.lt
  have hinside : ¬ backend.logicalBytes.toNat / SPARSE_BLOCK_SIZE ≤ index.toNat := by
    rw [h.size]
    unfold SEED_BLOCK_SIZE SPARSE_BLOCK_SIZE at *
    omega
  have hinsert : (backend.insertBlock index ⟨block, hlength⟩).2 =
      backend.store index ⟨block, hlength⟩ := by
    unfold SparseMemBackend.insertBlock
    rw [if_neg hinside]
  refine ⟨.memory (backend.store index ⟨block, hlength⟩), ?_, ?_, fun i hi => ?_⟩
  · unfold DiskSeeder.emitTo
    simp only [dif_pos hlength, hinsert]
  · rw [SparseMemBackend.logicalBytes_store, h.size]
  · rw [SparseMemBackend.byteAt_store _ _ _ (hi.trans hlt), ← Bytes.splice_padded, ← hindex]
    unfold Bytes.splice
    rw [h.bytes i hi]
    rfl

/-- A zero block is not passed on, and reads as zeros all the same. -/
theorem Holds.append_zeros {zeros : List U8} {sink : SeedSink ι w}
    (h : Holds laws io₀ logical target fed sink) (hzero : isZero zeros = true) :
    Holds laws io₀ logical target (fed ++ zeros) sink := by
  have hpadded := Bytes.padded_append_zeros fed (isZero_iff.1 hzero)
  cases target <;> cases sink
  case file.image io batch batchStart =>
    refine ⟨h.size, by rw [hpadded, h.bytes], fun hbatch => ?_, h.solid, h.writes⟩
    have := h.inside hbatch
    rw [List.length_append]
    omega
  case memory.memory backend => exact ⟨h.size, fun i hi => by rw [hpadded, h.bytes i hi]⟩
  all_goals exact h.elim

end Sinks

/-! ## Cutting chunks into blocks -/

section Chunks

variable {ι : Type} {w : Nat} [ImageIo ι] (laws : FileLaws ι) (io₀ : ι) (logical : Nat)
variable (target : Target)

/-- The bytes fed so far: whole blocks in the sink, the rest in `pending`. -/
structure Seeding (fed : List U8) (s : DiskSeeder ι w) : Prop where
  logicalBytes : s.logicalBytes.toNat = logical
  split : ∃ whole, fed = whole ++ s.pending ∧
    s.nextBlock.toNat * SEED_BLOCK_SIZE = whole.length ∧ Holds laws io₀ logical target whole s.sink

/-- What the loop of `write` leaves alone. -/
def KeepsCount (s s' : DiskSeeder ι w) : Prop :=
  s'.logicalBytes = s.logicalBytes ∧ s'.consumed = s.consumed

variable {laws io₀ logical target}

theorem emit_ok {whole block : List U8} {s : DiskSeeder ι w} (hgeometry : Geometry logical)
    (hsink : Holds laws io₀ logical target whole s.sink)
    (hindex : s.nextBlock.toNat * SEED_BLOCK_SIZE = whole.length)
    (hlength : block.length = SEED_BLOCK_SIZE) (hroom : whole.length + block.length ≤ logical) :
    ∃ s', emit block s = .ok () s' ∧ Holds laws io₀ logical target (whole ++ block) s'.sink ∧
      s'.nextBlock.toNat * SEED_BLOCK_SIZE = (whole ++ block).length ∧ s'.pending = s.pending ∧
      KeepsCount s s' := by
  have hnext : (s.nextBlock + 1).toNat * SEED_BLOCK_SIZE = (whole ++ block).length := by
    have hcount := hgeometry.count
    rw [List.length_append, ← hindex, hlength, BitVec.toNat_add, Nat.mod_eq_of_lt, Nat.add_mul]
    · rfl
    · change s.nextBlock.toNat + 1 < 2 ^ 32
      unfold SEED_BLOCK_SIZE SPARSE_BLOCK_SIZE at *
      omega
  unfold emit
  by_cases hzero : isZero block = true
  · exact ⟨{ s with nextBlock := s.nextBlock + 1 }, by rw [if_pos hzero],
      hsink.append_zeros hzero, hnext, rfl, rfl, rfl⟩
  · have hsome : isZero block = false := Bool.eq_false_iff.2 hzero
    obtain ⟨sink, hemit, hholds⟩ : ∃ sink, emitTo s.nextBlock block s.sink = .ok () sink ∧
        Holds laws io₀ logical target (whole ++ block) sink := by
      cases target <;> cases hs : s.sink <;> rw [hs] at hsink
      case file.image => exact FileHolds.emitTo hsink hgeometry hindex hlength hroom hsome
      case memory.memory => exact MemoryHolds.emitTo hsink hgeometry hindex hlength hroom
      all_goals exact hsink.elim
    refine ⟨{ s with nextBlock := s.nextBlock + 1, sink }, ?_, hholds, hnext, rfl, rfl, rfl⟩
    rw [if_neg hzero]
    simp only [hemit]

/-- The loop takes in all of its chunk. -/
theorem writeLoop_ok (hgeometry : Geometry logical) (fuel : Nat) (rest : List U8)
    (hfuel : rest.length ≤ fuel) (fed : List U8) (s : DiskSeeder ι w)
    (hs : Seeding laws io₀ logical target fed s) (hroom : fed.length + rest.length ≤ logical) :
    ∃ s', writeLoop fuel rest s = .ok () s' ∧ Seeding laws io₀ logical target (fed ++ rest) s' ∧
      KeepsCount s s' := by
  induction fuel generalizing rest fed s with
  | zero =>
    obtain rfl : rest = [] := List.length_eq_zero_iff.1 (Nat.le_zero.1 hfuel)
    exact ⟨s, rfl, by rwa [List.append_nil], rfl, rfl⟩
  | succ fuel ih =>
    unfold writeLoop
    by_cases hrest : rest = []
    · subst hrest
      exact ⟨s, by simp only [if_true], by rwa [List.append_nil], rfl, rfl⟩
    have hpos : 0 < rest.length := List.length_pos_iff.2 hrest
    have hpending := s.pending_lt
    obtain ⟨whole, rfl, hindex, hsink⟩ := hs.split
    rw [List.length_append] at hroom
    simp only [if_neg hrest]
    -- Once part of the chunk is in, the loop takes in the rest.
    have hgo : ∀ (count : Nat) (s₁ : DiskSeeder ι w), 0 < count → count ≤ rest.length →
        Seeding laws io₀ logical target (whole ++ s.pending ++ rest.take count) s₁ →
        KeepsCount s s₁ → ∃ s', writeLoop fuel (rest.drop count) s₁ = .ok () s' ∧
          Seeding laws io₀ logical target (whole ++ s.pending ++ rest) s' ∧ KeepsCount s s' := by
      intro count s₁ hcount hle hs₁ hkept
      obtain ⟨s₂, hloop, hs₂, hkept₂⟩ := ih (rest.drop count) (by rw [List.length_drop]; omega) _ s₁
        hs₁ (by simp only [List.length_append, List.length_drop, List.length_take]; omega)
      rw [List.append_assoc, List.take_append_drop] at hs₂
      exact ⟨s₂, hloop, hs₂, hkept₂.1.trans hkept.1, hkept₂.2.trans hkept.2⟩
    by_cases hwhole : s.pending = [] ∧ SEED_BLOCK_SIZE ≤ rest.length
    · -- A whole block goes straight to the sink.
      have hlength : (rest.take SEED_BLOCK_SIZE).length = SEED_BLOCK_SIZE :=
        List.length_take_of_le hwhole.2
      obtain ⟨s₁, hemit, hholds, hnext, hsame, hkept⟩ :=
        emit_ok hgeometry hsink hindex hlength (by omega)
      rw [if_pos hwhole, Effect.run_bind_ok hemit]
      refine hgo _ s₁ (by decide) hwhole.2 ⟨by rw [hkept.1, hs.logicalBytes], _, ?_, hnext, hholds⟩
        hkept
      rw [hsame, hwhole.1, List.append_nil, List.append_nil]
    · rw [if_neg hwhole]
      set count := min (SEED_BLOCK_SIZE - s.pending.length) rest.length with hcount
      have htake : (rest.take count).length = count := List.length_take_of_le (by omega)
      by_cases hfull : (s.pending ++ rest.take count).length = SEED_BLOCK_SIZE
      · -- The waiting bytes become a block.
        have hfull' : s.pending.length + count = SEED_BLOCK_SIZE := by
          rw [List.length_append, htake] at hfull
          exact hfull
        obtain ⟨s₁, hemit, hholds, hnext, hsame, hkept⟩ :=
          emit_ok (s := { s with pending := [], pending_lt := by decide }) hgeometry hsink hindex
            hfull (by rw [hfull]; omega)
        rw [dif_pos hfull, Effect.run_bind_ok hemit]
        refine hgo _ s₁ (by omega) (by omega)
          ⟨by rw [hkept.1, hs.logicalBytes], _, ?_, hnext, hholds⟩ hkept
        rw [hsame, List.append_nil, List.append_assoc]
      · -- The chunk ends inside a block.
        rw [dif_neg hfull]
        exact hgo _ _ (by omega) (by omega)
          ⟨hs.logicalBytes, whole, List.append_assoc _ _ _, hindex, hsink⟩ ⟨rfl, rfl⟩

end Chunks

/-! ## Whole runs -/

section Runs

variable {ι : Type} {w : Nat} [ImageIo ι] {laws : FileLaws ι} {io₀ : ι}

def feedAll : List (List U8) → EStateM String (DiskSeeder ι w) Unit
  | [] => pure ()
  | chunk :: chunks => do write chunk; feedAll chunks

def feed (chunks : List (List U8)) (s : DiskSeeder ι w) : DiskSeeder ι w :=
  chunks.foldl (fun s chunk => (write chunk s).state) s

/-- A slice is at most `isize::MAX` bytes long. -/
def Slices (w : Nat) (chunks : List (List U8)) : Prop :=
  ∀ chunk ∈ chunks, chunk.length < 2 ^ (w - 1)

/-- `fed` has arrived and is accounted for. -/
structure Fed (laws : FileLaws ι) (io₀ : ι) (logical : Nat) (target : Target) (fed : List U8)
    (s : DiskSeeder ι w) : Prop extends Seeding laws io₀ logical target fed s where
  consumed : s.consumed.toNat = fed.length
  fits : fed.length ≤ logical

/-- More has arrived than the image holds. -/
def Over (s : DiskSeeder ι w) : Prop :=
  s.logicalBytes.toNat < s.consumed.toNat

variable {s : DiskSeeder ι w} {fed chunk : List U8}

theorem Over.write (hs : Over s) : Over (write chunk s).state := by
  unfold Over at hs
  unfold DiskSeeder.write
  split
  · exact hs
  · next hsmall =>
    have hover : s.logicalBytes.toNat < (s.consumed + BitVec.ofNat 64 chunk.length).toNat := by
      rw [toNat_add_ofNat (by omega)]
      omega
    rw [if_pos (BitVec.lt_def.2 hover)]
    exact hover

theorem finish_error (h : s.consumed.toNat ≠ s.logicalBytes.toNat) :
    ∃ why, finish s = .error why s := by
  unfold finish
  rw [if_pos fun heq => h (by rw [heq])]
  exact ⟨_, rfl⟩

theorem Fed.consumed_eq (hs : Fed laws io₀ logical target fed s) (hall : fed.length = logical) :
    s.consumed = s.logicalBytes :=
  BitVec.eq_of_toNat_eq (by rw [hs.consumed, hs.logicalBytes, hall])

variable (hgeometry : Geometry logical)

include hgeometry

theorem Fed.consumed_add (hs : Fed laws io₀ logical target fed s)
    (chunk : List U8) (hchunk : chunk.length < 2 ^ 63) :
    (s.consumed + BitVec.ofNat 64 chunk.length).toNat = fed.length + chunk.length := by
  have hlt := hgeometry.lt
  have hfits := hs.fits
  rw [toNat_add_ofNat (by rw [hs.consumed]; omega), hs.consumed]

theorem write_ok (chunk : List U8)
    (hs : Fed laws io₀ logical target fed s) (hroom : fed.length + chunk.length ≤ logical) :
    ∃ s', write chunk s = .ok () s' ∧ Fed laws io₀ logical target (fed ++ chunk) s' := by
  have hlt := hgeometry.lt
  have hsum := hs.consumed_add hgeometry chunk (by omega)
  have hseeding : Seeding laws io₀ logical target fed
      { s with consumed := s.consumed + BitVec.ofNat 64 chunk.length } :=
    ⟨hs.logicalBytes, hs.split⟩
  obtain ⟨s', hloop, hs', hkept⟩ :=
    writeLoop_ok hgeometry chunk.length chunk le_rfl fed _ hseeding hroom
  refine ⟨s', ?_, hs', by rw [hkept.2, List.length_append]; exact hsum, by rwa [List.length_append]⟩
  unfold write
  rw [if_neg (by rw [hs.consumed]; omega)]
  rw [if_neg, hloop]
  rw [BitVec.lt_def, hsum, hs.logicalBytes]
  omega

/-- A chunk that goes past the end is refused and counted. -/
theorem over_write_of_lt (hs : Fed laws io₀ logical target fed s) (hchunk : chunk.length < 2 ^ 63)
    (hroom : logical < fed.length + chunk.length) : Over (write chunk s).state := by
  have hsum := hs.consumed_add hgeometry chunk hchunk
  unfold write
  rw [if_neg (by rw [hs.consumed]; omega)]
  rw [if_pos (by rw [BitVec.lt_def, hsum, hs.logicalBytes]; exact hroom)]
  change s.logicalBytes.toNat < (s.consumed + BitVec.ofNat 64 chunk.length).toNat
  rw [hsum, hs.logicalBytes]
  exact hroom

theorem feedAll_ok (chunks : List (List U8)) (hs : Fed laws io₀ logical target fed s)
    (hroom : fed.length + chunks.flatten.length ≤ logical) :
    ∃ s', feedAll chunks s = .ok () s' ∧
      Fed laws io₀ logical target (fed ++ chunks.flatten) s' := by
  induction chunks generalizing fed s with
  | nil => exact ⟨s, rfl, by rwa [List.flatten_nil, List.append_nil]⟩
  | cons chunk chunks ih =>
    rw [List.flatten_cons, List.length_append] at hroom
    obtain ⟨s₁, hwrite, hs₁⟩ := write_ok hgeometry chunk hs (by omega)
    obtain ⟨s₂, hrest, hs₂⟩ := ih hs₁ (by rw [List.length_append]; omega)
    refine ⟨s₂, ?_, by rwa [List.flatten_cons, ← List.append_assoc]⟩
    unfold feedAll
    rw [Effect.run_bind_ok hwrite, hrest]

/-- Feeding either keeps the account or goes past the end for good. -/
theorem feed_cases (chunks : List (List U8))
    (hslices : ∀ chunk ∈ chunks, chunk.length < 2 ^ 63) (hs : Fed laws io₀ logical target fed s) :
    Fed laws io₀ logical target (fed ++ chunks.flatten) (feed chunks s) ∨
      logical < fed.length + chunks.flatten.length ∧ Over (feed chunks s) := by
  have hover : ∀ (rest : List (List U8)) (t : DiskSeeder ι w), Over t → Over (feed rest t) := by
    intro rest
    induction rest with
    | nil => exact fun _ ht => ht
    | cons chunk rest ih => exact fun t ht => ih _ ht.write
  induction chunks generalizing fed s with
  | nil => exact .inl (by rwa [List.flatten_nil, List.append_nil])
  | cons chunk chunks ih =>
    have hchunk := hslices chunk List.mem_cons_self
    rw [List.flatten_cons, List.length_append]
    rcases Nat.lt_or_ge logical (fed.length + chunk.length) with hlt | hge
    · exact .inr ⟨by omega, hover chunks _ (over_write_of_lt hgeometry hs hchunk hlt)⟩
    · obtain ⟨s₁, hwrite, hs₁⟩ := write_ok hgeometry chunk hs hge
      have hstep : feed (chunk :: chunks) s = feed chunks s₁ := by
        unfold feed
        rw [List.foldl_cons, hwrite, EStateM.Result.state_ok]
      rw [hstep, ← List.append_assoc]
      rcases ih (fun c hc => hslices c (List.mem_cons_of_mem _ hc)) hs₁ with h | ⟨h, hs₂⟩
      · exact .inl h
      · rw [List.length_append] at h
        exact .inr ⟨by omega, hs₂⟩

/-! ### Finishing -/

/-- With the whole image fed nothing waits for the rest of a block. -/
theorem Fed.holds (hs : Fed laws io₀ logical target fed s)
    (hall : fed.length = logical) : Holds laws io₀ logical target fed s.sink := by
  obtain ⟨whole, hsplit, hindex, hsink⟩ := hs.split
  have hpending := s.pending_lt
  have hlength : fed.length = whole.length + s.pending.length := by
    rw [hsplit, List.length_append]
  have hblocks := hgeometry.blocks
  have hnone : s.pending = [] := by
    apply List.length_eq_zero_iff.1
    unfold SEED_BLOCK_SIZE SPARSE_BLOCK_SIZE at *
    omega
  rw [hsplit, hnone, List.append_nil]
  exact hsink

theorem Fed.finish_memory (hs : Fed laws io₀ logical .memory fed s) (hall : fed.length = logical) :
    ∃ disk, finish s = .ok (some disk) s ∧ MemoryHolds logical fed disk := by
  have hholds := hs.holds hgeometry hall
  cases hsink : s.sink with
  | image => rw [hsink] at hholds; exact hholds.elim
  | memory disk =>
    rw [hsink] at hholds
    refine ⟨disk, ?_, hholds⟩
    unfold finish
    rw [if_neg (not_not_intro (hs.consumed_eq hall))]
    simp only [hsink]

theorem Fed.finish_file (hs : Fed laws io₀ logical .file fed s) (hall : fed.length = logical) :
    ∃ io' batchStart s', finish s = .ok none s' ∧ s'.sink = .image io' [] batchStart ∧
      laws.size io' = logical ∧ laws.bytes io' = Bytes.padded fed ∧
      ∃ made, laws.writes io' = laws.writes io₀ ++ made ∧ ∀ write ∈ made, Solid write.2 := by
  have hholds := hs.holds hgeometry hall
  cases hsink : s.sink with
  | memory => rw [hsink] at hholds; exact hholds.elim
  | image io batch batchStart =>
    rw [hsink] at hholds
    obtain ⟨io₁, hflush, hflushed⟩ := FileHolds.flush hholds hall.le hgeometry batchStart
    obtain ⟨io₂, hsync, hsize, hbytes, hwrites⟩ := laws.sync_ok io₁
    refine ⟨ImageIo.release io₂, batchStart,
      { s with sink := .image (ImageIo.release io₂) [] batchStart }, ?_, rfl, ?_, ?_, ?_⟩
    · unfold finish
      rw [if_neg (not_not_intro (hs.consumed_eq hall))]
      simp only [hsink, hflush, hsync]
    · rw [laws.release_size, hsize, hflushed.size]
    · rw [laws.release_bytes, hbytes, ← hflushed.bytes, Bytes.splice_nil]
    · obtain ⟨made, hmade, hsolid⟩ := hflushed.writes
      exact ⟨made, by rw [laws.release_writes, hwrites, hmade], hsolid⟩

/-- Finishing succeeds once exactly the image has been fed. -/
theorem Fed.finish_ok (hs : Fed laws io₀ logical target fed s)
    (hall : fed.length = logical) : ∃ disk s', finish s = .ok disk s' := by
  cases target with
  | file =>
    obtain ⟨_, _, s', hfinish, _⟩ := hs.finish_file hgeometry hall
    exact ⟨none, s', hfinish⟩
  | memory =>
    obtain ⟨disk, hfinish, _⟩ := hs.finish_memory hgeometry hall
    exact ⟨some disk, s, hfinish⟩

end Runs

/-! ## Reading the disk back -/

/-- Every read inside the disk returns the image's bytes. -/
def ReadsBack {β : Type} [BlockBackend β] (disk : β) (image : List U8) : Prop :=
  ∀ (sector : U64) (n : Nat), sector.toNat * 512 + n ≤ image.length →
    ∃ buf disk', BlockBackend.readAt sector n disk = .ok buf disk' ∧
      buf.1 = (image.drop (sector.toNat * 512)).take n

section ReadBack

variable {ι : Type} {w : Nat} [ImageIo ι] (laws : FileLaws ι) (io : ι) (image : List U8)

def declared (image : List U8) : U64 :=
  BitVec.ofNat 64 image.length

/-- The chunks seed a file that reads back as the image and was written without zero blocks. -/
def SeedsFile (w : Nat) (chunks : List (List U8)) : Prop :=
  ∃ (s s₁ s₂ : DiskSeeder ι w) (io' : ι) (batch : List U8) (batchStart : U64)
    (disk : OpfsBackend ι),
    beginImage io (declared image) = .ok s ∧ feedAll chunks s = .ok () s₁ ∧
      finish s₁ = .ok none s₂ ∧ s₂.sink = .image io' batch batchStart ∧
      OpfsBackend.open io' (declared image) = .ok disk ∧ ReadsBack disk image ∧
      ∃ made, laws.writes io' = laws.writes io ++ made ∧ ∀ write ∈ made, Solid write.2

/-- The chunks seed an in-memory disk that reads back as the image and stores no zero block. -/
def SeedsMemory (ι : Type) [ImageIo ι] (image : List U8) (w : Nat) (chunks : List (List U8)) :
    Prop :=
  ∃ (s s₁ s₂ : DiskSeeder ι w) (disk : SparseMemBackend w),
    beginMemory (declared image) = .ok s ∧ feedAll chunks s = .ok () s₁ ∧
      finish s₁ = .ok (some disk) s₂ ∧ ReadsBack disk image ∧
      ∀ index : U32, index.toNat * SEED_BLOCK_SIZE < image.length →
        (disk.blocks.lookup index = none ↔
          isZero ((image.drop (index.toNat * SEED_BLOCK_SIZE)).take SEED_BLOCK_SIZE))

/-- Finishing fails exactly when the chunks do not have the declared number of bytes. -/
def CountsBytes (s : DiskSeeder ι w) (chunks : List (List U8)) : Prop :=
  (∃ why s', finish (feed chunks s) = .error why s') ↔ chunks.flatten.length ≠ image.length

/-- Both targets are seeded faithfully, however the image is cut up. -/
structure SeedsExactly (w : Nat) : Prop where
  file : ∀ chunks, Slices w chunks → chunks.flatten = image → SeedsFile laws io image w chunks
  memory : ∀ chunks, Slices w chunks → chunks.flatten = image →
    SeedsMemory ι image w chunks
  fileCounts : ∀ chunks, Slices w chunks → ∃ s : DiskSeeder ι w,
    beginImage io (declared image) = .ok s ∧ CountsBytes image s chunks
  memoryCounts : ∀ chunks, Slices w chunks → ∃ s : DiskSeeder ι w,
    beginMemory (declared image) = .ok s ∧ CountsBytes image s chunks

variable {laws io image}

/-- The image looks the same when its offsets are cut to `w` bits. -/
def FitsUsize (w : Nat) (image : List U8) : Prop :=
  ∀ i, i < image.length → image[i % 2 ^ w]? = image[i]?

theorem padded_eq_iff {i j : Nat} (hi : i < image.length) (hj : j < image.length) :
    Bytes.padded image i = Bytes.padded image j ↔ image[i]? = image[j]? := by
  unfold Bytes.padded
  rw [List.getElem?_eq_getElem hi, List.getElem?_eq_getElem hj, Option.getD_some, Option.getD_some,
    Option.some_inj]

/-- One byte at a time is a way to cut an image up. -/
theorem slices_bytewise (hw : 1 < w) (image : List U8) :
    Slices w (image.map ([·])) ∧ (image.map ([·])).flatten = image := by
  refine ⟨fun chunk hmem => ?_, by rw [← List.flatMap_def, List.flatMap_singleton']⟩
  obtain ⟨b, _, rfl⟩ := List.mem_map.1 hmem
  exact Nat.one_lt_two_pow (by omega)

variable {chunks : List (List U8)} {disk : SparseMemBackend w}

/-- What a read of the in-memory disk returns: the image at offsets cut to `usize`. -/
theorem readAt_memory (hw : 12 ≤ w) (hholds : MemoryHolds image.length image disk) (sector : U64)
    (n : Nat) (hin : sector.toNat * 512 + n ≤ image.length) :
    ∃ buf, SparseMemBackend.readAt sector n disk = .ok buf disk ∧
      buf.1 = Bytes.slice (fun i => Bytes.padded image (i % 2 ^ w)) (sector.toNat * 512) n := by
  obtain ⟨buf, hread, hbuf⟩ := disk.readAt_eq hw sector n (by rwa [hholds.size])
  refine ⟨buf, hread, hbuf.trans (Bytes.slice_ext fun i hi => ?_)⟩
  exact hholds.bytes _ (lt_of_le_of_lt (Nat.mod_le _ _) (by omega))

section Sized

variable (hgeometry : Geometry image.length)

include hgeometry

theorem toNat_declared : (declared image).toNat = image.length :=
  hgeometry.toNat_ofNat le_rfl

theorem fed_start {sink : SeedSink ι w} (hsink : Holds laws io image.length target [] sink) :
    Fed laws io image.length target [] (start sink (declared image)) where
  logicalBytes := toNat_declared hgeometry
  split := ⟨[], rfl, Nat.zero_mul SEED_BLOCK_SIZE, hsink⟩
  consumed := rfl
  fits := Nat.zero_le _

theorem beginImage_ok (laws : FileLaws ι) (io : ι) :
    ∃ s : DiskSeeder ι w, beginImage io (declared image) = .ok s ∧
      Fed laws io image.length .file [] s := by
  have hdeclared := toNat_declared hgeometry
  obtain ⟨io₁, hfirst, -, hbytes₁, hwrites₁⟩ := laws.truncateTo_ok io 0 (by decide)
  obtain ⟨io₂, hsecond, hsize₂, hbytes₂, hwrites₂⟩ := laws.truncateTo_ok io₁ (declared image)
    (hdeclared.le.trans hgeometry.le_safe)
  -- Truncating to nothing first leaves no byte of the old contents.
  have hempty : laws.bytes io₂ = Bytes.padded [] := by
    funext i
    rw [hbytes₂, hbytes₁, if_neg (show ¬ i < (0 : U64).toNat from Nat.not_lt_zero i), ite_self]
    rfl
  have hsink : Holds laws io image.length .file [] (.image io₂ [] 0 : SeedSink ι w) :=
    ⟨by rw [hsize₂, hdeclared], by rw [Bytes.splice_nil, hempty], nofun, solid_nil,
      [], by rw [hwrites₂, hwrites₁, List.append_nil], nofun⟩
  refine ⟨start (.image io₂ [] 0) (declared image), ?_, fed_start hgeometry hsink⟩
  unfold beginImage
  simp only [declared, seedGeometry_ok hgeometry] at hsecond ⊢
  rw [Effect.run_bind_ok hfirst, hsecond]

theorem beginMemory_ok (laws : FileLaws ι) (io : ι) :
    ∃ s : DiskSeeder ι w, beginMemory (declared image) = .ok s ∧
      Fed laws io image.length .memory [] s := by
  have hdeclared := toNat_declared hgeometry
  have husable : SparseMemBackend.Usable (declared image) := by
    unfold SparseMemBackend.Usable
    rw [hdeclared]
    rintro (h | h | h)
    · exact hgeometry.pos h
    · exact h hgeometry.blocks
    · exact absurd hgeometry.count (Nat.not_le.2 h)
  have hnew : SparseMemBackend.new (declared image) =
      some (⟨declared image, ∅, by simp⟩ : SparseMemBackend w) := by
    unfold SparseMemBackend.new
    rw [if_pos husable]
  have hsink : Holds laws io image.length .memory []
      (.memory ⟨declared image, ∅, by simp⟩ : SeedSink ι w) :=
    ⟨hdeclared, fun _ _ => rfl⟩
  refine ⟨start _ (declared image), ?_, fed_start hgeometry hsink⟩
  unfold beginMemory
  simp only [hnew]
  simp only [declared, seedGeometry_ok hgeometry]

theorem readsBack_opfs {disk : OpfsBackend ι} (hdisk : disk.logicalBytes = declared image)
    (hsize : laws.size disk.io = image.length) (hbytes : laws.bytes disk.io = Bytes.padded image) :
    ReadsBack disk image := by
  intro sector n hin
  have hdeclared := toNat_declared hgeometry
  have hrange : MemBackend.checkedRange sector n disk.logicalBytes.toNat =
      some (sector.toNat * 512) := by
    unfold MemBackend.checkedRange
    rw [if_neg]
    rw [hdisk, hdeclared]
    omega
  have hoffset := hgeometry.toNat_ofNat (Nat.le_of_add_right_le hin)
  obtain ⟨buf, io₁, hread, hbuf⟩ := laws.readAtExact_ok disk.io
    (BitVec.ofNat 64 (sector.toNat * 512)) n (by
      rw [hoffset]
      exact (Nat.le_of_add_right_le hin).trans hgeometry.le_safe)
    (by rw [hoffset, hsize]; exact hin)
  refine ⟨buf, { disk with io := io₁ }, ?_, ?_⟩
  · change OpfsBackend.readAt sector n disk = _
    unfold OpfsBackend.readAt
    simp only [hrange, OpfsBackend.through, hread]
  · rw [hbuf, hoffset, hbytes, Bytes.slice_padded hin]

theorem open_ok {io' : ι}
    (hsize : laws.size io' = image.length) (hbytes : laws.bytes io' = Bytes.padded image) :
    ∃ disk, OpfsBackend.open io' (declared image) = .ok disk ∧ ReadsBack disk image := by
  obtain ⟨io₁, hread, hsize₁, hbytes₁⟩ := laws.sizeBytes_ok io'
    (hsize.le.trans hgeometry.le_safe)
  refine ⟨⟨io₁, declared image, none⟩, ?_, readsBack_opfs hgeometry rfl
    (hsize₁.trans hsize) (hbytes₁.trans hbytes)⟩
  have hcheck : checkGeometry (declared image) = .ok () := checkGeometry_ok hgeometry
  unfold OpfsBackend.open
  simp only [hcheck, hread, hsize]
  exact if_neg (not_not_intro rfl)

theorem readsBack_memory_iff (hw : 12 ≤ w)
    (hholds : MemoryHolds image.length image disk) : ReadsBack disk image ↔ FitsUsize w image := by
  constructor
  · intro hreads i hi
    -- The sector around the byte lies inside the disk.
    have hblocks := hgeometry.blocks
    have hsector := hgeometry.toNat_ofNat (n := i / 512) (by omega)
    have hin : (BitVec.ofNat 64 (i / 512)).toNat * 512 + 512 ≤ image.length := by
      unfold SEED_BLOCK_SIZE SPARSE_BLOCK_SIZE at hblocks
      omega
    obtain ⟨buf, hread, hbuf⟩ := readAt_memory hw hholds _ _ hin
    obtain ⟨buf', disk', hread', hbuf'⟩ := hreads _ _ hin
    have hsame : buf = buf' := by
      have := hread.symm.trans hread'
      simp only [EStateM.Result.ok.injEq] at this
      exact this.1
    have hbyte : buf.1[i % 512]? = buf'.1[i % 512]? := by rw [hsame]
    have hmod : i % 512 < 512 := Nat.mod_lt _ (by decide)
    have hsum : i / 512 * 512 + i % 512 = i := Nat.div_add_mod' i 512
    rw [hbuf, hbuf', Bytes.getElem?_slice _ _ _ _ hmod, List.getElem?_take_of_lt hmod,
      List.getElem?_drop, hsector, hsum] at hbyte
    have hcut : i % 2 ^ w < image.length := lt_of_le_of_lt (Nat.mod_le _ _) hi
    rw [← hbyte]
    unfold Bytes.padded
    rw [List.getElem?_eq_getElem hcut, Option.getD_some]
  · intro hfits sector n hin
    obtain ⟨buf, hread, hbuf⟩ := readAt_memory hw hholds _ _ hin
    refine ⟨buf, disk, hread, ?_⟩
    rw [hbuf, ← Bytes.slice_padded hin]
    refine Bytes.slice_ext fun i hi => ?_
    have hlt : sector.toNat * 512 + i < image.length := by omega
    exact (padded_eq_iff (lt_of_le_of_lt (Nat.mod_le _ _) hlt) hlt).2 (hfits _ hlt)

/-- A block is absent from the in-memory disk exactly when it is all zero. -/
theorem lookup_eq_none_iff (hholds : MemoryHolds image.length image disk)
    (hin : index.toNat * SEED_BLOCK_SIZE < image.length) :
    disk.blocks.lookup index = none ↔
      isZero ((image.drop (index.toNat * SEED_BLOCK_SIZE)).take SEED_BLOCK_SIZE) := by
  have hblocks := hgeometry.blocks
  have hroom : index.toNat * SEED_BLOCK_SIZE + SEED_BLOCK_SIZE ≤ image.length := by
    unfold SEED_BLOCK_SIZE SPARSE_BLOCK_SIZE at *
    omega
  -- The block, as the disk has it.
  have hblock : (image.drop (index.toNat * SEED_BLOCK_SIZE)).take SEED_BLOCK_SIZE =
      ((disk.blocks.lookup index).getD SparseMemBackend.zeroBlock).1 := by
    rw [disk.block_eq_slice, ← Bytes.slice_padded hroom]
    exact Bytes.slice_congr fun i _ hi => (hholds.bytes i (hi.trans_le hroom)).symm
  rw [hblock]
  cases hlookup : disk.blocks.lookup index with
  | none => exact ⟨fun _ => isZero_iff.2 fun _ hb => List.eq_of_mem_replicate hb, fun _ => rfl⟩
  | some block => exact ⟨nofun, fun hzero => absurd (hzero.symm.trans (disk.nonzero hlookup)) nofun⟩

theorem countsBytes {s : DiskSeeder ι w} (hs : Fed laws io image.length target [] s)
    (hslices : ∀ chunk ∈ chunks, chunk.length < 2 ^ 63) : CountsBytes image s chunks := by
  rcases feed_cases hgeometry chunks hslices hs with hfed | ⟨hlt, hover⟩
  · constructor
    · rintro ⟨why, s', herror⟩ hall
      obtain ⟨disk, s'', hok⟩ := hfed.finish_ok hgeometry hall
      rw [hok] at herror
      cases herror
    · intro hne
      obtain ⟨why, herror⟩ := finish_error (s := feed chunks s) (by
        rw [hfed.consumed, hfed.logicalBytes]
        exact hne)
      exact ⟨why, _, herror⟩
  · rw [List.length_nil, Nat.zero_add] at hlt
    obtain ⟨why, herror⟩ := finish_error (s := feed chunks s) (ne_of_gt hover)
    exact ⟨fun _ => ne_of_gt hlt, fun _ => ⟨why, _, herror⟩⟩

theorem seedsFile (hchunks : chunks.flatten = image) : SeedsFile laws io image w chunks := by
  obtain ⟨s, hbegin, hs⟩ := beginImage_ok hgeometry laws io
  obtain ⟨s₁, hfeed, hs₁⟩ := feedAll_ok hgeometry chunks hs (by simp [hchunks])
  rw [List.nil_append, hchunks] at hs₁
  obtain ⟨io', batchStart, s₂, hfinish, hsink, hsize, hbytes, hmade⟩ :=
    hs₁.finish_file hgeometry rfl
  obtain ⟨disk, hopen, hreads⟩ := open_ok hgeometry hsize hbytes
  exact ⟨s, s₁, s₂, io', [], batchStart, disk, hbegin, hfeed, hfinish, hsink, hopen, hreads, hmade⟩

/-- Seeding the in-memory disk ends with a disk that holds the image. -/
theorem memory_run (laws : FileLaws ι) (io : ι) (hchunks : chunks.flatten = image) :
    ∃ (s s₁ : DiskSeeder ι w) (disk : SparseMemBackend w), beginMemory (declared image) = .ok s ∧
      feedAll chunks s = .ok () s₁ ∧ finish s₁ = .ok (some disk) s₁ ∧
      MemoryHolds image.length image disk := by
  obtain ⟨s, hbegin, hs⟩ := beginMemory_ok hgeometry laws io
  obtain ⟨s₁, hfeed, hs₁⟩ := feedAll_ok hgeometry chunks hs (by simp [hchunks])
  rw [List.nil_append, hchunks] at hs₁
  obtain ⟨disk, hfinish, hholds⟩ := hs₁.finish_memory hgeometry rfl
  exact ⟨s, s₁, disk, hbegin, hfeed, hfinish, hholds⟩

theorem seedsMemory_iff (laws : FileLaws ι) (io : ι) (hw : 12 ≤ w)
    (hchunks : chunks.flatten = image) : SeedsMemory ι image w chunks ↔ FitsUsize w image := by
  obtain ⟨s, s₁, disk, hbegin, hfeed, hfinish, hholds⟩ := memory_run hgeometry laws io hchunks
  constructor
  · rintro ⟨t, t₁, t₂, disk', hbegin', hfeed', hfinish', hreads, -⟩
    -- The run is determined by its inputs.
    obtain rfl : s = t := by rw [hbegin] at hbegin'; exact Except.ok.inj hbegin'
    obtain rfl : s₁ = t₁ := by rw [hfeed] at hfeed'; cases hfeed'; rfl
    obtain rfl : disk = disk' := by rw [hfinish] at hfinish'; cases hfinish'; rfl
    exact (readsBack_memory_iff hgeometry hw hholds).1 hreads
  · intro hfits
    exact ⟨s, s₁, s₁, disk, hbegin, hfeed, hfinish,
      (readsBack_memory_iff hgeometry hw hholds).2 hfits,
      fun index hin => lookup_eq_none_iff hgeometry hholds hin⟩

end Sized

/-- For an image of legal size both targets read back as the image, for every chunking, exactly
when cutting its offsets to `usize` leaves the image as it is.  Everything but the in-memory read
holds without that. -/
theorem seedsExactly_iff (laws : FileLaws ι) (io : ι) (hw : w = 32 ∨ w = 64)
    (hgeometry : Geometry image.length) :
    SeedsExactly laws io image w ↔ FitsUsize w image := by
  have hwide : 12 ≤ w := by omega
  have hlong : 2 ^ (w - 1) ≤ 2 ^ 63 := Nat.pow_le_pow_right (by decide) (by omega)
  constructor
  · intro h
    obtain ⟨hslices, hflat⟩ := slices_bytewise (w := w) (by omega) image
    exact (seedsMemory_iff hgeometry laws io hwide hflat).1 (h.memory _ hslices hflat)
  · intro hfits
    refine ⟨fun chunks _ hchunks => seedsFile hgeometry hchunks,
      fun chunks _ hchunks => (seedsMemory_iff hgeometry laws io hwide hchunks).2 hfits,
      fun chunks hslices => ?_, fun chunks hslices => ?_⟩
    · obtain ⟨s, hbegin, hs⟩ := beginImage_ok hgeometry laws io
      exact ⟨s, hbegin, countsBytes hgeometry hs
        fun chunk hmem => (hslices chunk hmem).trans_le hlong⟩
    · obtain ⟨s, hbegin, hs⟩ := beginMemory_ok hgeometry laws io
      exact ⟨s, hbegin, countsBytes hgeometry hs
        fun chunk hmem => (hslices chunk hmem).trans_le hlong⟩

end ReadBack

/-! ## A file in memory -/

/-- A file that keeps its contents and the writes made to it. -/
structure MemImage where
  size : Nat
  byte : Nat → U8
  writes : List (Nat × List U8)
  byte_of_size_le : ∀ {i}, size ≤ i → byte i = 0

namespace MemImage

def blank : MemImage :=
  { size := 0, byte := fun _ => 0, writes := [], byte_of_size_le := fun _ => rfl }

def readAtExact (offset : U64) (n : Nat) :
    EStateM BlockError MemImage { buf : List U8 // buf.length = n } := fun io =>
  if offset.toNat + n ≤ io.size then
    .ok ⟨Bytes.slice io.byte offset.toNat n, Bytes.length_slice _ _ _⟩ io
  else .error .outOfRange io

def writeAtAll (offset : U64) (buf : List U8) : EStateM BlockError MemImage Unit := fun io =>
  .ok () {
    size := max io.size (offset.toNat + buf.length)
    byte := Bytes.splice io.byte offset.toNat buf
    writes := io.writes ++ [(offset.toNat, buf)]
    byte_of_size_le := fun {i} h => by
      rw [Bytes.splice_of_ge (le_trans (le_max_right _ _) h)]
      exact io.byte_of_size_le (le_trans (le_max_left _ _) h) }

def truncateTo (size : U64) : EStateM BlockError MemImage Unit := fun io =>
  .ok () {
    io with
    size := size.toNat
    byte := fun i => if i < size.toNat then io.byte i else 0
    byte_of_size_le := fun h => if_neg (Nat.not_lt.2 h) }

instance : ImageIo MemImage where
  sizeBytes := fun io => .ok (BitVec.ofNat 64 io.size) io
  readAtExact := readAtExact
  writeAtAll := writeAtAll
  truncateTo := truncateTo
  sync := pure ()
  release := id
  takeImageIoFailure io := (none, io)

def laws : FileLaws MemImage where
  size := size
  bytes := byte
  writes := writes
  bytes_of_size_le := byte_of_size_le _
  sizeBytes_ok io _ := ⟨io, rfl, rfl, rfl⟩
  readAtExact_ok io offset n _ h :=
    ⟨⟨Bytes.slice io.byte offset.toNat n, Bytes.length_slice _ _ _⟩, io, if_pos h, rfl⟩
  writeAtAll_ok _ _ _ _ h := ⟨_, rfl, max_eq_left h, rfl, rfl⟩
  truncateTo_ok _ _ _ := ⟨_, rfl, rfl, fun _ => rfl, rfl⟩
  sync_ok io := ⟨io, rfl, rfl, rfl, rfl⟩
  release_size _ := rfl
  release_bytes _ := rfl
  release_writes _ := rfl

end MemImage

/-- A block of zeros between two of ones. -/
def gapImage : List U8 :=
  List.replicate 4096 1 ++ (List.replicate 4096 0 ++ List.replicate 4096 1)

theorem length_gapImage : gapImage.length = 12288 := by
  simp only [gapImage, List.length_append, List.length_replicate]

theorem geometry_gapImage : Geometry gapImage.length := by
  rw [length_gapImage]
  exact ⟨by decide, by decide, by decide⟩

/-- Its three blocks are seeded on both targets of a 32-bit build. -/
theorem seedsExactly_gapImage : SeedsExactly MemImage.laws MemImage.blank gapImage 32 := by
  refine (seedsExactly_iff MemImage.laws MemImage.blank (.inl rfl) geometry_gapImage).2 ?_
  intro i hi
  rw [length_gapImage] at hi
  rw [Nat.mod_eq_of_lt (by omega)]

/-- Zeros up to the end of the 32-bit range and a block of ones after it. -/
def wideImage : List U8 :=
  List.replicate (2 ^ 32) 0 ++ List.replicate 4096 1

theorem length_wideImage : wideImage.length = 2 ^ 32 + 4096 := by
  rw [wideImage, List.length_append, List.length_replicate, List.length_replicate]

theorem geometry_wideImage : Geometry wideImage.length := by
  rw [length_wideImage]
  exact ⟨by decide, by decide, by decide⟩

/-- On a 32-bit build the block of ones reads as zeros: its offset is cut to 0. -/
theorem wideImage_reads_zeros :
    ∃ (s s₁ s₂ : DiskSeeder MemImage 32) (disk : SparseMemBackend 32) (chunks : List (List U8)),
      Slices 32 chunks ∧ chunks.flatten = wideImage ∧
      beginMemory (declared wideImage) = .ok s ∧ feedAll chunks s = .ok () s₁ ∧
      finish s₁ = .ok (some disk) s₂ ∧
      (∃ buf, SparseMemBackend.readAt 8388608 512 disk = .ok buf disk ∧
        buf.1 = List.replicate 512 0) ∧
      (wideImage.drop (8388608 * 512)).take 512 = List.replicate 512 1 := by
  obtain ⟨hslices, hflat⟩ := slices_bytewise (w := 32) (by decide) wideImage
  obtain ⟨s, s₁, disk, hbegin, hfeed, hfinish, hholds⟩ :=
    memory_run (w := 32) geometry_wideImage MemImage.laws MemImage.blank hflat
  obtain ⟨buf, hread, hbuf⟩ := readAt_memory (by decide) hholds 8388608 512
    (by rw [length_wideImage]; decide)
  refine ⟨s, s₁, s₁, disk, _, hslices, hflat, hbegin, hfeed, hfinish, ⟨buf, hread, ?_⟩, ?_⟩
  · rw [hbuf]
    apply List.ext_getElem?
    intro i
    by_cases hi : i < 512
    · have hsector : (8388608 : U64).toNat * 512 = 2 ^ 32 := by decide
      have hcut : ((8388608 : U64).toNat * 512 + i) % 2 ^ 32 = i := by
        omega
      rw [Bytes.getElem?_slice _ _ _ _ hi, List.getElem?_replicate_of_lt hi, hcut, Bytes.padded,
        wideImage, List.getElem?_append_left (by rw [List.length_replicate]; omega),
        List.getElem?_replicate_of_lt (by omega), Option.getD_some]
    · rw [List.getElem?_eq_none (by rw [Bytes.length_slice]; omega),
        List.getElem?_eq_none (by rw [List.length_replicate]; omega)]
  · rw [wideImage, List.drop_left' (by rw [List.length_replicate]; decide), List.take_replicate]
    rfl

end DiskSeeder

end EmulateComputer
