import EmulateComputer.Devices.Virtio

/-!
# Framebuffer — RAM-backed scanout and its rectangle blitter

The display is a window of guest RAM.  The blitter copies and fills rectangles in it and, on a
`present`, commits the window to a front buffer of its own, row by changed row.  The front buffer
is empty or full-sized and the geometries are valid by type.
-/

namespace EmulateComputer

open Effect (Keeps)
open Virtqueue (RamEvolves)

namespace Framebuffer

def FB_WIDTH : U32 := 1024
def FB_HEIGHT : U32 := 768
def FB_STRIDE : Nat := 8192
def FB_MAX_WIDTH : U32 := 2048
def FB_MAX_HEIGHT : U32 := 2048
def FB_PAGES_PER_ROW : Nat := 2
def FB_BYTES : Nat := 16777216
/-- `FB_BASE - DRAM_BASE`: 128 MiB of DRAM less the 16 MiB window. -/
def FB_RAM_OFFSET : Nat := 117440512
def FB_FIRST_PAGE : Nat := FB_RAM_OFFSET / 4096

/-- The write generations of rows, each the sum of its two pages'. -/
def rowGenerations : List U64 → List U64
  | first :: second :: rest => (first + second) :: rowGenerations rest
  | _ => []

/-- A host's view of which rows have changed: the generation each row last had.  The all-ones
word marks a row never seen. -/
structure FramebufferView where
  seen : List U64

namespace FramebufferView

def new : FramebufferView :=
  ⟨List.replicate FB_MAX_HEIGHT.toNat (BitVec.allOnes 64)⟩

def markAllDirty (view : FramebufferView) : FramebufferView :=
  ⟨view.seen.map fun _ => BitVec.allOnes 64⟩

end FramebufferView

def scanline (pixels : List U8) (row : Nat) : List U8 :=
  (pixels.drop (row * FB_STRIDE)).take FB_STRIDE

/-- Each scanned row adopts its generation; rows beyond keep theirs. -/
def adopt (gens seen : List U64) : List U64 :=
  (gens.zip seen).map Prod.fst ++ seen.drop gens.length

/-- The rows whose generation is not the one last seen, in ascending order. -/
def changedRows (gens seen : List U64) : List U32 :=
  ((gens.zip seen).zipIdx.filter fun p => p.1.1 ≠ p.1.2).map fun p => BitVec.ofNat 32 p.2

/-- Report the rows that changed since the last scan and adopt the new generations. -/
def FramebufferView.scan (view : FramebufferView) (generations : List U64) (out : List U32) :
    FramebufferView × List U32 :=
  (⟨adopt generations view.seen⟩, out ++ changedRows generations view.seen)

def validSize (size : U32 × U32) : Bool :=
  320 ≤ size.1 && size.1 ≤ FB_MAX_WIDTH && 200 ≤ size.2 && size.2 ≤ FB_MAX_HEIGHT

def validRectangle (offset width height : Nat) : Bool :=
  offset < FB_BYTES && offset % 4 = 0 && 0 < width && width ≤ FB_STRIDE && width % 4 = 0 &&
    offset % FB_STRIDE + width ≤ FB_STRIDE && 0 < height && height ≤ FB_BYTES / FB_STRIDE &&
    offset + (height - 1) * FB_STRIDE + width ≤ FB_BYTES

/-! ## Rows -/

theorem rowGenerations_map (g : Nat → U64) (first n : Nat) :
    rowGenerations ((List.range' first (n * FB_PAGES_PER_ROW)).map g) =
      (List.range n).map fun row =>
        g (first + row * FB_PAGES_PER_ROW) + g (first + row * FB_PAGES_PER_ROW + 1) := by
  induction n generalizing first with
  | zero => rfl
  | succ n ih =>
    rw [Nat.succ_mul, List.range_succ_eq_map]
    simp only [FB_PAGES_PER_ROW, List.range'_succ, List.map_cons, rowGenerations, List.map_map]
      at ih ⊢
    rw [ih]
    congr 1
    refine List.map_congr_left fun row _ => ?_
    congr 2 <;> omega

variable {gens seen : List U64} {head tail : List U8}

theorem getElem?_adopt {i : Nat} (hi : i < seen.length) :
    (adopt gens seen)[i]? = if i < gens.length then gens[i]? else seen[i]? := by
  unfold adopt
  split
  · next h =>
    rw [List.getElem?_append_left (by simp [h, hi])]
    simp [h, hi]
  · next h =>
    rw [List.getElem?_append_right (by simp; omega)]
    simp only [List.length_map, List.length_zip, List.getElem?_drop]
    congr 1
    omega

theorem length_adopt (h : gens.length ≤ seen.length) : (adopt gens seen).length = seen.length := by
  simp only [adopt, List.length_append, List.length_map, List.length_zip, List.length_drop]
  omega

/-- A row is reported exactly when its generation is not the one seen. -/
theorem mem_changedRows {row : U32} :
    row ∈ changedRows gens seen ↔
      ∃ i g s, gens[i]? = some g ∧ seen[i]? = some s ∧ g ≠ s ∧ row = BitVec.ofNat 32 i := by
  unfold changedRows
  simp only [List.mem_map, List.mem_filter, decide_eq_true_eq, Prod.exists,
    List.mem_zipIdx_iff_getElem?, List.getElem?_zip_eq_some]
  constructor
  · rintro ⟨g, s, i, ⟨⟨hg, hs⟩, hne⟩, rfl⟩
    exact ⟨i, g, s, hg, hs, hne, rfl⟩
  · rintro ⟨i, g, s, hg, hs, hne, rfl⟩
    exact ⟨g, s, i, ⟨⟨hg, hs⟩, hne⟩, rfl⟩

theorem scanline_append_zero (h : head.length = FB_STRIDE) : scanline (head ++ tail) 0 = head := by
  unfold scanline
  rw [Nat.zero_mul, List.drop_zero, ← h, List.take_left]

theorem scanline_append_succ (h : head.length = FB_STRIDE) (row : Nat) :
    scanline (head ++ tail) (row + 1) = scanline tail row := by
  unfold scanline
  rw [Nat.succ_mul, Nat.add_comm, ← List.drop_drop, ← h, List.drop_left]

theorem scanline_drop (pixels : List U8) (row : Nat) :
    scanline (pixels.drop FB_STRIDE) row = scanline pixels (row + 1) := by
  unfold scanline
  rw [List.drop_drop, Nat.succ_mul, Nat.add_comm]

end Framebuffer

open Framebuffer

structure FramebufferBlitter where
  /-- Status, source, destination, width in bytes, height, AND/plane mask, XOR. -/
  registers : Fin 7 → U32
  front : List U8
  generations : List U64
  presents : U64
  requested : U32 × U32
  active : U32 × U32
  pending : U32 × U32
  geometryChanged : Bool
  front_length : front = [] ∨ front.length = FB_BYTES
  active_valid : validSize active = true
  pending_valid : validSize pending = true

namespace FramebufferBlitter

def ID : U32 := 0x45464203

/-- `FramebufferBlitter::default()`. -/
def new : FramebufferBlitter :=
  { registers := fun _ => 0, front := [], generations := [], presents := 0,
    requested := (FB_WIDTH, FB_HEIGHT), active := (FB_WIDTH, FB_HEIGHT),
    pending := (FB_WIDTH, FB_HEIGHT), geometryChanged := false, front_length := Or.inl rfl,
    active_valid := by decide, pending_valid := by decide }

def read (offset : U64) (size : Nat) : Access FramebufferBlitter U64 := do
  let d ← get
  if size ≠ 4 ∨ 40 < offset ∨ offset.toNat % 4 ≠ 0 then throw ()
  else if offset = 0 then pure (ID.setWidth 64)
  else if offset = 32 then pure (d.requested.1.setWidth 64)
  else if offset = 36 then pure (d.requested.2.setWidth 64)
  else if offset = 40 then pure (((d.active.2 <<< 16) ||| d.active.1).setWidth 64)
  else if h : offset.toNat / 4 - 1 < 7 then
    pure ((d.registers ⟨offset.toNat / 4 - 1, h⟩).setWidth 64)
  else throw ()

def requestSize (d : FramebufferBlitter) (width height : U32) : Option FramebufferBlitter :=
  if validSize (width, height) then some { d with requested := (width, height) } else none

def committed (d : FramebufferBlitter) : Bool :=
  !d.front.isEmpty

def row (d : FramebufferBlitter) (row : Nat) : List U8 :=
  if (row + 1) * FB_STRIDE ≤ d.front.length then scanline d.front row else []

/-- Replace the rows whose generation changed by the current pixels. -/
def updateRows : List U64 → List U64 → List U8 → List U8 → List U8
  | generation :: gens, seen :: rest, front, pixels =>
    (if generation ≠ seen then pixels.take FB_STRIDE else front.take FB_STRIDE) ++
      updateRows gens rest (front.drop FB_STRIDE) (pixels.drop FB_STRIDE)
  | _, _, front, _ => front

theorem length_updateRows (gens seen : List U64) (front pixels : List U8)
    (h : pixels.length = front.length) :
    (updateRows gens seen front pixels).length = front.length := by
  induction gens generalizing seen front pixels with
  | nil => simp [updateRows]
  | cons generation gens ih =>
    cases seen with
    | nil => simp [updateRows]
    | cons s seen =>
      have htail := ih seen (front.drop FB_STRIDE) (pixels.drop FB_STRIDE) (by simp [h])
      rw [updateRows, List.length_append, htail]
      split
      · simp only [List.length_take, List.length_drop, h]
        omega
      · simp only [List.length_take, List.length_drop]
        omega

theorem length_readSlice {ram : Ram} {offset : U64} {len : Nat} {bytes : List U8}
    (h : ram.readSlice offset len = some bytes) : bytes.length = len := by
  rw [Ram.readSlice_eq] at h
  split at h
  · simp only [Option.some.injEq] at h
    rw [← h, Bytes.length_slice]
  · simp at h

def present : Access (FramebufferBlitter × Ram) Unit := fun s =>
  match h : s.2.readSlice (BitVec.ofNat 64 FB_RAM_OFFSET) FB_BYTES with
  | none => .error () s
  | some pixels =>
    let d := s.1
    let gens := rowGenerations
      (s.2.pageGenerationsIn FB_FIRST_PAGE (FB_MAX_HEIGHT.toNat * FB_PAGES_PER_ROW))
    let d' : FramebufferBlitter :=
      { d with
        front := if d.front.isEmpty then pixels
          else updateRows gens d.generations d.front pixels
        generations := if d.front.isEmpty then gens else adopt gens d.generations
        geometryChanged := d.geometryChanged || decide (d.active ≠ d.pending)
        active := d.pending
        presents := d.presents + 1
        active_valid := d.pending_valid
        front_length := by
          have hpixels := length_readSlice h
          rcases d.front_length with hnil | hfull
          · exact Or.inr (by simp [hnil, hpixels])
          · split
            · exact Or.inr hpixels
            · exact Or.inr (by rw [length_updateRows _ _ _ _ (by rw [hpixels, hfull]), hfull]) }
    .ok () (d', s.2)

/-- What a successful present leaves behind. -/
structure Presented (d : FramebufferBlitter) (ram : Ram) (d' : FramebufferBlitter)
    (pixels : List U8) (gens : List U64) : Prop where
  read : ram.readSlice (BitVec.ofNat 64 FB_RAM_OFFSET) FB_BYTES = some pixels
  gens_eq : gens = rowGenerations
    (ram.pageGenerationsIn FB_FIRST_PAGE (FB_MAX_HEIGHT.toNat * FB_PAGES_PER_ROW))
  front : d'.front = if d.front.isEmpty then pixels
    else updateRows gens d.generations d.front pixels
  generations : d'.generations = if d.front.isEmpty then gens else adopt gens d.generations
  active : d'.active = d.pending
  geometryChanged : d'.geometryChanged = (d.geometryChanged || decide (d.active ≠ d.pending))

theorem present_ok {s t : FramebufferBlitter × Ram} (h : present s = .ok () t) :
    t.2 = s.2 ∧ ∃ pixels gens, Presented s.1 s.2 t.1 pixels gens := by
  unfold present at h
  split at h
  · cases h
  · next pixels hpixels =>
    cases h
    exact ⟨rfl, pixels, _, hpixels, rfl, rfl, rfl, rfl, rfl⟩

def release (d : FramebufferBlitter) : FramebufferBlitter :=
  { d with front := [], generations := [], front_length := Or.inl rfl }

/-- Byte `i` of a row under a repeated 32-bit pattern. -/
def maskByte (v : U32) (i : Nat) : U8 :=
  (v >>> (8 * (i % 4))).setWidth 8

/-- What a copy writes to one row: the source under the plane mask, the old pixels outside it. -/
def copyRow (ram : Ram) (src dst width : Nat) (mask : U32) : Option (List U8) := do
  let bytes ← ram.readSlice (BitVec.ofNat 64 src) width
  if mask = BitVec.allOnes 32 then
    some bytes
  else
    let previous ← ram.readSlice (BitVec.ofNat 64 dst) width
    some ((bytes.zip previous).mapIdx fun i p =>
      (p.1 &&& maskByte mask i) ||| (p.2 &&& ~~~maskByte mask i))

def fillRow (ram : Ram) (dst width : Nat) (mask xor : U32) : Option (List U8) :=
  if mask = 0 then
    some ((List.range width).map (maskByte xor))
  else do
    let previous ← ram.readSlice (BitVec.ofNat 64 dst) width
    some (previous.mapIdx fun i b => (b &&& maskByte mask i) ^^^ maskByte xor i)

def blitRows (row : Ram → Nat → Option (List U8)) (dst : Nat → Nat) :
    List Nat → Access (FramebufferBlitter × Ram) Unit
  | [] => pure ()
  | y :: ys => do
    let s ← get
    let bytes ← Effect.ofOption () (row s.2 y)
    Virtqueue.writeSlice () (BitVec.ofNat 64 (dst y)) bytes
    blitRows row dst ys

def execute (command : U32) : Access (FramebufferBlitter × Ram) Unit := do
  let s ← get
  let source := (s.1.registers 1).toNat
  let destination := (s.1.registers 2).toNat
  let width := (s.1.registers 3).toNat
  let height := (s.1.registers 4).toNat
  let mask := s.1.registers 5
  let xor := s.1.registers 6
  let dst (y : Nat) := FB_RAM_OFFSET + (destination + y * FB_STRIDE)
  let src (y : Nat) := FB_RAM_OFFSET + (source + y * FB_STRIDE)
  if command = 3 then
    present
  else if command = 4 then
    modify fun s => (s.1.release, s.2)
  else if (command ≠ 1 ∧ command ≠ 2) ∨ s.2.size < FB_RAM_OFFSET + FB_BYTES ∨
      ¬ validRectangle destination width height ∨
      (command = 1 ∧ ¬ validRectangle source width height) then
    throw ()
  else if command = 1 then
    -- A copy to a higher address runs bottom up, so an overlap never reads its own output.
    blitRows (fun ram y => copyRow ram (src y) (dst y) width mask) dst
      (if source < destination then (List.range height).reverse else List.range height)
  else
    blitRows (fun ram y => fillRow ram (dst y) width mask xor) dst (List.range height)

def setRegister (d : FramebufferBlitter) (index : Fin 7) (value : U32) : FramebufferBlitter :=
  { d with registers := Function.update d.registers index value }

def write (offset value : U64) (size : Nat) : Access (FramebufferBlitter × Ram) Unit := fun s =>
  if size ≠ 4 ∨ offset = 0 ∨ 40 < offset ∨ offset.toNat % 4 ≠ 0 ∨ offset = 32 ∨ offset = 36 then
    .error () s
  else if offset = 40 then
    let geometry : U32 × U32 :=
      (value.setWidth 32 &&& 0xffff, (value.setWidth 32 >>> 16) &&& 0xffff)
    if h : validSize geometry then
      .ok () ({ s.1 with pending := geometry, pending_valid := h }, s.2)
    else .error () s
  else if h : offset.toNat / 4 - 1 < 7 then
    let s' := (s.1.setRegister ⟨offset.toNat / 4 - 1, h⟩ (value.setWidth 32), s.2)
    if offset = 4 then
      match execute (value.setWidth 32) s' with
      | .ok _ t => .ok () (t.1.setRegister 0 0, t.2)
      | .error _ t => .ok () (t.1.setRegister 0 1, t.2)
    else .ok () s'
  else .error () s

/-! ## Presented rows -/

/-- A present replaces exactly the scanlines whose generation moved. -/
theorem scanline_updateRows {gens seen : List U64} {front pixels : List U8} {row : Nat} {g s : U64}
    (hg : gens[row]? = some g) (hs : seen[row]? = some s)
    (hfront : (row + 1) * FB_STRIDE ≤ front.length) (hpixels : pixels.length = front.length) :
    scanline (updateRows gens seen front pixels) row =
      if g ≠ s then scanline pixels row else scanline front row := by
  induction row generalizing gens seen front pixels with
  | zero =>
    match gens, seen, hg, hs with
    | generation :: gens, t :: seen, hg, hs =>
      obtain rfl : generation = g := Option.some.inj hg
      obtain rfl : t = s := Option.some.inj hs
      rw [updateRows, scanline_append_zero]
      · simp only [scanline, Nat.zero_mul, List.drop_zero]
      · split
        · rw [List.length_take]
          omega
        · rw [List.length_take]
          omega
  | succ row ih =>
    rw [Nat.succ_mul] at hfront
    match gens, seen, hg, hs with
    | generation :: gens, t :: seen, hg, hs =>
      have htail : scanline (updateRows gens seen (front.drop FB_STRIDE)
          (pixels.drop FB_STRIDE)) row = _ :=
        ih hg hs (by rw [List.length_drop]; omega) (by simp [hpixels])
      rw [scanline_drop, scanline_drop] at htail
      rw [updateRows, scanline_append_succ, htail]
      split
      · rw [List.length_take]
        omega
      · rw [List.length_take]
        omega

/-! ## Snapshots -/

def snapshotBody (d : FramebufferBlitter) : List U8 :=
  (List.ofFn d.registers).flatMap Writer.u32 ++ (Writer.bytes d.front ++ (Writer.u64 d.presents ++
    (Writer.u32 d.active.1 ++ (Writer.u32 d.active.2 ++ (Writer.u32 d.pending.1 ++
      Writer.u32 d.pending.2)))))

def snapshot (d : FramebufferBlitter) : List U8 :=
  Writer.sectionOf 3 d.snapshotBody

/-- The requested size is the host's and follows the pending one. -/
def restore : Read FramebufferBlitter :=
  Reader.readSection "framebuffer blitter" 3 do
    let registers ← Cursor.readMany (fun _ => Reader.u32) 0 7
    let front ← Reader.bytes
    if hfront : front = [] ∨ front.length = FB_BYTES then
      let presents ← Reader.u64
      let activeWidth ← Reader.u32
      let activeHeight ← Reader.u32
      if hactive : validSize (activeWidth, activeHeight) then
        let pendingWidth ← Reader.u32
        let pendingHeight ← Reader.u32
        if hpending : validSize (pendingWidth, pendingHeight) then
          pure
            { registers := fun index => registers.1.get (index.cast registers.2.symm)
              front := front
              generations := List.replicate (if front.isEmpty then 0 else FB_MAX_HEIGHT.toNat)
                (BitVec.allOnes 64 - 1)
              presents := presents
              requested := (pendingWidth, pendingHeight)
              active := (activeWidth, activeHeight)
              pending := (pendingWidth, pendingHeight)
              geometryChanged := true
              front_length := hfront
              active_valid := hactive
              pending_valid := hpending }
        else
          throw "invalid pending framebuffer geometry"
      else
        throw "invalid framebuffer geometry"
    else
      throw "invalid committed framebuffer size"

end FramebufferBlitter

end EmulateComputer
