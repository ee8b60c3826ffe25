import EmulateComputer.Wire
import Mathlib.Data.Finset.Image
import Mathlib.Order.Interval.Finset.Nat

/-!
# Ram — guest DRAM with per-page write generations

The buffer is a function from offsets to bytes that is zero beyond its length.  Every write
bumps the generation of each 4-KiB page it touches, which is how the decoded-block cache and the
display notice stores and DMA.

The source counts generations in wrapping `u64`s; the model keeps the number of writes itself,
and what the source reads is that number modulo 2^64.  `writes` and `marks` are history variables:
they count how often each byte has been written, and how many of these writes were updates of
accessed and dirty bits by the page-table walker.  No function of the model reads them.
-/

namespace EmulateComputer

def DRAM_BASE : U64 := 0x80000000

structure Ram where
  size : Nat
  data : Nat → U8
  pageGenerations : Nat → Nat
  touchedPages : Nat
  writes : Nat → Nat
  marks : Nat → Nat
  /-- A `Vec<u8>` holds at most `isize::MAX` bytes. -/
  size_lt : size < 2 ^ 63
  data_zero : ∀ i, size ≤ i → data i = 0

namespace Ram

def PAGE_SHIFT : Nat := 12
def PAGE_SIZE : Nat := 4096

/-- `data.len().div_ceil(PAGE_SIZE)`. -/
def pageCount (ram : Ram) : Nat :=
  (ram.size + (PAGE_SIZE - 1)) / PAGE_SIZE

def new (size : Nat) (h : size < 2 ^ 63) : Ram :=
  { size := size
    data := fun _ => 0
    pageGenerations := fun _ => 0
    touchedPages := 0
    writes := fun _ => 0
    marks := fun _ => 0
    size_lt := h
    data_zero := fun _ _ => rfl }

theorem no_bytes : 0 < 2 ^ 63 := by decide

/-- A RAM that holds exactly the given bytes, all of generation zero. -/
def ofBytes (bytes : List U8) (h : bytes.length < 2 ^ 63) : Ram :=
  { new bytes.length h with
    data := fun i => bytes.getD i 0
    data_zero := fun i hi => by simp [List.getD, List.getElem?_eq_none hi] }

/-- The generation of a page as the source's `u64` counter shows it. -/
def generation (ram : Ram) (page : Nat) : U64 :=
  BitVec.ofNat 64 (ram.pageGenerations page)

/-- Start and end of a range whose end does not overflow. -/
def checkedRange (offset : U64) (len : Nat) : Option (Nat × Nat) :=
  if offset.toNat + len < 2 ^ 64 then some (offset.toNat, offset.toNat + len) else none

def readSlice (ram : Ram) (offset : U64) (len : Nat) : Option (List U8) := do
  let (start, stop) ← checkedRange offset len
  if stop ≤ ram.size then some (Bytes.slice ram.data start len) else none

def read (ram : Ram) (offset : U64) (size : Nat) : Option U64 := do
  let bytes ← ram.readSlice offset size
  some (Bytes.ofLE 64 bytes)

def bumpPageGenerations (ram : Ram) (offset len : Nat) : Ram :=
  if len = 0 then
    ram
  else
    let first := offset >>> PAGE_SHIFT
    let last := (offset + len - 1) >>> PAGE_SHIFT
    let newlyTouched := (List.range' first (last + 1 - first)).countP fun p => ram.generation p = 0
    { ram with
      pageGenerations := fun p =>
        if first ≤ p ∧ p ≤ last then ram.pageGenerations p + 1 else ram.pageGenerations p
      touchedPages := ram.touchedPages + newlyTouched }

def copyFromSlice (ram : Ram) (start : Nat) (bytes : List U8)
    (h : start + bytes.length ≤ ram.size) : Ram :=
  { ram with
    data := Bytes.splice ram.data start bytes
    writes := fun i =>
      if start ≤ i ∧ i < start + bytes.length then ram.writes i + 1 else ram.writes i
    data_zero := by
      intro i hi
      rw [Bytes.splice_of_ge (by omega)]
      exact ram.data_zero i hi }

def writeSlice (ram : Ram) (offset : U64) (bytes : List U8) : Option Ram := do
  let (start, _) ← checkedRange offset bytes.length
  if h : start + bytes.length ≤ ram.size then
    some ((ram.copyFromSlice start bytes h).bumpPageGenerations start bytes.length)
  else
    none

def write (ram : Ram) (offset : U64) (val : U64) (size : Nat) : Option Ram :=
  if size ≤ 8 then ram.writeSlice offset ((Bytes.toLE 8 val).take size) else none

def loadBlob (ram : Ram) (offset : U64) (blob : List U8) : Option Ram :=
  ram.writeSlice offset blob

/-- Count the last write of the word at `start` as the walker's. -/
def noteMark (ram : Ram) (start : Nat) : Ram :=
  { ram with
    marks := fun i => if start ≤ i ∧ i < start + 8 then ram.marks i + 1 else ram.marks i }

def pageGeneration (ram : Ram) (offset : U64) : Option (U64 × U64) :=
  if ram.size ≤ offset.toNat then
    none
  else
    some (offset >>> PAGE_SHIFT, ram.generation (offset >>> PAGE_SHIFT).toNat)

def generationForPage (ram : Ram) (page : U64) : Option U64 :=
  if page.toNat < ram.pageCount then some (ram.generation page.toNat) else none

/-- `page_generations(first, count)`: empty unless the range lies inside RAM. -/
def pageGenerationsIn (ram : Ram) (first count : Nat) : List U64 :=
  if first + count ≤ ram.pageCount then
    (List.range' first count).map ram.generation
  else
    []

/-! ## Reads and writes in closed form -/

variable {ram ram' : Ram}

theorem readSlice_eq (ram : Ram) (offset : U64) (len : Nat) :
    ram.readSlice offset len =
      if offset.toNat + len ≤ ram.size then some (Bytes.slice ram.data offset.toNat len)
      else none := by
  have hsize := ram.size_lt
  by_cases hle : offset.toNat + len ≤ ram.size
  · have hlt : offset.toNat + len < 2 ^ 64 := by omega
    rw [readSlice, checkedRange, if_pos hlt, if_pos hle]
    exact if_pos hle
  · rw [readSlice, checkedRange, if_neg hle]
    split
    · exact if_neg hle
    · rfl

theorem read_eq (ram : Ram) (offset : U64) (size : Nat) :
    ram.read offset size =
      if offset.toNat + size ≤ ram.size then
        some (Bytes.ofLE 64 (Bytes.slice ram.data offset.toNat size))
      else none := by
  by_cases hle : offset.toNat + size ≤ ram.size <;> simp [read, readSlice_eq, hle]

/-- What a write that fits leaves behind. -/
def stored (ram : Ram) (start : Nat) (bytes : List U8) (h : start + bytes.length ≤ ram.size) :
    Ram :=
  (ram.copyFromSlice start bytes h).bumpPageGenerations start bytes.length

theorem writeSlice_eq (ram : Ram) (offset : U64) (bytes : List U8) :
    ram.writeSlice offset bytes =
      if h : offset.toNat + bytes.length ≤ ram.size then some (ram.stored offset.toNat bytes h)
      else none := by
  have hsize := ram.size_lt
  by_cases hle : offset.toNat + bytes.length ≤ ram.size
  · have hlt : offset.toNat + bytes.length < 2 ^ 64 := by omega
    rw [writeSlice, checkedRange, if_pos hlt, dif_pos hle]
    exact dif_pos hle
  · rw [writeSlice, checkedRange, dif_neg hle]
    split
    · exact dif_neg hle
    · rfl

variable {offset : U64} {bytes : List U8} {i : Nat}

theorem writeSlice_eq_some (h : ram.writeSlice offset bytes = some ram') :
    ∃ hle : offset.toNat + bytes.length ≤ ram.size, ram' = ram.stored offset.toNat bytes hle := by
  rw [writeSlice_eq] at h
  split at h
  · exact ⟨‹_›, by simpa using h.symm⟩
  · simp at h

theorem take_toLE {w : Nat} (n m : Nat) (v : BitVec w) (h : m ≤ n) :
    (Bytes.toLE n v).take m = Bytes.toLE m v := by
  induction m generalizing n v with
  | zero => simp [Bytes.toLE]
  | succ m ih =>
    obtain ⟨n, rfl⟩ : ∃ k, n = k + 1 := ⟨n - 1, by omega⟩
    simp [Bytes.toLE, ih n (v >>> 8) (by omega)]

theorem write_eq (ram : Ram) (offset val : U64) (size : Nat) (h : size ≤ 8) :
    ram.write offset val size = ram.writeSlice offset (Bytes.toLE size val) := by
  simp [write, h, take_toLE 8 size val h]

def pagesOf (start len : Nat) : Finset Nat :=
  (Finset.Ico start (start + len)).image (· / PAGE_SIZE)

theorem pagesOf_eq {start len : Nat} (h : len ≠ 0) :
    pagesOf start len = Finset.Icc (start >>> PAGE_SHIFT) ((start + len - 1) >>> PAGE_SHIFT) := by
  ext p
  simp only [pagesOf, PAGE_SIZE, PAGE_SHIFT, Nat.shiftRight_eq_div_pow, Finset.mem_image,
    Finset.mem_Ico, Finset.mem_Icc]
  constructor
  · rintro ⟨i, hi, rfl⟩
    omega
  · intro hp
    exact ⟨max start (4096 * p), by omega, by omega⟩

section Stored

variable {start : Nat} (h : start + bytes.length ≤ ram.size)

@[simp] theorem size_stored : (ram.stored start bytes h).size = ram.size := by
  unfold stored bumpPageGenerations
  split <;> rfl

@[simp] theorem data_stored :
    (ram.stored start bytes h).data = Bytes.splice ram.data start bytes := by
  unfold stored bumpPageGenerations
  split <;> rfl

theorem writes_stored (i : Nat) :
    (ram.stored start bytes h).writes i =
      if start ≤ i ∧ i < start + bytes.length then ram.writes i + 1 else ram.writes i := by
  unfold stored bumpPageGenerations
  split <;> rfl

theorem pageGenerations_stored (p : Nat) :
    (ram.stored start bytes h).pageGenerations p =
      ram.pageGenerations p + if p ∈ pagesOf start bytes.length then 1 else 0 := by
  unfold stored bumpPageGenerations
  by_cases hlen : bytes.length = 0
  · simp [hlen, pagesOf, copyFromSlice]
  · rw [if_neg hlen, pagesOf_eq hlen]
    simp only [Finset.mem_Icc]
    split <;> rfl

end Stored

/-! ## What writes can do -/

/-- `b` is `a` after some writes: a byte that was not written is unchanged, and a page with a
written byte has a larger generation. -/
structure Evolves (a b : Ram) : Prop where
  size : b.size = a.size
  writes_le : ∀ i, a.writes i ≤ b.writes i
  data_eq : ∀ i, a.writes i = b.writes i → a.data i = b.data i
  generations_le : ∀ p, a.pageGenerations p ≤ b.pageGenerations p
  generations_lt : ∀ i, a.writes i < b.writes i →
    a.pageGenerations (i / 4096) < b.pageGenerations (i / 4096)

namespace Evolves

@[refl] theorem refl (a : Ram) : Evolves a a :=
  ⟨rfl, fun _ => le_rfl, fun _ _ => rfl, fun _ => le_rfl, fun _ h => absurd h (lt_irrefl _)⟩

theorem trans {a b c : Ram} (hab : Evolves a b) (hbc : Evolves b c) : Evolves a c := by
  refine ⟨hbc.size.trans hab.size, fun i => (hab.writes_le i).trans (hbc.writes_le i), ?_,
    fun p => (hab.generations_le p).trans (hbc.generations_le p), ?_⟩
  · intro i hi
    have h₁ := hab.writes_le i
    have h₂ := hbc.writes_le i
    exact (hab.data_eq i (by omega)).trans (hbc.data_eq i (by omega))
  · intro i hi
    have h₁ := hab.generations_le (i / 4096)
    have h₂ := hbc.generations_le (i / 4096)
    rcases Nat.lt_or_ge (a.writes i) (b.writes i) with hlt | hge
    · have := hab.generations_lt i hlt
      omega
    · have := hbc.generations_lt i (by omega)
      omega

instance : IsPreorder Ram Evolves where
  refl := refl
  trans _ _ _ := trans

/-- A page whose generation stands still keeps its bytes. -/
theorem data_eq_of_generation {a b : Ram} (h : Evolves a b) {i : Nat}
    (hg : b.pageGenerations (i / 4096) = a.pageGenerations (i / 4096)) : a.data i = b.data i := by
  apply h.data_eq
  by_contra hne
  have hlt := h.generations_lt i (lt_of_le_of_ne (h.writes_le i) hne)
  omega

end Evolves

theorem evolves_stored {start : Nat} (h : start + bytes.length ≤ ram.size) :
    Evolves ram (ram.stored start bytes h) := by
  refine ⟨size_stored h, ?_, ?_, ?_, ?_⟩
  · intro i
    rw [writes_stored]
    split <;> omega
  · intro i hi
    rw [writes_stored] at hi
    by_contra hne
    have hin := Bytes.splice_ne (Ne.symm (by simpa using hne))
    rw [if_pos hin] at hi
    omega
  · intro p
    rw [pageGenerations_stored]
    exact Nat.le_add_right _ _
  · intro i hi
    rw [writes_stored] at hi
    have hin : start ≤ i ∧ i < start + bytes.length := by
      by_contra hout
      rw [if_neg hout] at hi
      omega
    have hpage : i / 4096 ∈ pagesOf start bytes.length :=
      Finset.mem_image_of_mem _ (Finset.mem_Ico.mpr hin)
    rw [pageGenerations_stored, if_pos hpage]
    exact Nat.lt_succ_self _

theorem evolves_noteMark (ram : Ram) (start : Nat) : Evolves ram (ram.noteMark start) :=
  ⟨rfl, fun _ => le_rfl, fun _ _ => rfl, fun _ => le_rfl, fun _ h => absurd h (lt_irrefl _)⟩

theorem evolves_writeSlice (h : ram.writeSlice offset bytes = some ram') : Evolves ram ram' := by
  rcases writeSlice_eq_some h with ⟨hle, rfl⟩
  exact evolves_stored hle

theorem evolves_write {val : U64} {size : Nat} (h : ram.write offset val size = some ram') :
    Evolves ram ram' := by
  unfold write at h
  split at h
  · exact evolves_writeSlice h
  · simp at h

/-! ## Snapshots -/

def RAM_SECTION_VERSION : U16 := 1

def page (ram : Ram) (index : Nat) : List U8 :=
  Bytes.slice ram.data (index * PAGE_SIZE) (min PAGE_SIZE (ram.size - index * PAGE_SIZE))

def nonzeroPages (ram : Ram) : List Nat :=
  (List.range ram.pageCount).filter fun index => (ram.page index).any (· ≠ 0)

def nonzeroPageCount (ram : Ram) : U64 :=
  BitVec.ofNat 64 ram.nonzeroPages.length

def pageRecord (ram : Ram) (index : Nat) : List U8 :=
  Writer.u64 (BitVec.ofNat 64 index) ++ ram.page index

def snapshotBody (ram : Ram) : List U8 :=
  Writer.u64 (BitVec.ofNat 64 ram.size) ++
    (Writer.u64 ram.nonzeroPageCount ++ ram.nonzeroPages.flatMap ram.pageRecord)

def snapshot (ram : Ram) : List U8 :=
  Writer.sectionOf RAM_SECTION_VERSION ram.snapshotBody

def readPage (ram : Ram) : Read (U64 × List U8) := do
  let index ← Reader.u64
  if ram.pageCount ≤ index.toNat then
    throw ("page index " ++ toString index.toNat ++ " is outside RAM")
  else
    let start := index.toNat * PAGE_SIZE
    let bytes ← Reader.raw (min PAGE_SIZE (ram.size - start))
    pure (index, bytes.1)

def readPages (ram : Ram) : Read (List (U64 × List U8)) := do
  let size ← Reader.u64
  if size ≠ BitVec.ofNat 64 ram.size then
    throw ("RAM size " ++ toString size.toNat ++ " does not match this machine's " ++
      toString ram.size)
  else
    let count ← Reader.u64
    if ram.pageCount < count.toNat then
      throw (toString count.toNat ++ " pages is more than the " ++ toString ram.pageCount ++
        " in RAM")
    else
      let pages ← Cursor.readMany (fun _ => ram.readPage) 0 count.toNat
      pure pages.1

/-- Copy one restored page; it counts as written once. -/
def restorePage (ram : Ram) (page : U64 × List U8) : Ram :=
  { ram with
    data := fun i =>
      if i < ram.size then Bytes.splice ram.data (page.1.toNat * PAGE_SIZE) page.2 i else 0
    pageGenerations := fun p => if p = page.1.toNat then 1 else ram.pageGenerations p
    touchedPages := ram.touchedPages + 1
    data_zero := fun i hi => by simp [Nat.not_lt.mpr hi] }

def restore (ram : Ram) : Read Ram := do
  let pages ← Reader.readSection "ram" RAM_SECTION_VERSION ram.readPages
  pure (pages.foldl restorePage (new ram.size ram.size_lt))

theorem size_foldl_restorePage (pages : List (U64 × List U8)) (acc : Ram) :
    (pages.foldl restorePage acc).size = acc.size := by
  induction pages generalizing acc with
  | nil => rfl
  | cons page pages ih => exact ih _

end Ram

end EmulateComputer
