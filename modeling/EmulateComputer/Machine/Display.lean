import EmulateComputer.Cpu.Frame
import EmulateComputer.Lib.Versioned
import EmulateComputer.Machine.Snapshot

/-!
# Display — the dirty-row scan and the host's copy of the screen

The picture is the window of guest RAM, or the blitter's front buffer once the guest has presented.
The host keeps a copy and refreshes the rows that each scan reports.

A row of the window is a versioned source: its version is the number of writes to its two pages.
Every generation the display keeps beside a row (in the front buffer, in the host's view) tags a
copy of that source; two further values mark rows that were never seen and rows of a restored front
buffer.  `Tracked` says so, every operation keeps it, and a scan that finds a row's tag unchanged
may therefore leave the host's copy alone.
-/

namespace EmulateComputer

open Effect Framebuffer Versioned

/-! ## The scan -/

namespace Machine

variable {β ν : Type}

def hasFramebuffer (m : Machine β ν) : Bool :=
  decide (FB_RAM_OFFSET + FB_BYTES ≤ m.bus.ram.size)

/-- The generations of the active rows, from the front buffer or from RAM. -/
def shownGenerations (d : FramebufferBlitter) (ram : Ram) : List U64 :=
  if d.committed then d.generations.take d.active.2.toNat
  else rowGenerations
    (ram.pageGenerationsIn FB_FIRST_PAGE (d.active.2.toNat * FB_PAGES_PER_ROW))

/-- Rows written since the last call, appended to `out`. -/
def framebufferDirtyRows (m : Machine β ν) (out : List U32) : List U32 × Machine β ν :=
  let d := m.bus.framebufferBlitter
  let view := if d.geometryChanged then m.framebuffer.markAllDirty else m.framebuffer
  let r := view.scan (shownGenerations d m.bus.ram) out
  (r.2,
    { m with
      framebuffer := r.1
      bus := { m.bus with framebufferBlitter := { d with geometryChanged := false } } })

def framebufferMarkAllDirty (m : Machine β ν) : Machine β ν :=
  { m with framebuffer := m.framebuffer.markAllDirty }

def framebufferRow (m : Machine β ν) (row : U32) : List U8 :=
  if m.bus.framebufferBlitter.active.2 ≤ row then []
  else if m.bus.framebufferBlitter.committed then m.bus.framebufferBlitter.row row.toNat
  else
    (m.bus.ram.readSlice (BitVec.ofNat 64 (FB_RAM_OFFSET + row.toNat * FB_STRIDE))
      FB_STRIDE).getD []

end Machine

/-! ## Rows as versioned sources -/

namespace Display

def ROWS : Nat := 2048

/-- Marks a row the host has never seen. -/
def UNSEEN : U64 := BitVec.allOnes 64

/-- Marks a row of a front buffer that came with a snapshot. -/
def RESTORED : U64 := BitVec.allOnes 64 - 1

def rowSource (ram : Ram) (row : Nat) : Source (List U8) :=
  { version := ram.pageGenerations (FB_FIRST_PAGE + row * FB_PAGES_PER_ROW) +
      ram.pageGenerations (FB_FIRST_PAGE + row * FB_PAGES_PER_ROW + 1)
    content := Bytes.slice ram.data (FB_RAM_OFFSET + row * FB_STRIDE) FB_STRIDE }

/-- No row has been written so often that its generation shows one of the marks or wraps. -/
def Unwrapped (ram : Ram) : Prop :=
  ∀ row < ROWS, (rowSource ram row).version < 2 ^ 64 - 2

variable {ram ram' : Ram}

theorem advances_of_evolves (h : Ram.Evolves ram ram') (row : Nat) :
    (rowSource ram row).Advances (rowSource ram' row) := by
  have hfirst := h.generations_le (FB_FIRST_PAGE + row * FB_PAGES_PER_ROW)
  have hsecond := h.generations_le (FB_FIRST_PAGE + row * FB_PAGES_PER_ROW + 1)
  refine ⟨Nat.add_le_add hfirst hsecond, fun hsame => ?_⟩
  simp only [rowSource] at hsame
  refine Bytes.slice_congr fun i hlo hhi => (h.data_eq_of_generation ?_).symm
  -- A byte of the row lies in one of its two pages, and neither has been written.
  have hpage : i / 4096 = FB_FIRST_PAGE + row * FB_PAGES_PER_ROW ∨
      i / 4096 = FB_FIRST_PAGE + row * FB_PAGES_PER_ROW + 1 := by
    simp only [FB_RAM_OFFSET, FB_STRIDE, FB_FIRST_PAGE, FB_PAGES_PER_ROW] at hlo hhi ⊢
    omega
  rcases hpage with hpage | hpage
  · rw [hpage]
    omega
  · rw [hpage]
    omega

theorem Unwrapped.of_evolves (h : Unwrapped ram') (hram : Ram.Evolves ram ram') : Unwrapped ram :=
  fun row hrow => (advances_of_evolves hram row).version_le.trans_lt (h row hrow)

/-- The generation the source reads for a row. -/
def rowGeneration (ram : Ram) (row : Nat) : U64 :=
  ram.generation (FB_FIRST_PAGE + row * FB_PAGES_PER_ROW) +
    ram.generation (FB_FIRST_PAGE + row * FB_PAGES_PER_ROW + 1)

theorem rowGeneration_eq (ram : Ram) (row : Nat) :
    rowGeneration ram row = BitVec.ofNat 64 (rowSource ram row).version := by
  simp only [rowGeneration, Ram.generation, rowSource, BitVec.ofNat_add]

theorem toNat_rowGeneration (h : Unwrapped ram) {row : Nat} (hrow : row < ROWS) :
    (rowGeneration ram row).toNat = (rowSource ram row).version := by
  have := h row hrow
  rw [rowGeneration_eq, BitVec.toNat_ofNat]
  omega

theorem pageGenerationsIn_eq (hwindow : FB_RAM_OFFSET + FB_BYTES ≤ ram.size) {n : Nat}
    (hn : n ≤ ROWS) :
    rowGenerations (ram.pageGenerationsIn FB_FIRST_PAGE (n * FB_PAGES_PER_ROW)) =
      (List.range n).map (rowGeneration ram) := by
  have hpages : FB_FIRST_PAGE + n * FB_PAGES_PER_ROW ≤ ram.pageCount := by
    simp only [FB_RAM_OFFSET, FB_BYTES, FB_FIRST_PAGE, FB_PAGES_PER_ROW, Ram.pageCount,
      Ram.PAGE_SIZE, ROWS] at *
    omega
  rw [Ram.pageGenerationsIn, if_pos hpages, rowGenerations_map]
  rfl

/-! ## The invariant -/

/-- A row of the front buffer: copied at its generation, or brought by a snapshot. -/
def FrontRow (history : Nat → List U8) (source : Source (List U8)) (generation : U64)
    (pixels : List U8) : Prop :=
  generation = RESTORED ∨ Copy history source generation.toNat pixels

/-- The host's copy of a row: never refreshed, taken at its generation, or taken from a restored
row, which it equals as long as that row is shown. -/
def SeenRow (history : Nat → List U8) (source : Source (List U8)) (d : FramebufferBlitter)
    (row : Nat) (generation : U64) (pixels : List U8) : Prop :=
  generation = UNSEEN ∨ Copy history source generation.toNat pixels ∨
    generation = RESTORED ∧
      (d.committed = true → d.generations[row]? = some RESTORED → pixels = d.row row)

/-- Every generation kept by the display tags a copy of its row. -/
structure Tracked (history : Nat → Nat → List U8) (d : FramebufferBlitter) (ram : Ram)
    (seen : List U64) (screen : Nat → List U8) : Prop where
  window : FB_RAM_OFFSET + FB_BYTES ≤ ram.size
  records : ∀ row, Records (history row) (rowSource ram row)
  front_length : d.committed = true → d.generations.length = ROWS
  front : d.committed = true → ∀ row generation, d.generations[row]? = some generation →
    FrontRow (history row) (rowSource ram row) generation (d.row row)
  seen_length : seen.length = ROWS
  seen : d.geometryChanged = false → ∀ row < d.active.2.toNat, ∀ generation,
    seen[row]? = some generation →
      SeenRow (history row) (rowSource ram row) d row generation (screen row)

section Tracked

variable {history : Nat → Nat → List U8} {d d' : FramebufferBlitter}
  {seen : List U64} {screen : Nat → List U8}

/-- Writes to RAM extend the history. -/
theorem Tracked.evolves (h : Tracked history d ram seen screen) (hram : Ram.Evolves ram ram') :
    Tracked (fun row => extend (history row) (rowSource ram row) (rowSource ram' row)) d ram' seen
      screen :=
  { h with
    window := hram.size ▸ h.window
    records row := (h.records row).advance (advances_of_evolves hram row)
    front hcommitted row generation hg :=
      (h.front hcommitted row generation hg).imp id fun hcopy =>
        hcopy.advance (advances_of_evolves hram row)
    seen hsame row hrow generation hg :=
      (h.seen hsame row hrow generation hg).imp id fun hseen =>
        hseen.imp (fun hcopy => hcopy.advance (advances_of_evolves hram row)) id }

/-- The command registers and the sizes asked for are no part of the picture. -/
structure SamePicture (d d' : FramebufferBlitter) : Prop where
  front : d'.front = d.front
  generations : d'.generations = d.generations
  active : d'.active = d.active
  geometryChanged : d'.geometryChanged = d.geometryChanged

theorem SamePicture.committed (h : SamePicture d d') : d'.committed = d.committed := by
  unfold FramebufferBlitter.committed
  rw [h.front]

theorem SamePicture.row (h : SamePicture d d') (row : Nat) : d'.row row = d.row row := by
  unfold FramebufferBlitter.row
  rw [h.front]

theorem Tracked.samePicture (h : Tracked history d ram seen screen) (hd : SamePicture d d') :
    Tracked history d' ram seen screen :=
  { h with
    front_length hcommitted := by
      rw [hd.generations]
      exact h.front_length (hd.committed ▸ hcommitted)
    front hcommitted row generation hg := by
      rw [hd.row]
      rw [hd.generations] at hg
      exact h.front (hd.committed ▸ hcommitted) row generation hg
    seen hsame row hrow generation hg := by
      rw [hd.geometryChanged] at hsame
      rw [hd.active] at hrow
      have hseen := h.seen hsame row hrow generation hg
      unfold SeenRow at hseen ⊢
      rwa [hd.committed, hd.generations, hd.row] }

/-- Without a front buffer nothing about it needs to be tracked. -/
theorem Tracked.release (h : Tracked history d ram seen screen) :
    Tracked history d.release ram seen screen :=
  { h with
    front_length hcommitted := nomatch hcommitted
    front hcommitted := nomatch hcommitted
    seen hsame row hrow generation hg :=
      (h.seen hsame row hrow generation hg).imp id fun hseen =>
        hseen.imp id fun hrestored => ⟨hrestored.1, fun hcommitted => nomatch hcommitted⟩ }

/-! ### Present -/

variable {row : Nat}

theorem row_fits (hrow : row < ROWS) : row * FB_STRIDE + FB_STRIDE ≤ FB_BYTES := by
  simp only [FB_STRIDE, FB_BYTES, ROWS] at hrow ⊢
  omega

theorem scanline_window (data : Nat → U8) (hrow : row < ROWS) :
    scanline (Bytes.slice data FB_RAM_OFFSET FB_BYTES) row =
      Bytes.slice data (FB_RAM_OFFSET + row * FB_STRIDE) FB_STRIDE := by
  have hfits := row_fits hrow
  rw [scanline, Bytes.drop_slice, Bytes.take_slice, min_eq_left (by omega)]

theorem row_of_full (hfront : d.front.length = FB_BYTES) (hrow : row < ROWS) :
    d.row row = scanline d.front row := by
  refine if_pos ?_
  rw [hfront, Nat.succ_mul]
  exact row_fits hrow

theorem front_full (h : d.committed = true) : d.front.length = FB_BYTES := by
  rcases d.front_length with hnil | hfull
  · simp [FramebufferBlitter.committed, hnil] at h
  · exact hfull

theorem rowGeneration_ne_restored (hsmall : Unwrapped ram) (hrow : row < ROWS) :
    rowGeneration ram row ≠ RESTORED := by
  intro heq
  have hversion := hsmall row hrow
  rw [← toNat_rowGeneration hsmall hrow, heq] at hversion
  exact absurd hversion (by decide)

section

variable (h : Tracked history d ram seen screen) {pixels : List U8} {gens : List U64}

include h

/-- After a present every row of the front buffer is the row in RAM, at its generation. -/
theorem Tracked.present_rows (hsmall : Unwrapped ram)
    (hd : FramebufferBlitter.Presented d ram d' pixels gens) :
    d'.generations.length = ROWS ∧ ∀ row < ROWS,
      d'.generations[row]? = some (rowGeneration ram row) ∧
        d'.row row = (rowSource ram row).content := by
  have hpixels : pixels = Bytes.slice ram.data FB_RAM_OFFSET FB_BYTES := by
    have hread := hd.read
    rw [Ram.readSlice_eq, if_pos (by simpa [FB_RAM_OFFSET] using h.window)] at hread
    simpa [FB_RAM_OFFSET] using hread.symm
  have hlength : pixels.length = FB_BYTES := by
    rw [hpixels, Bytes.length_slice]
  have hgens : gens = (List.range ROWS).map (rowGeneration ram) :=
    hd.gens_eq.trans (pageGenerationsIn_eq h.window le_rfl)
  have hgen : ∀ row < ROWS, gens[row]? = some (rowGeneration ram row) := by
    intro row hrow
    simp [hgens, hrow]
  cases hcommitted : d.committed with
  | false =>
    have hempty : d.front.isEmpty = true := by
      simpa [FramebufferBlitter.committed] using hcommitted
    have hfront := hd.front
    have hgenerations := hd.generations
    rw [if_pos hempty] at hfront hgenerations
    refine ⟨by rw [hgenerations, hgens]; simp, fun row hrow => ⟨?_, ?_⟩⟩
    · rw [hgenerations]
      exact hgen row hrow
    · rw [row_of_full (by rw [hfront, hlength]) hrow, hfront, hpixels]
      exact scanline_window ram.data hrow
  | true =>
    have hempty : ¬ d.front.isEmpty = true := by
      simpa [FramebufferBlitter.committed] using hcommitted
    have hfront := hd.front
    have hgenerations := hd.generations
    rw [if_neg hempty] at hfront hgenerations
    have hlen := h.front_length hcommitted
    have hfull := front_full hcommitted
    refine ⟨by rw [hgenerations, length_adopt (by simp [hgens, hlen]), hlen],
      fun row hrow => ⟨?_, ?_⟩⟩
    · rw [hgenerations, getElem?_adopt (by omega), if_pos (by simp [hgens, hrow])]
      exact hgen row hrow
    · obtain ⟨g, hg⟩ : ∃ g, d.generations[row]? = some g :=
        ⟨_, List.getElem?_eq_getElem (by omega)⟩
      have hline := FramebufferBlitter.scanline_updateRows (hgen row hrow) hg
        (by rw [hfull, Nat.succ_mul]; exact row_fits hrow) (hlength.trans hfull.symm)
      rw [row_of_full ?_ hrow, hfront, hline]
      · split
        · rw [hpixels]
          exact scanline_window ram.data hrow
        · next hsame =>
          -- An unchanged generation: the front buffer holds the row already.
          rw [not_not] at hsame
          subst hsame
          rcases h.front hcommitted row _ hg with hrestored | hcopy
          · exact absurd hrestored (rowGeneration_ne_restored hsmall hrow)
          · rw [toNat_rowGeneration hsmall hrow] at hcopy
            rw [← row_of_full hfull hrow]
            exact hcopy.eq_content (h.records row)
      · rw [hfront, FramebufferBlitter.length_updateRows _ _ _ _ (hlength.trans hfull.symm), hfull]

theorem Tracked.present (hsmall : Unwrapped ram)
    (hd : FramebufferBlitter.Presented d ram d' pixels gens) :
    Tracked history d' ram seen screen := by
  obtain ⟨hlength, hrows⟩ := h.present_rows hsmall hd
  refine ⟨h.window, h.records, fun _ => hlength, ?_, h.seen_length, ?_⟩
  · intro _ row generation hg
    have hrow : row < ROWS := by
      rw [← hlength]
      exact (List.getElem?_eq_some_iff.mp hg).1
    obtain ⟨hgeneration, hcontent⟩ := hrows row hrow
    obtain rfl := Option.some.inj (hg.symm.trans hgeneration)
    refine .inr ?_
    rw [toNat_rowGeneration hsmall hrow, hcontent]
    exact (h.records row).copy
  · intro hsame row hrow generation hg
    rw [hd.geometryChanged, Bool.or_eq_false_iff, decide_eq_false_iff_not, not_not] at hsame
    rw [hd.active, ← hsame.2] at hrow
    have hbelow : row < ROWS := by
      rw [← h.seen_length]
      exact (List.getElem?_eq_some_iff.mp hg).1
    refine (h.seen hsame.1 row hrow generation hg).imp id fun hseen => hseen.imp id fun hrestored =>
      ⟨hrestored.1, fun _ hmark => ?_⟩
    exact absurd (Option.some.inj ((hrows row hbelow).1.symm.trans hmark))
      (rowGeneration_ne_restored hsmall hbelow)

/-! ### Fresh views and fresh pictures -/

/-- A view that has seen nothing tracks any screen. -/
theorem Tracked.unseen (screen' : Nat → List U8) :
    Tracked history d ram (seen.map fun _ => UNSEEN) screen' :=
  { h with
    seen_length := by simp [h.seen_length]
    seen _ row _ generation hg := by
      rw [List.getElem?_map, Option.map_eq_some_iff] at hg
      obtain ⟨_, -, rfl⟩ := hg
      exact .inl rfl }

end

/-- At reset and after a restore nothing is known of earlier pictures. -/
theorem tracked_fresh (hwindow : FB_RAM_OFFSET + FB_BYTES ≤ ram.size)
    (hfront : d.committed = true → d.generations = List.replicate ROWS RESTORED)
    (hlength : seen.length = ROWS)
    (hseen : d.geometryChanged = true ∨ ∀ generation ∈ seen, generation = UNSEEN) :
    Tracked (fun row _ => (rowSource ram row).content) d ram seen screen where
  window := hwindow
  records _ := rfl
  front_length hcommitted := by rw [hfront hcommitted, List.length_replicate]
  front hcommitted row generation hg := by
    rw [hfront hcommitted] at hg
    exact .inl (List.eq_of_mem_replicate (List.mem_of_getElem? hg))
  seen_length := hlength
  seen hsame row _ generation hg := by
    rcases hseen with hchanged | hunseen
    · rw [hchanged] at hsame
      cases hsame
    · exact .inl (hunseen generation (List.mem_of_getElem? hg))

/-! ### Scan -/

def shownRow (d : FramebufferBlitter) (ram : Ram) (row : Nat) : List U8 :=
  if d.committed then d.row row else (rowSource ram row).content

theorem active_le (d : FramebufferBlitter) : d.active.2.toNat ≤ ROWS := by
  have hvalid := d.active_valid
  simp only [validSize, Bool.and_eq_true, decide_eq_true_eq] at hvalid
  exact hvalid.2

section

variable (h : Tracked history d ram seen screen)

include h

/-- The generation a scan finds for an active row tags the row it shows. -/
theorem Tracked.shown (hsmall : Unwrapped ram) (hrow : row < d.active.2.toNat) :
    ∃ generation, (Machine.shownGenerations d ram)[row]? = some generation ∧
      generation ≠ UNSEEN ∧
        ((generation = RESTORED ∧ d.committed = true ∧ d.generations[row]? = some RESTORED) ∨
          Copy (history row) (rowSource ram row) generation.toNat (shownRow d ram row)) := by
  have hbelow : row < ROWS := hrow.trans_le (active_le d)
  have hbound : ∀ {g : U64} {a : List U8},
      Copy (history row) (rowSource ram row) g.toNat a → g ≠ UNSEEN := by
    intro g a hcopy heq
    have hle := hcopy.tag_le.trans_lt (hsmall row hbelow)
    rw [heq] at hle
    exact absurd hle (by decide)
  unfold Machine.shownGenerations shownRow
  cases hcommitted : d.committed with
  | true =>
    obtain ⟨g, hg⟩ : ∃ g, d.generations[row]? = some g :=
      ⟨_, List.getElem?_eq_getElem (by rw [h.front_length hcommitted]; exact hbelow)⟩
    refine ⟨g, by simp [hrow, hg], ?_⟩
    rcases h.front hcommitted row g hg with hrestored | hcopy
    · subst hrestored
      exact ⟨by decide, .inl ⟨rfl, rfl, hg⟩⟩
    · exact ⟨hbound hcopy, .inr hcopy⟩
  | false =>
    have hcopy := (h.records row).copy
    rw [← toNat_rowGeneration hsmall hbelow] at hcopy
    refine ⟨rowGeneration ram row, ?_, hbound hcopy, .inr hcopy⟩
    rw [pageGenerationsIn_eq h.window (active_le d)]
    simp [hrow]

/-- What the view has seen when a scan starts to compare. -/
def comparedWith (d : FramebufferBlitter) (seen : List U64) : List U64 :=
  if d.geometryChanged then seen.map fun _ => UNSEEN else seen

theorem Tracked.length_comparedWith : (comparedWith d seen).length = ROWS := by
  unfold comparedWith
  split
  · rw [List.length_map, h.seen_length]
  · exact h.seen_length

/-- A row whose generation has been seen is on the screen. -/
theorem Tracked.screen_of_seen (hsmall : Unwrapped ram) (hrow : row < d.active.2.toNat)
    {generation : U64} (hshown : (Machine.shownGenerations d ram)[row]? = some generation)
    (hseen : (comparedWith d seen)[row]? = some generation) : screen row = shownRow d ram row := by
  obtain ⟨g, hg, hunseen, htag⟩ := h.shown hsmall hrow
  obtain rfl : generation = g := Option.some.inj (hshown.symm.trans hg)
  have hbelow : row < ROWS := hrow.trans_le (active_le d)
  have hrestored : ∀ {a : List U8},
      Copy (history row) (rowSource ram row) RESTORED.toNat a → False := by
    intro a hcopy
    exact absurd (hcopy.tag_le.trans_lt (hsmall row hbelow)) (by decide)
  unfold comparedWith at hseen
  split at hseen
  · rw [List.getElem?_map, Option.map_eq_some_iff] at hseen
    obtain ⟨_, -, rfl⟩ := hseen
    exact absurd rfl hunseen
  · next hsame =>
    rcases h.seen (by simpa using hsame) row hrow generation hseen with rfl | hcopy | ⟨rfl, hkept⟩
    · exact absurd rfl hunseen
    · rcases htag with ⟨rfl, -⟩ | hshownCopy
      · exact (hrestored hcopy).elim
      · exact hcopy.unique hshownCopy
    · rcases htag with ⟨-, hcommitted, hmark⟩ | hshownCopy
      · rw [hkept hcommitted hmark, shownRow, if_pos hcommitted]
      · exact (hrestored hshownCopy).elim

/-- A screen that shows every active row is tracked by the generations of the scan. -/
theorem Tracked.scanned (hsmall : Unwrapped ram) {screen' : Nat → List U8}
    (hscreen : ∀ row < d.active.2.toNat, screen' row = shownRow d ram row) :
    Tracked history { d with geometryChanged := false } ram
      (adopt (Machine.shownGenerations d ram) (comparedWith d seen)) screen' := by
  have hlength := h.length_comparedWith
  have hshown : (Machine.shownGenerations d ram).length ≤ d.active.2.toNat := by
    unfold Machine.shownGenerations
    split
    · exact List.length_take_le _ _
    · rw [pageGenerationsIn_eq h.window (active_le d)]
      simp
  refine ⟨h.window, h.records, h.front_length, h.front, ?_, ?_⟩
  · rw [length_adopt (by rw [hlength]; exact hshown.trans (active_le d)), hlength]
  · intro _ row hrow generation hg
    obtain ⟨g, hshownAt, -, htag⟩ := h.shown hsmall hrow
    have hin := (List.getElem?_eq_some_iff.mp hshownAt).1
    rw [getElem?_adopt (by rw [hlength]; exact hrow.trans_le (active_le d)), if_pos hin] at hg
    obtain rfl : g = generation := Option.some.inj (hshownAt.symm.trans hg)
    rw [hscreen row hrow]
    rcases htag with ⟨rfl, hcommitted, -⟩ | hcopy
    · exact .inr (.inr ⟨rfl, fun _ _ => if_pos hcommitted⟩)
    · exact .inr (.inl hcopy)

end

end Tracked

/-! ## The host -/

/-- A machine and the host's copy of its screen. -/
structure Host (β ν : Type) where
  machine : Machine β ν
  screen : U32 → List U8

namespace Host

variable {β ν : Type} {m : Machine β ν} {host : Host β ν}

/-- Ask for the dirty rows and refresh exactly these. -/
def scan (host : Host β ν) : Host β ν :=
  let r := host.machine.framebufferDirtyRows []
  { machine := r.2
    screen := fun row => if row ∈ r.1 then r.2.framebufferRow row else host.screen row }

def IsTracked (host : Host β ν) : Prop :=
  ∃ history, Tracked history host.machine.bus.framebufferBlitter host.machine.bus.ram
    host.machine.framebuffer.seen fun row => host.screen (BitVec.ofNat 32 row)

def Mirrors (host : Host β ν) : Prop :=
  ∀ row < host.machine.bus.framebufferBlitter.active.2,
    host.screen row = host.machine.framebufferRow row

theorem framebufferRow_eq (hwindow : FB_RAM_OFFSET + FB_BYTES ≤ m.bus.ram.size)
    {row : U32} (hrow : row < m.bus.framebufferBlitter.active.2) :
    m.framebufferRow row = shownRow m.bus.framebufferBlitter m.bus.ram row.toNat := by
  have hbelow : row.toNat < ROWS := Nat.lt_of_lt_of_le hrow (active_le _)
  have hoffset : (BitVec.ofNat 64 (FB_RAM_OFFSET + row.toNat * FB_STRIDE)).toNat =
      FB_RAM_OFFSET + row.toNat * FB_STRIDE := by
    rw [BitVec.toNat_ofNat]
    simp only [FB_RAM_OFFSET, FB_STRIDE, ROWS] at hbelow ⊢
    omega
  have hrow' := row_fits hbelow
  have hfits : FB_RAM_OFFSET + row.toNat * FB_STRIDE + FB_STRIDE ≤ m.bus.ram.size := by
    omega
  have hread : m.bus.ram.readSlice (BitVec.ofNat 64 (FB_RAM_OFFSET + row.toNat * FB_STRIDE))
      FB_STRIDE = some (rowSource m.bus.ram row.toNat).content := by
    rw [Ram.readSlice_eq, hoffset, if_pos hfits]
    rfl
  unfold Machine.framebufferRow shownRow
  rw [if_neg (BitVec.not_le.mpr hrow), hread]
  rfl

theorem seen_scan (host : Host β ν) :
    host.scan.machine.framebuffer.seen =
      adopt (Machine.shownGenerations host.machine.bus.framebufferBlitter host.machine.bus.ram)
        (comparedWith host.machine.bus.framebufferBlitter host.machine.framebuffer.seen) := by
  simp only [scan, Machine.framebufferDirtyRows, FramebufferView.scan, comparedWith]
  split <;> rfl

theorem mem_dirtyRows {row : U32} :
    row ∈ (m.framebufferDirtyRows []).1 ↔
      ∃ i g s, (Machine.shownGenerations m.bus.framebufferBlitter m.bus.ram)[i]? = some g ∧
        (comparedWith m.bus.framebufferBlitter m.framebuffer.seen)[i]? = some s ∧ g ≠ s ∧
          row = BitVec.ofNat 32 i := by
  rw [← mem_changedRows]
  simp only [Machine.framebufferDirtyRows, FramebufferView.scan, comparedWith, List.nil_append]
  split <;> rfl

/-- After a scan and its refresh the host's copy is the picture. -/
theorem mirrors_scan (h : host.IsTracked)
    (hsmall : Unwrapped host.machine.bus.ram) : host.scan.Mirrors := by
  obtain ⟨history, h⟩ := h
  intro row hrow
  have hrow' : row.toNat < host.machine.bus.framebufferBlitter.active.2.toNat := hrow
  change (if row ∈ (host.machine.framebufferDirtyRows []).1 then
    host.scan.machine.framebufferRow row else host.screen row) = _
  split
  · rfl
  · next hclean =>
    rw [framebufferRow_eq (m := host.scan.machine) h.window hrow]
    obtain ⟨g, hg, -⟩ := h.shown hsmall hrow'
    obtain ⟨s, hs⟩ : ∃ s, (comparedWith host.machine.bus.framebufferBlitter
        host.machine.framebuffer.seen)[row.toNat]? = some s :=
      ⟨_, List.getElem?_eq_getElem
        (by rw [h.length_comparedWith]; exact hrow'.trans_le (active_le _))⟩
    -- The row was not reported, so its generation had been seen.
    have hsame : g = s := by
      by_contra hne
      exact hclean (mem_dirtyRows.mpr ⟨row.toNat, g, s, hg, hs, hne, by simp⟩)
    subst hsame
    have hscreen : host.screen row = shownRow host.machine.bus.framebufferBlitter
        host.machine.bus.ram row.toNat := by
      simpa using h.screen_of_seen hsmall hrow' hg hs
    exact hscreen

theorem isTracked_scan (h : host.IsTracked)
    (hsmall : Unwrapped host.machine.bus.ram) : host.scan.IsTracked := by
  have hmirrors := mirrors_scan h hsmall
  obtain ⟨history, h⟩ := h
  refine ⟨history, ?_⟩
  rw [seen_scan]
  refine h.scanned hsmall fun row hrow => ?_
  have hbound : row < 2 ^ 32 := hrow.trans (BitVec.isLt _)
  have hnat : (BitVec.ofNat 32 row).toNat = row := by
    rw [BitVec.toNat_ofNat, Nat.mod_eq_of_lt hbound]
  have hlt : BitVec.ofNat 32 row < host.machine.bus.framebufferBlitter.active.2 := by
    rw [BitVec.lt_def, hnat]
    exact hrow
  rw [hmirrors _ hlt, framebufferRow_eq (m := host.scan.machine) h.window hlt, hnat]
  rfl

end Host

/-! ## What the guest can do to the picture -/

/-- The display is still tracked, unless a row has been written too often. -/
def Repaints (s t : FramebufferBlitter × Ram) : Prop :=
  Ram.Evolves s.2 t.2 ∧ (Unwrapped t.2 → ∀ seen screen,
    (∃ history, Tracked history s.1 s.2 seen screen) →
      ∃ history, Tracked history t.1 t.2 seen screen)

instance : IsPreorder (FramebufferBlitter × Ram) Repaints where
  refl s := ⟨Ram.Evolves.refl s.2, fun _ _ _ h => h⟩
  trans _ _ _ := fun ⟨hram, h⟩ ⟨hram', h'⟩ => ⟨hram.trans hram', fun hsmall seen screen htracked =>
    h' hsmall seen screen (h (hsmall.of_evolves hram') seen screen htracked)⟩

theorem repaints_of_evolves (d : FramebufferBlitter) (h : Ram.Evolves ram ram') :
    Repaints (d, ram) (d, ram') :=
  ⟨h, fun _ _ _ ⟨_, htracked⟩ => ⟨_, htracked.evolves h⟩⟩

theorem repaints_of_samePicture {d d' : FramebufferBlitter} (h : SamePicture d d') (ram : Ram) :
    Repaints (d, ram) (d', ram) :=
  ⟨Ram.Evolves.refl ram, fun _ _ _ ⟨history, htracked⟩ => ⟨history, htracked.samePicture h⟩⟩

theorem samePicture_setRegister (d : FramebufferBlitter) (index : Fin 7) (value : U32) :
    SamePicture d (d.setRegister index value) :=
  ⟨rfl, rfl, rfl, rfl⟩

theorem keeps_present : Keeps Repaints FramebufferBlitter.present := by
  intro s
  cases hp : FramebufferBlitter.present s with
  | error e t =>
    have hsame : t = s := by
      unfold FramebufferBlitter.present at hp
      split at hp
      · cases hp
        rfl
      · cases hp
    rw [hsame]
    exact refl_of Repaints s
  | ok a t =>
    obtain ⟨hram, pixels, gens, hpresented⟩ := FramebufferBlitter.present_ok hp
    refine ⟨by rw [EStateM.Result.state_ok, hram], fun hsmall seen screen htracked => ?_⟩
    obtain ⟨history, htracked⟩ := htracked
    rw [EStateM.Result.state_ok, hram] at *
    exact ⟨history, htracked.present hsmall hpresented⟩

theorem keeps_blitRows (row : Ram → Nat → Option (List U8)) (dst : Nat → Nat) (ys : List Nat) :
    Keeps Repaints (FramebufferBlitter.blitRows row dst ys) := by
  induction ys with
  | nil => exact keeps_pure ()
  | cons y ys ih =>
    refine keeps_bind keeps_get fun s => keeps_bind (keeps_ofOption _ _) fun bytes =>
      keeps_bind (fun t => ?_) fun _ => ih
    unfold Virtqueue.writeSlice
    split
    · next ram hram => exact repaints_of_evolves t.1 (Ram.evolves_writeSlice hram)
    · exact refl_of Repaints t

theorem keeps_execute (command : U32) : Keeps Repaints (FramebufferBlitter.execute command) := by
  refine keeps_bind keeps_get fun s => keeps_ite (fun _ => keeps_present) fun _ => keeps_ite
    (fun _ => keeps_modify fun t => ?_) fun _ => keeps_ite (fun _ => keeps_throw ()) fun _ =>
      keeps_ite (fun _ => keeps_blitRows _ _ _) fun _ => keeps_blitRows _ _ _
  exact ⟨Ram.Evolves.refl t.2, fun _ _ _ ⟨history, htracked⟩ => ⟨history, htracked.release⟩⟩

theorem keeps_write (offset value : U64) (size : Nat) :
    Keeps Repaints (FramebufferBlitter.write offset value size) := by
  intro s
  unfold FramebufferBlitter.write
  split
  · exact refl_of Repaints s
  · split
    · dsimp only
      split
      · exact repaints_of_samePicture (by exact ⟨rfl, rfl, rfl, rfl⟩) s.2
      · exact refl_of Repaints s
    · split
      · next h =>
        dsimp only
        have hset : Repaints s (s.1.setRegister ⟨offset.toNat / 4 - 1, h⟩ (value.setWidth 32),
            s.2) := repaints_of_samePicture (samePicture_setRegister _ _ _) s.2
        have hexec := keeps_execute (value.setWidth 32)
          (s.1.setRegister ⟨offset.toNat / 4 - 1, h⟩ (value.setWidth 32), s.2)
        have hstatus : ∀ (t : FramebufferBlitter × Ram) (status : U32),
            Repaints t (t.1.setRegister 0 status, t.2) := fun t status =>
          repaints_of_samePicture (samePicture_setRegister _ _ _) t.2
        split
        · split
          next t heq =>
            rw [heq] at hexec
            exact trans_of Repaints hset (trans_of Repaints hexec (hstatus t 0))
          next t heq =>
            rw [heq] at hexec
            exact trans_of Repaints hset (trans_of Repaints hexec (hstatus t 1))
        · exact hset
      · exact refl_of Repaints s

/-! ### On the bus -/

section Bus

variable {β : Type}

/-- The same, of a bus. -/
def Redraws (bus bus' : Bus β) : Prop :=
  Repaints (bus.framebufferBlitter, bus.ram) (bus'.framebufferBlitter, bus'.ram)

instance : IsPreorder (Bus β) Redraws where
  refl bus := refl_of Repaints (bus.framebufferBlitter, bus.ram)
  trans _ _ _ := trans_of Repaints

theorem redraws_of_evolves {bus bus' : Bus β}
    (hd : bus'.framebufferBlitter = bus.framebufferBlitter) (hram : Ram.Evolves bus.ram bus'.ram) :
    Redraws bus bus' := by
  unfold Redraws
  rw [hd]
  exact repaints_of_evolves _ hram

theorem redraws_flag (bus : Bus β) : Redraws bus { bus with deviceIrqsDirty := true } :=
  refl_of Repaints (bus.framebufferBlitter, bus.ram)

variable [BlockBackend β]

theorem keeps_readDevice (offset : U64) (size : Nat) (r : Region) :
    Keeps Redraws (Bus.readDevice offset size r : Access (Bus β) U64) := by
  cases r with
  | framebufferBlitter =>
    have hread : Keeps Eq (FramebufferBlitter.read offset size) := by
      intro d
      simp only [FramebufferBlitter.read, run_bind, run_get]
      split_ifs <;> rfl
    exact keeps_zoom hread fun bus d h => h ▸ refl_of Repaints (bus.framebufferBlitter, bus.ram)
  | test => exact keeps_pure 0
  | _ =>
    simp only [Bus.readDevice]
    exact keeps_zoom_any fun bus _ =>
      redraws_of_evolves (by rfl) (Ram.Evolves.refl bus.ram)

theorem keeps_busRead (addr : U64) (size : Nat) :
    Keeps Redraws (Bus.read addr size : Access (Bus β) U64) :=
  Bus.keeps_read_of redraws_flag keeps_readDevice addr size

theorem keeps_writeDevice (offset val : U64) (size : Nat) (r : Region) :
    Keeps Redraws (Bus.writeDevice offset val size r : Access (Bus β) Unit) := by
  cases r with
  | virtioConsole =>
    exact keeps_zoom (VirtioConsole.keeps_write _ _ _) fun bus _ h =>
      repaints_of_evolves bus.framebufferBlitter h
  | virtioBlk =>
    exact keeps_zoom (VirtioBlock.keeps_write _ _ _) fun bus _ h =>
      repaints_of_evolves bus.framebufferBlitter h
  | virtioRng =>
    exact keeps_zoom (VirtioEntropy.keeps_write _ _ _) fun bus _ h =>
      repaints_of_evolves bus.framebufferBlitter h
  | virtioNet =>
    exact keeps_zoom (VirtioNet.keeps_write _ _ _) fun bus _ h =>
      repaints_of_evolves bus.framebufferBlitter h
  | virtioKbd | virtioTablet =>
    exact keeps_zoom (VirtioInput.keeps_write _ _ _) fun bus _ h =>
      repaints_of_evolves bus.framebufferBlitter h
  | framebufferBlitter => exact keeps_zoom (keeps_write _ _ _) fun _ _ h => h
  | clint | plic | uart | rtc | simpleIrq =>
    simp only [Bus.writeDevice]
    exact keeps_zoom_any fun bus _ =>
      redraws_of_evolves (by rfl) (Ram.Evolves.refl bus.ram)
  | test =>
    refine keeps_modify fun bus => ?_
    unfold Bus.finish
    split_ifs <;> exact redraws_of_evolves (by rfl) (Ram.Evolves.refl bus.ram)

theorem keeps_busWrite (addr val : U64) (size : Nat) :
    Keeps Redraws (Bus.write addr val size : Access (Bus β) Unit) :=
  Bus.keeps_write_of redraws_flag
    (fun _ _ _ _ _ hwrite => redraws_of_evolves (by rfl) (Ram.evolves_write hwrite))
    keeps_writeDevice addr val size

end Bus

end Display

end EmulateComputer
