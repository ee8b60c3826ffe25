import EmulateComputer.Bus

/-!
# Refusals — which writes the bus refuses

RAM refuses what does not fit.  Below RAM an address belongs to at most one region, and the device
there decides by the offset, the size and, for the geometry register of the blitter, the value;
its state plays no part.  `fails_write_iff` compares this with the static check of the regions.
-/

namespace EmulateComputer

open Effect

namespace Region

/-! ## Regions as ranges -/

def Covers (r : Region) (n : Nat) : Prop :=
  r.base.toNat ≤ n ∧ n < r.base.toNat + r.size.toNat

theorem toNat_end (r : Region) : (r.base + r.size).toNat = r.base.toNat + r.size.toNat := by
  cases r <;> rfl

theorem disjoint (r r' : Region) :
    r = r' ∨ r.base.toNat + r.size.toNat ≤ r'.base.toNat ∨
      r'.base.toNat + r'.size.toNat ≤ r.base.toNat := by
  cases r <;> cases r' <;> decide

theorem eq_of_covers {r r' : Region} {n : Nat} (h : r.Covers n) (h' : r'.Covers n) : r = r' := by
  obtain ⟨hlo, hhi⟩ := h
  obtain ⟨hlo', hhi'⟩ := h'
  rcases disjoint r r' with heq | hbelow | habove
  · exact heq
  · omega
  · omega

/-- Regions do not overlap, so the order in which they are tried does not matter. -/
theorem ofAddr_eq_some_iff (addr : U64) (r : Region) :
    ofAddr addr = some r ↔ r.Covers addr.toNat := by
  have htest : ∀ r : Region, decide (r.base ≤ addr ∧ addr < r.base + r.size) = true ↔
      r.Covers addr.toNat := by
    intro r
    rw [decide_eq_true_iff, BitVec.le_def, BitVec.lt_def, toNat_end]
    rfl
  constructor
  · intro h
    exact (htest r).mp (List.find?_some
      (p := fun r : Region => decide (r.base ≤ addr ∧ addr < r.base + r.size)) h)
  · intro h
    have hmem : r ∈ all := by cases r <;> decide
    cases hfind : ofAddr addr with
    | none => exact absurd ((htest r).mpr h) (List.find?_eq_none.mp hfind r hmem)
    | some r' =>
      have hcovers := List.find?_some
        (p := fun r : Region => decide (r.base ≤ addr ∧ addr < r.base + r.size)) hfind
      rw [eq_of_covers h ((htest r').mp hcovers)]

theorem below_ram {addr : U64} {r : Region} (h : ofAddr addr = some r) : ¬ DRAM_BASE ≤ addr := by
  intro hram
  have hcovers := ((ofAddr_eq_some_iff addr r).1 h).2
  have hbase : 0x80000000 ≤ addr.toNat := BitVec.le_def.1 hram
  have hend : r.base.toNat + r.size.toNat ≤ 0x80000000 := by cases r <;> decide
  omega

/-! ## What a device refuses -/

/-- The device of a region refuses a write of `size` bytes at an offset. -/
def refuses (offset val : U64) (size : Nat) : Region → Bool
  | virtioConsole | virtioBlk | virtioRng | virtioNet => size ≠ 4
  -- The configuration space of an input device takes smaller writes too.
  | virtioKbd | virtioTablet =>
    if VirtioInput.CONFIG_BASE ≤ offset then ¬ (size = 1 ∨ size = 2 ∨ size = 4) else size ≠ 4
  | rtc => size ≠ 4 ∨ GoldfishRtc.updatesAlarm offset = none
  | simpleIrq => (offset ≠ SimpleInterruptGenerator.COMMAND ∨ size ≠ 4) ∧ ¬ offset ≤ 0x1F
  | framebufferBlitter =>
    size ≠ 4 ∨ offset = 0 ∨ 40 < offset ∨ offset.toNat % 4 ≠ 0 ∨ offset = 32 ∨ offset = 36 ∨
      offset = 40 ∧ ¬ Framebuffer.validSize
        (val.setWidth 32 &&& 0xffff, (val.setWidth 32 >>> 16) &&& 0xffff)
  | clint | plic | uart | test => false

end Region

/-- A write that looks at its arguments before it does anything. -/
theorem fails_guarded {σ : Type} {c : Prop} [Decidable c] {x : Access σ Unit} {s : σ}
    (hx : fails x s = false) :
    fails (fun s => if c then .error () s else x s : Access σ Unit) s = decide c := by
  unfold fails at hx ⊢
  by_cases hc : c
  · simp [hc]
  · simp only [hc, if_false, decide_false]
    exact hx

theorem VirtioInput.fails_write {kind : InputKind} (offset val : U64) (size : Nat)
    (s : VirtioInput kind × Ram) :
    fails (VirtioInput.write offset val size) s =
      if VirtioInput.CONFIG_BASE ≤ offset then decide (¬ (size = 1 ∨ size = 2 ∨ size = 4))
      else decide (size ≠ 4) := by
  unfold fails VirtioInput.write
  by_cases hconfig : VirtioInput.CONFIG_BASE ≤ offset
  · simp only [hconfig, if_true]
    by_cases hsize : size = 1 ∨ size = 2 ∨ size = 4
    · simp [hsize]
    · simp [hsize]
  · simp only [hconfig, if_false]
    by_cases hsize : size = 4
    · simp only [hsize, ne_eq, not_true_eq_false, if_false, decide_false]
      split_ifs <;> rfl
    · simp [hsize]

theorem FramebufferBlitter.fails_write (offset val : U64) (size : Nat)
    (s : FramebufferBlitter × Ram) :
    fails (FramebufferBlitter.write offset val size) s =
      Region.framebufferBlitter.refuses offset val size := by
  unfold fails FramebufferBlitter.write Region.refuses
  by_cases hbad : size ≠ 4 ∨ offset = 0 ∨ 40 < offset ∨ offset.toNat % 4 ≠ 0 ∨ offset = 32 ∨
      offset = 36
  · rw [if_pos hbad]
    refine (decide_eq_true ?_).symm
    tauto
  · rw [if_neg hbad]
    have hgood := hbad
    simp only [not_or, not_not] at hgood
    obtain ⟨hsize, hzero, hle, hmod, h32, h36⟩ := hgood
    by_cases hgeometry : offset = 40
    · -- The geometry register checks its value.
      rw [if_pos hgeometry]
      by_cases hvalid : Framebuffer.validSize
          (val.setWidth 32 &&& 0xffff, (val.setWidth 32 >>> 16) &&& 0xffff) = true
      · rw [dif_pos hvalid]
        refine (decide_eq_false ?_).symm
        tauto
      · rw [dif_neg hvalid]
        refine (decide_eq_true ?_).symm
        tauto
    · have hregister : offset.toNat / 4 - 1 < 7 := by
        have hle : offset.toNat ≤ 40 := by simpa [BitVec.lt_def] using hle
        have h40 : offset.toNat ≠ 40 := fun h => hgeometry (BitVec.eq_of_toNat_eq h)
        have h36 : offset.toNat ≠ 36 := fun h => h36 (BitVec.eq_of_toNat_eq h)
        have h32 : offset.toNat ≠ 32 := fun h => h32 (BitVec.eq_of_toNat_eq h)
        omega
      refine Eq.trans (b := false) ?_ (decide_eq_false ?_).symm
      · dsimp only
        split_ifs
        · cases FramebufferBlitter.execute (val.setWidth 32)
            (s.1.setRegister ⟨offset.toNat / 4 - 1, hregister⟩ (val.setWidth 32), s.2) <;> rfl
        · rfl
      · tauto

namespace Bus

variable {β : Type} [BlockBackend β] {bus : Bus β} {size : Nat}

/-- Whether a device refuses a write does not depend on its state. -/
theorem fails_writeDevice (offset val : U64) (size : Nat) (r : Region) (bus : Bus β) :
    fails (writeDevice offset val size r) bus = r.refuses offset val size := by
  cases r with
  | virtioConsole | virtioBlk | virtioRng =>
    refine (fails_zoom ..).trans (fails_guarded (c := size ≠ 4) ?_)
    unfold fails
    dsimp only
    split_ifs <;> rfl
  | virtioNet => exact (fails_zoom ..).trans (fails_guarded (c := size ≠ 4) rfl)
  | virtioKbd | virtioTablet =>
    rw [writeDevice, fails_zoom, VirtioInput.fails_write, Region.refuses]
  | framebufferBlitter => exact (fails_zoom ..).trans (FramebufferBlitter.fails_write ..)
  | clint | plic | uart =>
    rfl
  | test => rfl
  | rtc =>
    rw [writeDevice, fails_zoom, GoldfishRtc.write, fails_ite, Region.refuses]
    by_cases hsize : size = 4
    · simp only [hsize, ne_eq, not_true_eq_false, if_false, false_or]
      cases GoldfishRtc.updatesAlarm offset with
      | none => rfl
      | some updates => cases updates <;> rfl
    · simp [hsize]
  | simpleIrq =>
    rw [writeDevice, fails_zoom, SimpleInterruptGenerator.write, fails_ite,
      fails_ite, Region.refuses]
    by_cases hother : offset ≠ SimpleInterruptGenerator.COMMAND ∨ size ≠ 4
    · by_cases hin : offset ≤ 0x1F
      · rw [if_pos hother, if_pos hin]
        exact (decide_eq_false fun h => h.2 hin).symm
      · rw [if_pos hother, if_neg hin]
        exact (decide_eq_true ⟨hother, hin⟩).symm
    · rw [if_neg hother]
      exact (decide_eq_false fun h => hother h.1).symm

/-! ## What the bus refuses -/

section Whole

variable {addr : U64}

theorem fails_write_ram (h : DRAM_BASE ≤ addr) (hsize : size ≤ 8) (val : U64) :
    fails (write addr val size) bus =
      decide (bus.ram.size < (addr - DRAM_BASE).toNat + size) := by
  unfold fails write
  rw [if_pos h, Ram.write_eq _ _ _ _ hsize, Ram.writeSlice_eq]
  have hlength : (Bytes.toLE size val).length = size := Bytes.length_toLE size val
  by_cases hfits : (addr - DRAM_BASE).toNat + (Bytes.toLE size val).length ≤ bus.ram.size
  · rw [dif_pos hfits]
    exact (decide_eq_false (by omega)).symm
  · rw [dif_neg hfits]
    exact (decide_eq_true (by omega)).symm

theorem fails_write_mmio (h : ¬ DRAM_BASE ≤ addr) (val : U64) :
    fails (write addr val size) bus =
      (Region.ofAddr addr).elim true fun r => r.refuses (addr - r.base) val size := by
  have hmmio : fails (write addr val size) bus = fails (writeMmio addr val size) bus := by
    unfold fails write
    rw [if_neg h]
  rw [hmmio, writeMmio, fails_modify_bind]
  cases Region.ofAddr addr with
  | none => rfl
  | some r => exact fails_writeDevice ..

omit [BlockBackend β] in
theorem writeAccessible_ram (h : DRAM_BASE ≤ addr) :
    bus.writeAccessible addr size =
      decide ((addr - DRAM_BASE).toNat + size ≤ bus.ram.size) := by
  have hoffset : (addr - DRAM_BASE).toNat = addr.toNat - DRAM_BASE.toNat := BitVec.toNat_sub_of_le h
  have hbase : DRAM_BASE.toNat ≤ addr.toNat := BitVec.le_def.1 h
  have hdram : DRAM_BASE.toNat = 0x80000000 := rfl
  have hlimit := bus.ram.size_lt
  unfold writeAccessible
  split
  · next hwraps =>
    refine (decide_eq_false ?_).symm
    omega
  · exact decide_eq_decide.2 (by omega)

omit [BlockBackend β] in
theorem writeAccessible_mmio (h : ¬ DRAM_BASE ≤ addr) (hpos : 0 < size) (hsize : size ≤ 8) :
    bus.writeAccessible addr size = true ↔
      ∃ r, Region.ofAddr addr = some r ∧ addr.toNat + size ≤ r.base.toNat + r.size.toNat := by
  have hbelow : addr.toNat < 0x80000000 := by
    have hlt := BitVec.lt_def.1 (BitVec.not_le.1 h)
    exact hlt
  unfold writeAccessible
  rw [if_neg (by omega), if_neg h, List.any_eq_true]
  simp only [Bool.and_eq_true, decide_eq_true_eq]
  constructor
  · rintro ⟨r, -, hbase, hend⟩
    refine ⟨r, (Region.ofAddr_eq_some_iff addr r).2 ⟨BitVec.le_def.1 hbase, ?_⟩, hend⟩
    omega
  · rintro ⟨r, hr, hend⟩
    have hcovers := (Region.ofAddr_eq_some_iff addr r).1 hr
    exact ⟨r, by cases r <;> decide, BitVec.le_def.2 hcovers.1, hend⟩

end Whole

def Refused (addr val : U64) (size : Nat) : Prop :=
  ∃ r, Region.ofAddr addr = some r ∧ addr.toNat + size ≤ r.base.toNat + r.size.toNat ∧
    r.refuses (addr - r.base) val size = true

omit [BlockBackend β] in
/-- The static check lets such an access pass. -/
theorem writeAccessible_of_refused {addr val : U64} (hpos : 0 < size)
    (hsize : size ≤ 8) (h : Refused addr val size) : bus.writeAccessible addr size = true := by
  obtain ⟨r, hr, hend, -⟩ := h
  exact (writeAccessible_mmio (Region.below_ram hr) hpos hsize).2 ⟨r, hr, hend⟩

/-- Regions begin and end at multiples of eight, but for the end of the blitter. -/
theorem aligned_region (r : Region) :
    r.base.toNat % 8 = 0 ∧ (r.size.toNat % 8 = 0 ∨ r = .framebufferBlitter) := by
  cases r <;> decide

/-- For naturally aligned words, a write fails exactly when the static check fails or a device
refuses it. -/
theorem fails_write_iff {addr : U64} (hsize : size = 4 ∨ size = 8)
    (haligned : addr.toNat % size = 0) (val : U64) :
    fails (write addr val size) bus = true ↔
      bus.writeAccessible addr size = false ∨ Refused addr val size := by
  have hle : size ≤ 8 := by omega
  by_cases hram : DRAM_BASE ≤ addr
  · rw [fails_write_ram hram hle, writeAccessible_ram hram]
    have hnone : ¬ Refused addr val size := fun ⟨r, hr, _⟩ => Region.below_ram hr hram
    simp only [hnone, or_false, decide_eq_true_eq, decide_eq_false_iff_not, Nat.not_le]
  · rw [fails_write_mmio hram, ← Bool.not_eq_true,
      writeAccessible_mmio hram (by omega) hle]
    cases hr : Region.ofAddr addr with
    | none => simp
    | some r =>
      have hcovers := (Region.ofAddr_eq_some_iff addr r).1 hr
      have hhi := hcovers.2
      simp only [Refused, hr, Option.elim_some, Option.some.injEq, exists_eq_left']
      by_cases hend : addr.toNat + size ≤ r.base.toNat + r.size.toNat
      · simp [hend]
      · -- Only the end of the blitter cuts an aligned word in two, and the blitter refuses it.
        simp only [hend, not_false_eq_true, true_or, iff_true]
        obtain ⟨hbase, hsize8 | hblitter⟩ := aligned_region r
        · rcases hsize with rfl | rfl <;> omega
        · subst hblitter
          have hnot4 : size ≠ 4 := by
            rintro rfl
            have hsize44 : Region.framebufferBlitter.size.toNat = 44 := rfl
            omega
          simp [Region.refuses, hnot4]

end Bus

end EmulateComputer
