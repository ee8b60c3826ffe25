import EmulateComputer.Cpu.WellDecoded

/-!
# BlockRuns — cached blocks are runs of the instructions in RAM

A block carries the write generation its page had when the block was built.  `Kept` ties the block
to RAM as it is now: as long as the count stands where it stood, the block is a run of consecutive
instructions of one page, each with the bytes RAM holds and decoded from them.  Once the count has
moved the block promises nothing; the lookups compare the counts before they answer.

The generations the code compares are 64-bit counters, the model counts without bound, so a block
may be taken for a current one only if no count passes 2^64.

The marker of a free slot is the address 2^64 - 1.  A physical lookup does not exclude that address:
asked for it, it may answer with what a discarded block left behind.
-/

namespace EmulateComputer

open Function (update update_self update_of_ne)

/-- No count of the RAM has passed what a `u64` holds. -/
def Ram.NoWrap (ram : Ram) : Prop :=
  ∀ page, ram.pageGenerations page < 2 ^ 64

theorem Ram.NoWrap.of_evolves {ram ram' : Ram} (h : ram'.NoWrap) (hram : Ram.Evolves ram ram') :
    ram.NoWrap :=
  fun page => (hram.generations_le page).trans_lt (h page)

namespace CachedInstruction

def offset (ins : CachedInstruction) : Nat :=
  (ins.pa - DRAM_BASE).toNat

def length (ins : CachedInstruction) : Nat :=
  ins.decoded.len.toNat

/-- What RAM holds at the address of the instruction, inside the page `page`. -/
structure InRam (ram : Ram) (page : U64) (ins : CachedInstruction) : Prop where
  base : DRAM_BASE ≤ ins.pa
  samePage : ins.offset / 4096 = page.toNat
  inside : ins.offset % 4096 + ins.length ≤ 4096
  fits : ins.offset + ins.length ≤ ram.size
  raw : ins.raw = Bytes.ofLE 32 (Bytes.slice ram.data ins.offset ins.length)
  decoded : Decode.decode ins.raw = some ins.decoded

variable {ram ram' : Ram} {page : U64} {ins : CachedInstruction}

/-- Writes to other pages leave the instruction as it is. -/
theorem InRam.evolve (h : ins.InRam ram page) (hram : Ram.Evolves ram ram')
    (hsame : ram'.pageGenerations page.toNat = ram.pageGenerations page.toNat) :
    ins.InRam ram' page := by
  have hbytes : Bytes.slice ram'.data ins.offset ins.length =
      Bytes.slice ram.data ins.offset ins.length := by
    refine Bytes.slice_congr fun i hlo hhi => ?_
    have hpage : i / 4096 = page.toNat := by
      have hoff := h.samePage
      have hin := h.inside
      omega
    refine (hram.data_eq_of_generation ?_).symm
    rw [hpage, hsame]
  exact
    { base := h.base
      samePage := h.samePage
      inside := h.inside
      fits := by rw [hram.size]; exact h.fits
      raw := by rw [hbytes]; exact h.raw
      decoded := h.decoded }

end CachedInstruction

namespace DecodedBlock

open DecodeCache

/-- A run of consecutive instructions of one page, as RAM holds them. -/
structure IsRun (ram : Ram) (block : DecodedBlock) : Prop where
  pos : 0 < block.len
  le_max : block.len ≤ MAX_BLOCK_INSTRUCTIONS
  start : ∃ first, block.instructions 0 = some first ∧ first.pa = block.startPa
  inRam : ∀ i, i < block.len → ∃ ins, block.instructions i = some ins ∧
    ins.InRam ram block.ramPage
  consecutive : ∀ i a b, i + 1 < block.len → block.instructions i = some a →
    block.instructions (i + 1) = some b → b.pa = a.pa + a.decoded.len

/-- A used block was a run at the count it was built under. -/
def Kept (ram : Ram) (block : DecodedBlock) : Prop :=
  block.startPa ≠ INVALID_PA → ∃ count, block.pageGeneration = BitVec.ofNat 64 count ∧
    count ≤ ram.pageGenerations block.ramPage.toNat ∧
    (count = ram.pageGenerations block.ramPage.toNat → block.IsRun ram)

variable {ram ram' : Ram} {block : DecodedBlock}

theorem IsRun.evolve (h : block.IsRun ram) (hram : Ram.Evolves ram ram')
    (hsame : ram'.pageGenerations block.ramPage.toNat = ram.pageGenerations block.ramPage.toNat) :
    block.IsRun ram' := by
  refine { h with inRam := fun i hi => ?_ }
  obtain ⟨ins, hins, hin⟩ := h.inRam i hi
  exact ⟨ins, hins, hin.evolve hram hsame⟩

theorem Kept.evolve (h : block.Kept ram) (hram : Ram.Evolves ram ram') : block.Kept ram' := by
  intro hused
  obtain ⟨count, hcount, hle, hrun⟩ := h hused
  have hgrow := hram.generations_le block.ramPage.toNat
  refine ⟨count, hcount, hle.trans hgrow, fun heq => ?_⟩
  -- The count has caught up with the present one, so it never moved.
  have hstood : count = ram.pageGenerations block.ramPage.toNat := by omega
  exact (hrun hstood).evolve hram (by omega)

theorem kept_of_invalid (h : block.startPa = INVALID_PA) : block.Kept ram :=
  fun hused => absurd h hused

/-- Without a wrap, equal counters are equal counts. -/
theorem Kept.isRun (h : block.Kept ram) (hwrap : ram.NoWrap) (hused : block.startPa ≠ INVALID_PA)
    (hgen : block.pageGeneration = ram.generation block.ramPage.toNat) : block.IsRun ram := by
  obtain ⟨count, hcount, hle, hrun⟩ := h hused
  have hlt := hwrap block.ramPage.toNat
  have hnat := congrArg BitVec.toNat (hcount.symm.trans hgen)
  rw [Ram.generation, BitVec.toNat_ofNat, BitVec.toNat_ofNat, Nat.mod_eq_of_lt (by omega),
    Nat.mod_eq_of_lt hlt] at hnat
  exact hrun hnat

theorem generation_of_current (h : block.generationIsCurrent ram = true) :
    block.pageGeneration = ram.generation block.ramPage.toNat := by
  have hcurrent : ram.generationForPage block.ramPage = some block.pageGeneration := by
    simpa [generationIsCurrent] using h
  unfold Ram.generationForPage at hcurrent
  split at hcurrent
  · exact (Option.some.inj hcurrent).symm
  · cases hcurrent

/-- An entry in use of a current block is what RAM holds. -/
theorem Kept.inRam (h : block.Kept ram) (hwrap : ram.NoWrap) (hused : block.startPa ≠ INVALID_PA)
    (hcurrent : block.generationIsCurrent ram = true) {i : Nat} (hi : i < block.len)
    {ins : CachedInstruction} (hins : block.instructions i = some ins) :
    ins.InRam ram block.ramPage := by
  obtain ⟨ins', hins', hin⟩ := (h.isRun hwrap hused (generation_of_current hcurrent)).inRam i hi
  rw [hins] at hins'
  cases hins'
  exact hin

end DecodedBlock

namespace DecodeCache

open DecodedBlock (Kept IsRun)

/-! ## What the cache keeps -/

def BlocksKept (ram : Ram) (c : DecodeCache) : Prop :=
  ∀ slot, (c.blocks slot).Kept ram

section

variable {ram ram' : Ram} {c : DecodeCache} {location : CacheLocation} {block : DecodedBlock}

theorem blocksKept_new (ram : Ram) : BlocksKept ram new :=
  fun _ => DecodedBlock.kept_of_invalid rfl

theorem BlocksKept.evolve (h : c.BlocksKept ram) (hram : Ram.Evolves ram ram') :
    c.BlocksKept ram' :=
  fun slot => (h slot).evolve hram

theorem blocksKept_flush (ram : Ram) (c : DecodeCache) : c.flush.BlocksKept ram :=
  fun _ => DecodedBlock.kept_of_invalid rfl

section

variable (h : c.BlocksKept ram)

include h

theorem BlocksKept.setBlock {slot : Nat}
    (hblock : block.Kept ram) : (c.setBlock slot block).BlocksKept ram := by
  intro other
  change (update c.blocks slot block other).Kept ram
  by_cases heq : other = slot
  · rw [heq, update_self]
    exact hblock
  · rw [update_of_ne heq]
    exact h other

theorem BlocksKept.invalidateGeneration (slot : Nat) :
    (c.invalidateGeneration slot).BlocksKept ram :=
  h.setBlock (DecodedBlock.kept_of_invalid rfl)

theorem BlocksKept.finishInstruction (location : CacheLocation)
    (instructionPc nextPc actualPc : U64) :
    (c.finishInstruction location instructionPc nextPc actualPc ram).BlocksKept ram := by
  unfold DecodeCache.finishInstruction
  dsimp only
  repeat' split
  all_goals exact h

/-! ## Lookups -/

theorem BlocksKept.lookupActive (pc : U64) : (c.lookupActive pc ram).2.BlocksKept ram := by
  unfold DecodeCache.lookupActive
  split
  · exact h
  · -- The blocks change only where one is out of date.
    dsimp only
    repeat' split
    all_goals first
      | exact h
      | exact BlocksKept.invalidateGeneration (c := c.takeActive) h _

/-- A continuation finds the instruction the last one announced, as RAM holds it. -/
theorem BlocksKept.hit_lookupActive (hwrap : ram.NoWrap) {pc : U64}
    (hhit : (c.lookupActive pc ram).1 = .hit location) :
    ∃ active page, c.active = some active ∧ active.expectedPc = pc ∧
      location.instruction.pa = active.expectedPa ∧ location.instruction.InRam ram page := by
  unfold DecodeCache.lookupActive at hhit
  split at hhit
  · cases hhit
  · rename_i active hactive
    dsimp only at hhit
    split at hhit
    · rename_i hguard
      split at hhit
      · rename_i hlt
        split at hhit
        · rename_i ins hins
          split at hhit
          · rename_i hpa
            cases hhit
            obtain ⟨hpc, hused, hcurrent⟩ := hguard
            exact ⟨active, _, hactive, hpc, hpa,
              (h active.slot).inRam hwrap hused hcurrent hlt hins⟩
          · cases hhit
        · cases hhit
      · split at hhit <;> cases hhit
    · split at hhit <;> cases hhit

end

theorem BlocksKept.lookupWays (pa : U64) (slots : List Nat) (h : c.BlocksKept ram) :
    (DecodeCache.lookupWays pa ram slots c).2.BlocksKept ram := by
  induction slots generalizing c with
  | nil => exact h
  | cons slot slots ih =>
    unfold DecodeCache.lookupWays
    dsimp only
    split
    · split
      · split
        · exact h
        · exact ih h
      · exact ih (h.invalidateGeneration slot)
    · exact ih h

/-- A block found by its first address is what RAM holds there; free slots are found too, under
their marker. -/
theorem BlocksKept.hit_lookupWays {pa : U64} (hpa : pa ≠ INVALID_PA) (hwrap : ram.NoWrap)
    (slots : List Nat) (h : c.BlocksKept ram)
    (hhit : (DecodeCache.lookupWays pa ram slots c).1 = .hit location) :
    ∃ page, location.instruction.pa = pa ∧ location.instruction.InRam ram page := by
  induction slots generalizing c with
  | nil => cases hhit
  | cons slot slots ih =>
    unfold DecodeCache.lookupWays at hhit
    dsimp only at hhit
    split at hhit
    · rename_i hstart
      have hused : (c.blocks slot).startPa ≠ INVALID_PA := by
        rw [hstart]
        exact hpa
      split at hhit
      · rename_i hcurrent
        have hrun := (h slot).isRun hwrap hused (DecodedBlock.generation_of_current hcurrent)
        split at hhit
        · rename_i ins hins
          cases hhit
          obtain ⟨first, hfirst, hfirstPa⟩ := hrun.start
          rw [hins] at hfirst
          cases hfirst
          exact ⟨_, hfirstPa.trans hstart,
            (h slot).inRam hwrap hused hcurrent hrun.pos hins⟩
        · exact ih h hhit
      · exact ih (h.invalidateGeneration slot) hhit
    · exact ih h hhit

/-! ## Insertions -/

/-- The instruction was just read from RAM, in the page and under the generation given. -/
structure Fetched (ram : Ram) (pa ramPage pageGeneration : U64) (instruction : CachedInstruction) :
    Prop where
  pa_eq : instruction.pa = pa
  inRam : instruction.InRam ram ramPage
  generation_eq : pageGeneration = ram.generation ramPage.toNat

/-- An append that fits is for the address behind the block's last instruction. -/
def Follows (c : DecodeCache) (ramPage pageGeneration : U64) (instruction : CachedInstruction)
    (append : Option (Nat × Nat)) : Prop :=
  ∀ slot index, append = some (slot, index) →
    appendFits (c.blocks slot) ramPage pageGeneration index = true →
    ∃ last, (c.blocks slot).instructions ((c.blocks slot).len - 1) = some last ∧
      instruction.pa = last.pa + last.decoded.len

variable {pa ramPage pageGeneration : U64} {instruction : CachedInstruction}

theorem Fetched.kept (h : Fetched ram pa ramPage pageGeneration instruction)
    (rest : Nat → Option CachedInstruction) :
    Kept ram
      { startPa := pa, ramPage := ramPage, pageGeneration := pageGeneration, len := 1
        instructions := update rest 0 (some instruction) } := by
  intro _
  have hfirst : update rest 0 (some instruction) 0 = some instruction :=
    update_self 0 _ _
  refine ⟨_, h.generation_eq, le_rfl, fun _ => ?_⟩
  refine ⟨Nat.one_pos, (by decide : 1 ≤ MAX_BLOCK_INSTRUCTIONS), ⟨_, hfirst, h.pa_eq⟩, ?_, ?_⟩
  · intro i hi
    obtain rfl : i = 0 := by
      change i < 1 at hi
      omega
    exact ⟨instruction, hfirst, h.inRam⟩
  · intro i a b hi
    change i + 1 < 1 at hi
    omega

theorem BlocksKept.insertBlock (h : c.BlocksKept ram)
    (hfetched : Fetched ram pa ramPage pageGeneration instruction) :
    (c.insertBlock pa ramPage pageGeneration instruction).2.BlocksKept ram :=
  h.setBlock (hfetched.kept _)

/-- A run grows by the instruction behind its last one. -/
theorem isRun_append (h : block.IsRun ram)
    (hroom : block.len < MAX_BLOCK_INSTRUCTIONS) (hin : instruction.InRam ram block.ramPage)
    {last : CachedInstruction} (hlast : block.instructions (block.len - 1) = some last)
    (hnext : instruction.pa = last.pa + last.decoded.len) :
    IsRun ram { block with
      instructions := update block.instructions block.len (some instruction)
      len := block.len + 1 } := by
  have hold : ∀ i, i < block.len →
      update block.instructions block.len (some instruction) i = block.instructions i :=
    fun i hi => update_of_ne (Nat.ne_of_lt hi) _ _
  have hpos := h.pos
  refine ⟨Nat.succ_pos _, hroom, ?_, ?_, ?_⟩
  · obtain ⟨first, hfirst, hpa⟩ := h.start
    exact ⟨first, (hold 0 hpos).trans hfirst, hpa⟩
  · intro i hi
    change ∃ ins, update block.instructions block.len (some instruction) i = some ins ∧
      ins.InRam ram block.ramPage
    rcases Nat.lt_succ_iff_lt_or_eq.mp hi with hlt | rfl
    · rw [hold i hlt]
      exact h.inRam i hlt
    · exact ⟨instruction, update_self _ _ _, hin⟩
  · intro i a b hi ha hb
    change i + 1 < block.len + 1 at hi
    change update block.instructions block.len (some instruction) i = some a at ha
    change update block.instructions block.len (some instruction) (i + 1) = some b at hb
    rw [hold i (by omega)] at ha
    by_cases hlt : i + 1 < block.len
    · rw [hold (i + 1) hlt] at hb
      exact h.consecutive i a b hlt ha hb
    · -- The pair of the old last instruction and the new one.
      obtain rfl : i = block.len - 1 := by omega
      rw [Nat.sub_add_cancel hpos, update_self] at hb
      cases hb
      rw [hlast] at ha
      cases ha
      exact hnext

theorem BlocksKept.insert (h : c.BlocksKept ram) (hwrap : ram.NoWrap)
    (hfetched : Fetched ram pa ramPage pageGeneration instruction) (append : Option (Nat × Nat))
    (hfollows : c.Follows ramPage pageGeneration instruction append) :
    (c.insert pa ramPage pageGeneration instruction append).2.BlocksKept ram := by
  unfold DecodeCache.insert
  split
  · rename_i slot index
    dsimp only
    split
    · rename_i hfits
      obtain ⟨last, hlast, hnext⟩ := hfollows slot index rfl hfits
      simp only [appendFits, Bool.and_eq_true, decide_eq_true_eq] at hfits
      obtain ⟨⟨⟨⟨hused, hpage⟩, hgen⟩, hindex⟩, hroom⟩ := hfits
      subst hpage hgen hindex
      have hrun := (h slot).isRun hwrap hused hfetched.generation_eq
      refine h.setBlock fun _ => ⟨_, hfetched.generation_eq, le_rfl, fun _ => ?_⟩
      exact isRun_append hrun hroom hfetched.inRam hlast hnext
    · exact h.insertBlock hfetched
  · exact h.insertBlock hfetched

end

/-! ## Sequences of calls -/

/-- A call of the cache, or a write to RAM between two calls. -/
inductive Call
  | lookupActive (pc : U64)
  | lookupPhysical (pa : U64)
  | insert (pa ramPage pageGeneration : U64) (instruction : CachedInstruction)
      (append : Option (Nat × Nat))
  | finishInstruction (location : CacheLocation) (instructionPc nextPc actualPc : U64)
  | flush
  | writeRam (offset : U64) (bytes : List U8)

namespace Call

def step (s : DecodeCache × Ram) : Call → DecodeCache × Ram
  | .lookupActive pc => ((s.1.lookupActive pc s.2).2, s.2)
  | .lookupPhysical pa => ((s.1.lookupPhysical pa s.2).2, s.2)
  | .insert pa ramPage pageGeneration instruction append =>
    ((s.1.insert pa ramPage pageGeneration instruction append).2, s.2)
  | .finishInstruction location instructionPc nextPc actualPc =>
    (s.1.finishInstruction location instructionPc nextPc actualPc s.2, s.2)
  | .flush => (s.1.flush, s.2)
  | .writeRam offset bytes => (s.1, (s.2.writeSlice offset bytes).getD s.2)

/-- Instructions are inserted as they were just read, appends behind the last instruction. -/
def Proper (s : DecodeCache × Ram) : Call → Prop
  | .insert pa ramPage pageGeneration instruction append =>
    Fetched s.2 pa ramPage pageGeneration instruction ∧
      s.1.Follows ramPage pageGeneration instruction append
  | _ => True

end Call

def run (s : DecodeCache × Ram) : List Call → DecodeCache × Ram
  | [] => s
  | call :: calls => run (call.step s) calls

def ProperRun (s : DecodeCache × Ram) : List Call → Prop
  | [] => True
  | call :: calls => call.Proper s ∧ ProperRun (call.step s) calls

section

variable {s : DecodeCache × Ram}

theorem Call.evolves_step (s : DecodeCache × Ram) (call : Call) :
    Ram.Evolves s.2 (call.step s).2 := by
  cases call with
  | writeRam offset bytes =>
    change Ram.Evolves s.2 ((s.2.writeSlice offset bytes).getD s.2)
    cases hwrite : s.2.writeSlice offset bytes with
    | none => exact .refl _
    | some ram' => exact Ram.evolves_writeSlice hwrite
  | _ => exact .refl _

theorem evolves_run (s : DecodeCache × Ram) (calls : List Call) :
    Ram.Evolves s.2 (run s calls).2 := by
  induction calls generalizing s with
  | nil => exact .refl _
  | cons call calls ih => exact (call.evolves_step s).trans (ih (call.step s))

theorem BlocksKept.step (h : s.1.BlocksKept s.2) (hwrap : s.2.NoWrap) {call : Call}
    (hproper : call.Proper s) : (call.step s).1.BlocksKept (call.step s).2 := by
  cases call with
  | lookupActive pc => exact h.lookupActive pc
  | lookupPhysical pa => exact h.lookupWays pa _
  | insert pa ramPage pageGeneration instruction append =>
    exact h.insert hwrap hproper.1 append hproper.2
  | finishInstruction location instructionPc nextPc actualPc =>
    exact h.finishInstruction location instructionPc nextPc actualPc
  | flush => exact blocksKept_flush s.2 s.1
  | writeRam offset bytes => exact h.evolve (Call.evolves_step s (.writeRam offset bytes))

theorem BlocksKept.run (h : s.1.BlocksKept s.2) (calls : List Call) (hproper : ProperRun s calls)
    (hwrap : (DecodeCache.run s calls).2.NoWrap) :
    (DecodeCache.run s calls).1.BlocksKept (DecodeCache.run s calls).2 := by
  induction calls generalizing s with
  | nil => exact h
  | cons call calls ih =>
    have hnow : s.2.NoWrap := hwrap.of_evolves (evolves_run s (call :: calls))
    exact ih (h.step hnow hproper.1) hproper.2 hwrap

end

/-- After any proper sequence of calls, with no count past 2^64: a used block of a current
generation is a run of the instructions RAM holds, and so is every answer, save that of a physical
lookup of the marker of free slots. -/
theorem blocks_current (ram : Ram) (calls : List Call) (hproper : ProperRun (new, ram) calls)
    (hwrap : (run (new, ram) calls).2.NoWrap) :
    let s := run (new, ram) calls
    (∀ slot, (s.1.blocks slot).startPa ≠ INVALID_PA →
      (s.1.blocks slot).generationIsCurrent s.2 = true → (s.1.blocks slot).IsRun s.2) ∧
    (∀ pc location, (s.1.lookupActive pc s.2).1 = .hit location →
      ∃ active page, s.1.active = some active ∧ active.expectedPc = pc ∧
        location.instruction.pa = active.expectedPa ∧ location.instruction.InRam s.2 page) ∧
    ∀ pa location, pa ≠ INVALID_PA → (s.1.lookupPhysical pa s.2).1 = .hit location →
      ∃ page, location.instruction.pa = pa ∧ location.instruction.InRam s.2 page := by
  have hkept := (blocksKept_new ram).run (s := (new, ram)) calls hproper hwrap
  refine ⟨fun slot hused hcurrent => ?_, fun pc location hhit => ?_, fun pa location hpa hhit => ?_⟩
  · exact (hkept slot).isRun hwrap hused (DecodedBlock.generation_of_current hcurrent)
  · exact hkept.hit_lookupActive hwrap hhit
  · exact hkept.hit_lookupWays hpa hwrap _ hhit

def twoNops : Ram :=
  .ofBytes [0x13, 0, 0, 0, 0x13, 0, 0, 0] (by decide)

def nopAt (pa : U64) : CachedInstruction :=
  { pa := pa, raw := 0x13, decoded := { op := .opImm .add 0 0 0, len := 4 } }

def nopCalls : List Call :=
  [.insert DRAM_BASE 0 0 (nopAt DRAM_BASE) none,
    .finishInstruction ⟨0, 0, nopAt DRAM_BASE⟩ DRAM_BASE (DRAM_BASE + 4) (DRAM_BASE + 4),
    .lookupActive (DRAM_BASE + 4),
    .insert (DRAM_BASE + 4) 0 0 (nopAt (DRAM_BASE + 4)) (some (0, 1))]

theorem inRam_nopAt {pa : U64} (h : pa = DRAM_BASE ∨ pa = DRAM_BASE + 4) :
    (nopAt pa).InRam twoNops 0 := by
  rcases h with rfl | rfl <;>
    exact ⟨by decide, rfl, by decide, by decide, by decide, by decide⟩

theorem properRun_nopCalls : ProperRun (new, twoNops) nopCalls := by
  refine ⟨⟨⟨rfl, inRam_nopAt (.inl rfl), rfl⟩, nofun⟩, trivial, trivial,
    ⟨⟨rfl, inRam_nopAt (.inr rfl), rfl⟩, ?_⟩, trivial⟩
  intro slot index happend _
  cases happend
  exact ⟨nopAt DRAM_BASE, by decide, by decide⟩

theorem blocks_current_nopCalls :
    ProperRun (new, twoNops) nopCalls ∧ ((run (new, twoNops) nopCalls).1.blocks 0).len = 2 ∧
      ((run (new, twoNops) nopCalls).1.blocks 0).IsRun twoNops := by
  have hwrap : (run (new, twoNops) nopCalls).2.NoWrap :=
    fun _ => (by decide : 0 < 2 ^ 64)
  refine ⟨properRun_nopCalls, by decide, ?_⟩
  exact (blocks_current twoNops nopCalls properRun_nopCalls hwrap).1 0 (by decide) (by decide)

def flushedCalls : List Call :=
  [.insert DRAM_BASE 0 0 (nopAt DRAM_BASE) none, .flush]

/-- Discarded blocks keep their instructions, and a lookup of the marker finds them. -/
theorem lookupPhysical_marker_hits :
    ProperRun (new, twoNops) flushedCalls ∧ (run (new, twoNops) flushedCalls).2.NoWrap ∧
      ∃ location, ((run (new, twoNops) flushedCalls).1.lookupPhysical INVALID_PA twoNops).1 =
        .hit location ∧ location.instruction.pa ≠ INVALID_PA :=
  ⟨⟨⟨⟨rfl, inRam_nopAt (.inl rfl), rfl⟩, nofun⟩, trivial, trivial⟩,
    fun _ => (by decide : 0 < 2 ^ 64), ⟨0, 0, nopAt DRAM_BASE⟩, rfl, by decide⟩

end DecodeCache

end EmulateComputer
