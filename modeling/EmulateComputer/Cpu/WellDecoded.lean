import EmulateComputer.Cpu.Frame

/-!
# WellDecoded — what the decoder and the block cache promise about an instruction

Every instruction about to execute was decoded from its own raw word, whether it was fetched from
memory or found in the block cache.  The decoder in turn promises that instructions are two or
four bytes long and that pc-relative jumps have even offsets.
-/

namespace EmulateComputer

open Effect

/-! ## Even words -/

def IsEven (v : U64) : Prop :=
  v.getLsbD 0 = false

theorem isEven_iff (v : U64) : IsEven v ↔ v &&& 1 = 0 := by
  rw [BitMask.eq_zero_iff]
  constructor
  · intro h i
    rw [BitVec.getLsbD_and]
    cases i with
    | zero => rw [h, Bool.false_and]
    | succ i => simp
  · intro h
    have h0 := h 0
    rwa [BitVec.getLsbD_and, show (1 : U64).getLsbD 0 = true from rfl, Bool.and_true] at h0

theorem IsEven.add {a b : U64} (ha : IsEven a) (hb : IsEven b) : IsEven (a + b) := by
  unfold IsEven at *
  rw [BitVec.getLsbD_add (by decide), ha, hb]
  simp

theorem isEven_four_mul (v : U64) : IsEven ((4 : U64) * v) := by
  have heven : ((4 : U64) * v).toNat % 2 = 0 := by
    rw [BitVec.toNat_mul, show (4 : U64).toNat = 4 from rfl]
    omega
  unfold IsEven BitVec.getLsbD
  rw [Nat.testBit_zero, heven]
  rfl

theorem isEven_clear (v : U64) : IsEven (v &&& ~~~1) := by
  simp [IsEven]

/-! ## The decoder -/

/-- A pc-relative jump has an even offset. -/
def Op.EvenOffset (op : Op) : Prop :=
  ∀ imm, op.offset = some imm → IsEven imm

namespace Decode

/-- Every operation a decoder may answer satisfies `P`. -/
def All (P : Op → Prop) (o : Option Op) : Prop :=
  ∀ op, o = some op → P op

section All

variable {P : Op → Prop}

theorem all_none : All P none :=
  nofun

theorem all_some {op : Op} (h : P op) : All P (some op) := by
  intro op' h'
  cases h'
  exact h

end All

end Decode

/-! ## The block cache -/

/-- Decoded from its own raw word. -/
def CachedInstruction.WellDecoded (ins : CachedInstruction) : Prop :=
  Decode.decode ins.raw = some ins.decoded

/-- Every entry of every block, used or not, was decoded from its own raw word. -/
def DecodeCache.WellDecoded (c : DecodeCache) : Prop :=
  ∀ slot index ins, (c.blocks slot).instructions index = some ins → ins.WellDecoded

namespace DecodeCache

variable {c : DecodeCache}

theorem wellDecoded_new : WellDecoded new := by
  intro slot index ins h
  cases h

section

variable (h : c.WellDecoded) {ins : CachedInstruction}

include h

theorem WellDecoded.flush : c.flush.WellDecoded :=
  fun slot index ins hins => h slot index ins hins

theorem WellDecoded.setBlock {slot : Nat} {block : DecodedBlock}
    (hb : ∀ index ins, block.instructions index = some ins → ins.WellDecoded) :
    (c.setBlock slot block).WellDecoded :=
  (Function.forall_update_iff c.blocks fun _ block =>
    ∀ index ins, block.instructions index = some ins → ins.WellDecoded).mpr
    ⟨hb, fun slot' _ => h slot'⟩

theorem WellDecoded.invalidateGeneration (slot : Nat) : (c.invalidateGeneration slot).WellDecoded :=
  h.setBlock fun index ins hins => h slot index ins hins

theorem WellDecoded.lookupActive (pc : U64) (ram : Ram) :
    (c.lookupActive pc ram).2.WellDecoded ∧
      ∀ location, (c.lookupActive pc ram).1 = .hit location →
        location.instruction.WellDecoded := by
  unfold DecodeCache.lookupActive
  split
  · exact ⟨h, fun _ hloc => by cases hloc⟩
  · dsimp only
    split
    · split
      · split
        · rename_i ins hins
          split
          · refine ⟨h, fun location hloc => ?_⟩
            cases hloc
            exact h _ _ ins hins
          · exact ⟨h, fun _ hloc => by cases hloc⟩
        · exact ⟨h, fun _ hloc => by cases hloc⟩
      · split
        · exact ⟨h, fun _ hloc => by cases hloc⟩
        · exact ⟨h, fun _ hloc => by cases hloc⟩
    · split
      · exact ⟨WellDecoded.invalidateGeneration (c := c.takeActive) h _,
          fun _ hloc => by cases hloc⟩
      · exact ⟨h, fun _ hloc => by cases hloc⟩

theorem WellDecoded.lookupWays (pa : U64) (ram : Ram) (slots : List Nat) :
    (DecodeCache.lookupWays pa ram slots c).2.WellDecoded ∧
      ∀ location, (DecodeCache.lookupWays pa ram slots c).1 = .hit location →
        location.instruction.WellDecoded := by
  induction slots generalizing c with
  | nil => exact ⟨h, fun _ hloc => by cases hloc⟩
  | cons slot slots ih =>
    unfold DecodeCache.lookupWays
    dsimp only
    split
    · split
      · split
        · rename_i ins hins
          refine ⟨h, fun location hloc => ?_⟩
          cases hloc
          exact h _ _ ins hins
        · exact ih h
      · exact ih (h.invalidateGeneration slot)
    · exact ih h

/-- Storing one more well decoded entry. -/
theorem WellDecoded.update {slot index : Nat} (hins : ins.WellDecoded) : ∀ index' ins',
      Function.update (c.blocks slot).instructions index (some ins) index' = some ins' →
        ins'.WellDecoded := by
  refine (Function.forall_update_iff _ fun _ entry => ∀ ins' : CachedInstruction,
    entry = some ins' → ins'.WellDecoded).mpr ⟨fun ins' heq => ?_, fun index' _ => h slot index'⟩
  cases heq
  exact hins

theorem WellDecoded.insertBlock (pa page generation : U64) (hins : ins.WellDecoded) :
    (c.insertBlock pa page generation ins).2.WellDecoded :=
  h.setBlock (h.update hins)

theorem WellDecoded.insert (pa page generation : U64) (ins : CachedInstruction)
    (hins : ins.WellDecoded) (append : Option (Nat × Nat)) :
    (c.insert pa page generation ins append).2.WellDecoded := by
  unfold DecodeCache.insert
  split
  · dsimp only
    split
    · exact h.setBlock (h.update hins)
    · exact h.insertBlock pa page generation hins
  · exact h.insertBlock pa page generation hins

theorem WellDecoded.finishInstruction (location : CacheLocation)
    (instructionPc nextPc actualPc : U64) (ram : Ram) :
    (c.finishInstruction location instructionPc nextPc actualPc ram).WellDecoded := by
  unfold DecodeCache.finishInstruction
  dsimp only
  split
  · exact h
  · split
    · exact h
    · exact h

end

end DecodeCache

/-! ## Fetches and steps -/

theorem Cpu.decodeCache_enterTrap (cpu : Cpu) (cause tval epc : U64) (toS isInterrupt : Bool) :
    (cpu.enterTrap cause tval epc toS isInterrupt).decodeCache = cpu.decodeCache := by
  cases toS with
  | false => rfl
  | true => rfl

theorem Cpu.decodeCache_takeException (cpu : Cpu) (e : Exception) :
    (cpu.takeException e).decodeCache = cpu.decodeCache :=
  decodeCache_enterTrap _ _ _ _ _ _

theorem Cpu.decodeCache_takeInterrupt (cpu : Cpu) (i : Interrupt) :
    (cpu.takeInterrupt i).decodeCache = cpu.decodeCache :=
  decodeCache_enterTrap _ _ _ _ _ _

def Fetched.WellDecoded (f : Fetched) : Prop :=
  Decode.decode f.raw = some f.inst

namespace Hart

variable {β : Type} [BlockBackend β]

/-- Well decoded entries stay well decoded. -/
def KeepsDecoded (s t : Sys β) : Prop :=
  s.cpu.decodeCache.WellDecoded → t.cpu.decodeCache.WellDecoded

theorem memoFrame_keepsDecoded : MemoFrame (KeepsDecoded : Sys β → Sys β → Prop) where
  refl _ h := h
  trans _ _ _ hab hbc h := hbc (hab h)
  read _ _ _ := keeps_zoom_any fun _ _ h => h
  mmu _ _ _ := keeps_zoom_any fun _ _ h => h
  memo _ _ h := h

theorem execFrame_keepsDecoded : ExecFrame (KeepsDecoded : Sys β → Sys β → Prop) :=
  { memoFrame_keepsDecoded.toReadFrame with
    write := fun _ _ _ _ => keeps_zoom_any fun _ _ h => h
    release := fun _ h => h
    cpu := by
      intro s cpu hstep h
      rcases hstep.cache with hsame | hflush
      · rw [hsame]
        exact h
      · rw [hflush]
        exact h.flush }

/-- What a fetch answers from a cache of well decoded entries. -/
def FetchesDecoded (x : Hart β Fetched) : Prop :=
  ∀ s, s.cpu.decodeCache.WellDecoded →
    Post x s (fun f t => f.WellDecoded ∧ t.cpu.decodeCache.WellDecoded)
      fun _ t => t.cpu.decodeCache.WellDecoded

omit [BlockBackend β] in
theorem fetchesDecoded_bind {α : Type} {x : Hart β α} {f : α → Hart β Fetched}
    (hx : Keeps KeepsDecoded x) (hf : ∀ a, FetchesDecoded (f a)) : FetchesDecoded (x >>= f) := by
  intro s hs
  exact post_bind ((Post.of_keeps hx).mono (fun a t ht => hf a t (ht hs)) fun _ _ ht => ht hs)

theorem fetchesDecoded_fetchDecode (pc pa : U64) (append : Option (Nat × Nat)) :
    FetchesDecoded (fetchDecode pc pa append : Hart β Fetched) := by
  refine fetchesDecoded_bind (keeps_fetchWindow memoFrame_keepsDecoded.toReadFrame pc pa)
    fun fetched => ?_
  intro s hs
  cases hd : Decode.decode fetched.raw with
  | none => exact hs
  | some decoded =>
    cases hp : fetched.cachePage with
    | none => exact ⟨hd, hs⟩
    | some page => exact ⟨hd, hs.insert pa page.1 page.2 ⟨pa, fetched.raw, decoded⟩ hd append⟩

theorem fetchesDecoded_fetchPhysical (pc : U64) (append : Option (Nat × Nat)) :
    FetchesDecoded (fetchPhysical pc append : Hart β Fetched) := by
  unfold fetchPhysical
  split
  · exact fun _ hs => hs
  · refine fetchesDecoded_bind (keeps_translateFetch memoFrame_keepsDecoded pc) fun pa => ?_
    cases append with
    | some at' => exact fetchesDecoded_fetchDecode pc pa _
    | none =>
      intro s hs
      obtain ⟨hcache, hhit⟩ := DecodeCache.WellDecoded.lookupWays hs pa s.bus.ram
        (List.range' (DecodeCache.setFor pa * DecodeCache.BLOCK_WAYS) DecodeCache.BLOCK_WAYS)
      refine post_bind (post_bind ?_)
      cases hl : (s.cpu.decodeCache.lookupPhysical pa s.bus.ram).1 with
      | hit location =>
        exact ⟨hhit location hl, hcache⟩
      | miss => exact fetchesDecoded_fetchDecode pc pa none _ hcache

/-- An instruction found or fetched was decoded from its own raw word. -/
theorem fetchesDecoded_fetch (pc : U64) : FetchesDecoded (fetch pc : Hart β Fetched) := by
  intro s hs
  obtain ⟨hcache, hhit⟩ := DecodeCache.WellDecoded.lookupActive hs pc s.bus.ram
  refine post_bind (post_bind ?_)
  cases hl : (s.cpu.decodeCache.lookupActive pc s.bus.ram).1 with
  | hit location => exact ⟨hhit location hl, hcache⟩
  | append slot index => exact fetchesDecoded_fetchPhysical pc (some (slot, index)) _ hcache
  | none => exact fetchesDecoded_fetchPhysical pc none _ hcache

variable [ApFloat]

open Execute (keeps_execute)

theorem keepsDecoded_run (f : Fetched) (pc : U64) :
    Keeps (KeepsDecoded : Sys β → Sys β → Prop) (run f pc) := by
  have := execFrame_keepsDecoded.toIsPreorder (β := β)
  refine keeps_bind (keeps_modify fun _ h => h) fun _ => ?_
  refine keeps_bind (keeps_execute execFrame_keepsDecoded f.raw f.inst.op) fun _ => ?_
  refine keeps_bind (keeps_modify fun _ h => h) fun _ => keeps_modify fun s h => ?_
  unfold finish
  cases f.location with
  | none => exact h
  | some location => exact h.finishInstruction location _ _ _ _

theorem keepsDecoded_stepAwake (s : Sys β) : KeepsDecoded s s.stepAwake := by
  intro hs
  have hinner : (stepInner s).state.cpu.decodeCache.WellDecoded := by
    change ((fetch s.cpu.pc >>= fun f => run f s.cpu.pc) s).state.cpu.decodeCache.WellDecoded
    have hfetch := fetchesDecoded_fetch s.cpu.pc s hs
    cases hr : fetch s.cpu.pc s with
    | ok f t =>
      rw [run_bind_ok hr]
      exact keepsDecoded_run f s.cpu.pc t ((post_ok hr).mp hfetch).2
    | error e t =>
      rw [run_bind_error hr]
      exact (post_error hr).mp hfetch
  unfold Sys.stepAwake
  cases hr : stepInner s with
  | ok _ t =>
    rw [hr] at hinner
    exact hinner
  | error e t =>
    rw [hr] at hinner
    change (t.cpu.takeException e).decodeCache.WellDecoded
    rw [Cpu.decodeCache_takeException]
    exact hinner

/-- A step keeps the block cache well decoded. -/
theorem keepsDecoded_step (s : Sys β) : KeepsDecoded s s.step.2 := by
  intro hs
  unfold Sys.step
  split
  · split
    · exact keepsDecoded_stepAwake _ hs
    · exact hs
  · exact keepsDecoded_stepAwake s hs

end Hart

end EmulateComputer
