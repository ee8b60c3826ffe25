import EmulateComputer.Wire
import EmulateComputer.Lib.BitMask
import Mathlib.Data.List.FinRange

/-!
# Plic — platform-level interrupt controller

Level-triggered sources 1 to 31 and two contexts (machine and supervisor mode of the one hart).
The cached claimability bitmap `readyMask` is a memo over the registers: the type `Plic` carries
the proof that it is current, and every change of a register goes through `recomputeReady`.
-/

namespace EmulateComputer

structure PlicRegs where
  priority : Fin 32 → U32
  pending : U32
  level : U32
  enable : Fin 2 → U32
  threshold : Fin 2 → U32
  claimed : Fin 2 → U32

namespace PlicRegs

/-- Whether a context has a claimable source.  The source walks the set bits of the candidates
upwards and stops at the first that qualifies. -/
def ready (r : PlicRegs) (ctx : Fin 2) : Bool :=
  (List.finRange 32).any fun id =>
    (r.pending &&& r.enable ctx).getLsbD id && decide (r.threshold ctx < r.priority id)

def readyMask (r : PlicRegs) : U8 :=
  (if r.ready 0 then 1 else 0) ||| (if r.ready 1 then 2 else 0)

/-- Sources some context has claimed and not completed. -/
def anyClaimed (r : PlicRegs) : U32 :=
  r.claimed 0 ||| r.claimed 1

end PlicRegs

structure Plic extends PlicRegs where
  readyMask : U8
  readyMask_eq : readyMask = toPlicRegs.readyMask

namespace Plic

def NUM_SOURCES : Nat := 32
def NUM_CONTEXTS : Nat := 2
def ENABLE_BASE : Nat := 0x2000
def ENABLE_STRIDE : Nat := 0x80
def CONTEXT_BASE : Nat := 0x200000
def CONTEXT_STRIDE : Nat := 0x1000

def recomputeReady (r : PlicRegs) : Plic :=
  { toPlicRegs := r, readyMask := r.readyMask, readyMask_eq := rfl }

def new : Plic :=
  { priority := fun _ => 0, pending := 0, level := 0, enable := fun _ => 0,
    threshold := fun _ => 0, claimed := fun _ => 0, readyMask := 0
    readyMask_eq := by decide }

variable {p : Plic} {line : U32 × Bool} {lines : List (U32 × Bool)}

def setIrq (p : Plic) (id : U32) (level : Bool) : Plic :=
  if id = 0 ∨ 32 ≤ id then
    p
  else
    let bit : U32 := (1 : U32) <<< id.toNat
    if decide (p.level &&& bit ≠ 0) = level then
      p
    else if level then
      -- A rising line latches pending unless the source is mid-claim.
      recomputeReady { p.toPlicRegs with
        level := p.level ||| bit
        pending := if p.anyClaimed &&& bit = 0 then p.pending ||| bit else p.pending }
    else
      recomputeReady { p.toPlicRegs with
        level := p.level &&& ~~~bit
        pending := p.pending &&& ~~~bit }

def eip (p : Plic) (ctx : Nat) : Bool :=
  ctx < NUM_CONTEXTS && p.readyMask &&& ((1 : U8) <<< ctx) ≠ 0

/-- One step of the search for the best source: a strictly larger priority wins. -/
def better (p : Plic) (ctx : Fin 2) (best : Fin 32 × U32) (id : Fin 32) : Fin 32 × U32 :=
  if (p.pending &&& p.enable ctx).getLsbD id ∧ p.threshold ctx < p.priority id ∧
      best.2 < p.priority id then
    (id, p.priority id)
  else
    best

def best (p : Plic) (ctx : Fin 2) : Fin 32 :=
  ((List.finRange 32).tail.foldl (p.better ctx) (0, 0)).1

def claim (p : Plic) (ctx : Fin 2) : U32 × Plic :=
  let best := p.best ctx
  if best ≠ 0 then
    let bit : U32 := (1 : U32) <<< best.val
    (BitVec.ofNat 32 best.val, recomputeReady { p.toPlicRegs with
      pending := p.pending &&& ~~~bit
      claimed := Function.update p.claimed ctx (p.claimed ctx ||| bit) })
  else
    (0, p)

/-- Complete a source this context has claimed; any other completion is ignored. -/
def complete (p : Plic) (ctx : Fin 2) (id : U32) : Plic :=
  if id = 0 ∨ 32 ≤ id then
    p
  else
    let bit : U32 := (1 : U32) <<< id.toNat
    if p.claimed ctx &&& bit = 0 then
      p
    else
      recomputeReady { p.toPlicRegs with
        claimed := Function.update p.claimed ctx (p.claimed ctx &&& ~~~bit)
        pending := if p.level &&& bit ≠ 0 then p.pending ||| bit else p.pending }

/-- The value a read returns and the state it leaves; only a claim changes it. -/
def readReg (p : Plic) (offset : Nat) : U32 × Plic :=
  if offset ≤ 0x0FFF then
    if h : offset % 4 = 0 ∧ offset / 4 < 32 then (p.priority ⟨offset / 4, h.2⟩, p) else (0, p)
  else if offset = 0x1000 then (p.pending, p)
  else if offset < ENABLE_BASE then (0, p)
  else if offset ≤ 0x1FFFFF then
    let rel := offset - ENABLE_BASE
    if h : rel / ENABLE_STRIDE < 2 then
      if rel % ENABLE_STRIDE = 0 then (p.enable ⟨rel / ENABLE_STRIDE, h⟩, p) else (0, p)
    else (0, p)
  else
    let rel := offset - CONTEXT_BASE
    if h : rel / CONTEXT_STRIDE < 2 then
      if rel % CONTEXT_STRIDE = 0 then (p.threshold ⟨rel / CONTEXT_STRIDE, h⟩, p)
      else if rel % CONTEXT_STRIDE = 4 then p.claim ⟨rel / CONTEXT_STRIDE, h⟩
      else (0, p)
    else (0, p)

def read (offset : U64) (_size : Nat) : Access Plic U64 := fun p =>
  let (val, p') := p.readReg offset.toNat
  .ok (val.setWidth 64) p'

def written (p : Plic) (offset : Nat) (val : U32) : Plic :=
  if offset ≤ 0x0FFF then
    if h : offset % 4 = 0 ∧ offset / 4 < 32 then
      recomputeReady { p.toPlicRegs with
        priority := Function.update p.priority ⟨offset / 4, h.2⟩ val }
    else p
  else if offset < ENABLE_BASE then p
  else if offset ≤ 0x1FFFFF then
    let rel := offset - ENABLE_BASE
    if h : rel / ENABLE_STRIDE < 2 then
      if rel % ENABLE_STRIDE = 0 then
        recomputeReady { p.toPlicRegs with
          enable := Function.update p.enable ⟨rel / ENABLE_STRIDE, h⟩ val }
      else p
    else p
  else
    let rel := offset - CONTEXT_BASE
    if h : rel / CONTEXT_STRIDE < 2 then
      if rel % CONTEXT_STRIDE = 0 then
        recomputeReady { p.toPlicRegs with
          threshold := Function.update p.threshold ⟨rel / CONTEXT_STRIDE, h⟩ val }
      else if rel % CONTEXT_STRIDE = 4 then p.complete ⟨rel / CONTEXT_STRIDE, h⟩ val
      else p
    else p

def write (offset val : U64) (_size : Nat) : Access Plic Unit :=
  modify fun p => p.written offset.toNat (val.setWidth 32)

/-! ## Lines -/

def IsSource (id : U32) : Prop :=
  id ≠ 0 ∧ id < 32

/-- The controller has seen the level of a line. -/
def Shows (p : Plic) (line : U32 × Bool) : Prop :=
  p.level.getLsbD line.1.toNat = line.2

theorem level_and_bit (p : Plic) {id : U32} (hid : id < 32) :
    decide (p.level &&& ((1 : U32) <<< id.toNat) ≠ 0) = p.level.getLsbD id.toNat := by
  have hlt : id.toNat < 32 := by simpa [BitVec.lt_def] using hid
  have hbit := BitMask.and_bit_eq_zero_iff p.level hlt
  cases hb : p.level.getLsbD id.toNat with
  | false => simpa using hbit.mpr hb
  | true =>
    have hne : ¬ p.level &&& ((1 : U32) <<< id.toNat) = 0 := fun hz => by
      rw [hbit.mp hz] at hb
      cases hb
    simpa using hne

theorem setIrq_of_shows (h : p.Shows line) : p.setIrq line.1 line.2 = p := by
  unfold setIrq
  split
  · rfl
  · rename_i hid
    have hlt : line.1 < 32 := by simpa using (not_or.mp hid).2
    rw [if_pos ((p.level_and_bit hlt).trans h)]

/-- The level register after a line is driven. -/
theorem getLsbD_setIrq (p : Plic) {id : U32} (hid : IsSource id) (level : Bool) (j : Nat) :
    (p.setIrq id level).level.getLsbD j = if j = id.toNat then level else p.level.getLsbD j := by
  have hlt : id.toNat < 32 := by simpa [BitVec.lt_def] using hid.2
  have hvalid : ¬ (id = 0 ∨ 32 ≤ id) := by
    rintro (rfl | hge)
    · exact hid.1 rfl
    · exact absurd hid.2 (by simpa using hge)
  unfold setIrq
  rw [if_neg hvalid]
  dsimp only
  rw [p.level_and_bit hid.2]
  by_cases hsame : p.level.getLsbD id.toNat = level
  · rw [if_pos hsame]
    by_cases hj : j = id.toNat
    · rw [if_pos hj, hj, hsame]
    · rw [if_neg hj]
  · rw [if_neg hsame]
    cases level with
    | true => exact BitMask.getLsbD_or_bit p.level hlt j
    | false => exact BitMask.getLsbD_and_not_bit p.level hlt j

theorem shows_setIrq (p : Plic) (hid : IsSource line.1) : (p.setIrq line.1 line.2).Shows line := by
  rw [Shows, getLsbD_setIrq p hid, if_pos rfl]

theorem Shows.setIrq {other : U32 × Bool} (h : p.Shows line) (hid : IsSource other.1)
    (hne : line.1 ≠ other.1) : (p.setIrq other.1 other.2).Shows line := by
  have hj : line.1.toNat ≠ other.1.toNat := fun heq => hne (BitVec.eq_of_toNat_eq heq)
  rw [Shows, getLsbD_setIrq p hid, if_neg hj]
  exact h

def driveLines (plic : Plic) (lines : List (U32 × Bool)) : Plic :=
  lines.foldl (fun plic line => plic.setIrq line.1 line.2) plic

theorem driveLines_of_shows (h : ∀ line ∈ lines, p.Shows line) : p.driveLines lines = p := by
  induction lines with
  | nil => rfl
  | cons line lines ih =>
    change driveLines (p.setIrq line.1 line.2) lines = p
    rw [setIrq_of_shows (h line List.mem_cons_self)]
    exact ih fun other hmem => h other (List.mem_cons_of_mem _ hmem)

theorem Shows.driveLines (h : p.Shows line)
    (hids : ∀ other ∈ lines, IsSource other.1 ∧ line.1 ≠ other.1) :
    (p.driveLines lines).Shows line := by
  induction lines generalizing p with
  | nil => exact h
  | cons other lines ih =>
    have hother := hids other List.mem_cons_self
    exact ih (h.setIrq hother.1 hother.2) fun o hmem => hids o (List.mem_cons_of_mem _ hmem)

/-- Lines of different sources all show once they are driven. -/
theorem shows_driveLines (p : Plic) (hids : ∀ line ∈ lines, IsSource line.1)
    (hne : (lines.map Prod.fst).Nodup) : ∀ line ∈ lines, (p.driveLines lines).Shows line := by
  induction lines generalizing p with
  | nil => exact fun line hmem => absurd hmem List.not_mem_nil
  | cons first lines ih =>
    rw [List.map_cons, List.nodup_cons] at hne
    have hrest : ∀ line ∈ lines, IsSource line.1 :=
      fun line hmem => hids line (List.mem_cons_of_mem _ hmem)
    intro line hmem
    rcases List.mem_cons.mp hmem with rfl | htail
    · refine (shows_setIrq p (hids _ List.mem_cons_self)).driveLines fun other hother => ?_
      refine ⟨hrest other hother, fun heq => hne.1 ?_⟩
      rw [heq]
      exact List.mem_map_of_mem hother
    · exact ih _ hrest hne.2 line htail

/-! ## Snapshots -/

def SNAPSHOT_VERSION : U16 := 1

def contextRecord (p : Plic) (ctx : Fin 2) : List U8 :=
  Writer.u32 (p.enable ctx) ++ (Writer.u32 (p.threshold ctx) ++ Writer.u32 (p.claimed ctx))

def snapshotBody (p : Plic) : List U8 :=
  Writer.u32 (BitVec.ofNat 32 NUM_SOURCES) ++ (Writer.u32 (BitVec.ofNat 32 NUM_CONTEXTS) ++
    ((List.ofFn p.priority).flatMap Writer.u32 ++ (Writer.u32 p.pending ++
      (Writer.u32 p.level ++ (p.contextRecord 0 ++ p.contextRecord 1)))))

def snapshot (p : Plic) : List U8 :=
  Writer.sectionOf SNAPSHOT_VERSION p.snapshotBody

def readContext : Read (U32 × U32 × U32) := do
  let enable ← Reader.u32
  let threshold ← Reader.u32
  let claimed ← Reader.u32
  pure (enable, threshold, claimed)

def readRegs : Read PlicRegs := do
  let sources ← Reader.u32
  let contexts ← Reader.u32
  if sources.toNat ≠ NUM_SOURCES ∨ contexts.toNat ≠ NUM_CONTEXTS then
    throw (toString sources.toNat ++ " sources / " ++ toString contexts.toNat ++
      " contexts, this build has " ++ toString NUM_SOURCES ++ " / " ++ toString NUM_CONTEXTS)
  else
    let priority ← Cursor.readMany (fun _ => Reader.u32) 0 32
    let pending ← Reader.u32
    let level ← Reader.u32
    let (enable₀, threshold₀, claimed₀) ← readContext
    let (enable₁, threshold₁, claimed₁) ← readContext
    pure
      { priority := fun id => priority.1.get (id.cast priority.2.symm)
        pending := pending
        level := level
        enable := fun ctx => if ctx = 0 then enable₀ else enable₁
        threshold := fun ctx => if ctx = 0 then threshold₀ else threshold₁
        claimed := fun ctx => if ctx = 0 then claimed₀ else claimed₁ }

def restore : Read Plic := do
  let regs ← Reader.readSection "plic" SNAPSHOT_VERSION readRegs
  pure (recomputeReady regs)

end Plic

end EmulateComputer
