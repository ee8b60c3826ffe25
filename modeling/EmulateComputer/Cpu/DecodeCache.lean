import EmulateComputer.Cpu.Decode
import EmulateComputer.Ram

/-!
# DecodeCache — cached basic blocks of decoded instructions

Blocks are keyed on the physical address of their first instruction and stay inside one page; a
block is used only while the write generation of its page is the one it was built under.  A block
grows after an instruction has executed and fallen through.  `active` remembers where execution
left a block, so that the next instruction of it is found without a translation.
-/

namespace EmulateComputer

structure CachedInstruction where
  pa : U64
  raw : U32
  decoded : DecodedInst
  deriving DecidableEq

structure CacheLocation where
  slot : Nat
  index : Nat
  instruction : CachedInstruction

structure DecodedBlock where
  startPa : U64
  ramPage : U64
  pageGeneration : U64
  len : Nat
  instructions : Nat → Option CachedInstruction

structure ActiveInstruction where
  slot : Nat
  index : Nat
  expectedPc : U64
  expectedPa : U64

structure DecodeCacheStats where
  hits : U64
  misses : U64

structure DecodeCache where
  blocks : Nat → DecodedBlock
  nextVictim : Nat → Nat
  active : Option ActiveInstruction
  stats : DecodeCacheStats

namespace DecodeCache

def BLOCK_SETS : Nat := 1024
def BLOCK_WAYS : Nat := 4
def MAX_BLOCK_INSTRUCTIONS : Nat := 16
def INVALID_PA : U64 := BitVec.allOnes 64

end DecodeCache

namespace DecodedBlock

open DecodeCache

def invalid : DecodedBlock :=
  { startPa := INVALID_PA, ramPage := 0, pageGeneration := 0, len := 0
    instructions := fun _ => none }

def generationIsCurrent (block : DecodedBlock) (ram : Ram) : Bool :=
  ram.generationForPage block.ramPage = some block.pageGeneration

def invalidate (block : DecodedBlock) : DecodedBlock :=
  { block with startPa := INVALID_PA, len := 0 }

end DecodedBlock

inductive ActiveLookup
  | hit (location : CacheLocation)
  /-- Grow the active block by the instruction about to be decoded. -/
  | append (slot index : Nat)
  | none

inductive Lookup
  | hit (location : CacheLocation)
  | miss

namespace DecodeCache

def new : DecodeCache :=
  { blocks := fun _ => .invalid
    nextVictim := fun _ => 0
    active := none
    stats := { hits := 0, misses := 0 } }

def flush (c : DecodeCache) : DecodeCache :=
  { c with
    blocks := fun slot => (c.blocks slot).invalidate
    nextVictim := fun _ => 0
    active := none }

def setBlock (c : DecodeCache) (slot : Nat) (block : DecodedBlock) : DecodeCache :=
  { c with blocks := Function.update c.blocks slot block }

def invalidateGeneration (c : DecodeCache) (slot : Nat) : DecodeCache :=
  c.setBlock slot (c.blocks slot).invalidate

def countHit (c : DecodeCache) : DecodeCache :=
  { c with stats := { c.stats with hits := c.stats.hits + 1 } }

def countMiss (c : DecodeCache) : DecodeCache :=
  { c with stats := { c.stats with misses := c.stats.misses + 1 } }

/-- `self.active.take()`. -/
def takeActive (c : DecodeCache) : DecodeCache :=
  { c with active := none }

/-- Continue the block the previous instruction fell through from. -/
def lookupActive (c : DecodeCache) (pc : U64) (ram : Ram) : ActiveLookup × DecodeCache :=
  match c.active with
  | none => (.none, c)
  | some active =>
    let c := c.takeActive
    let block := c.blocks active.slot
    if active.expectedPc = pc ∧ block.startPa ≠ INVALID_PA ∧ block.generationIsCurrent ram then
      if active.index < block.len then
        match block.instructions active.index with
        | some instruction =>
          if instruction.pa = active.expectedPa then
            (.hit ⟨active.slot, active.index, instruction⟩, c.countHit)
          else (.none, c)
        | none => (.none, c)
      else if active.index = block.len ∧ block.len < MAX_BLOCK_INSTRUCTIONS then
        (.append active.slot active.index, c.countMiss)
      else (.none, c)
    else if block.startPa ≠ INVALID_PA ∧ ¬ block.generationIsCurrent ram then
      (.none, c.invalidateGeneration active.slot)
    else (.none, c)

/-- Mix higher address bits so that aligned block starts can use every set. -/
def setFor (pa : U64) : Nat :=
  ((pa >>> 1) ^^^ (pa >>> 11)).toNat % BLOCK_SETS

def lookupWays (pa : U64) (ram : Ram) : List Nat → DecodeCache → Lookup × DecodeCache
  | [], c => (.miss, c.countMiss)
  | slot :: slots, c =>
    let block := c.blocks slot
    if block.startPa = pa then
      if block.generationIsCurrent ram then
        match block.instructions 0 with
        | some instruction => (.hit ⟨slot, 0, instruction⟩, c.countHit)
        | none => lookupWays pa ram slots c
      else lookupWays pa ram slots (c.invalidateGeneration slot)
    else lookupWays pa ram slots c

def lookupPhysical (c : DecodeCache) (pa : U64) (ram : Ram) : Lookup × DecodeCache :=
  lookupWays pa ram (List.range' (setFor pa * BLOCK_WAYS) BLOCK_WAYS) c

/-- The way a new block takes: the first free one from the victim on, or the victim. -/
def victimWay (c : DecodeCache) (set : Nat) : Nat :=
  let firstWay := c.nextVictim set
  (((List.range BLOCK_WAYS).map fun offset => (firstWay + offset) % BLOCK_WAYS).find?
    fun way => (c.blocks (set * BLOCK_WAYS + way)).startPa = INVALID_PA).getD firstWay

/-- A block of one instruction, in place of the victim; the other entries keep their contents. -/
def insertBlock (c : DecodeCache) (pa ramPage pageGeneration : U64)
    (instruction : CachedInstruction) : CacheLocation × DecodeCache :=
  let set := setFor pa
  let way := c.victimWay set
  let slot := set * BLOCK_WAYS + way
  let block : DecodedBlock :=
    { startPa := pa, ramPage := ramPage, pageGeneration := pageGeneration, len := 1
      instructions := Function.update (c.blocks slot).instructions 0 (some instruction) }
  (⟨slot, 0, instruction⟩,
    { (c.setBlock slot block) with
      nextVictim := Function.update c.nextVictim set ((way + 1) % BLOCK_WAYS) })

def appendFits (block : DecodedBlock) (ramPage pageGeneration : U64) (index : Nat) : Bool :=
  block.startPa ≠ INVALID_PA && block.ramPage = ramPage &&
    block.pageGeneration = pageGeneration && index = block.len && index < MAX_BLOCK_INSTRUCTIONS

def insert (c : DecodeCache) (pa ramPage pageGeneration : U64) (instruction : CachedInstruction)
    (append : Option (Nat × Nat)) : CacheLocation × DecodeCache :=
  match append with
  | some (slot, index) =>
    let block := c.blocks slot
    if appendFits block ramPage pageGeneration index then
      (⟨slot, index, instruction⟩, c.setBlock slot
        { block with
          instructions := Function.update block.instructions index (some instruction)
          len := block.len + 1 })
    else c.insertBlock pa ramPage pageGeneration instruction
  | none => c.insertBlock pa ramPage pageGeneration instruction

/-- Instructions that can redirect execution, change fetch translation or yield to the host. -/
def endsBlock : Op → Bool
  | .csr _ _ _ csr => csr = Csr.SATP
  | .jal .. | .jalr .. | .branch .. | .fenceI | .ecall | .ebreak | .mret | .sret | .wfi
  | .sfenceVma .. => true
  | _ => false

/-- Continue a block only after a successful architectural fallthrough. -/
def finishInstruction (c : DecodeCache) (location : CacheLocation)
    (instructionPc nextPc actualPc : U64) (ram : Ram) : DecodeCache :=
  if endsBlock location.instruction.decoded.op ∨ actualPc ≠ nextPc then
    { c with active := none }
  else
    let block := c.blocks location.slot
    if block.startPa = INVALID_PA ∨ ¬ block.generationIsCurrent ram ∨
        (block.instructions location.index).map CachedInstruction.pa ≠
          some location.instruction.pa ∨
        MAX_BLOCK_INSTRUCTIONS ≤ location.index + 1 ∨
        nextPc >>> 12 ≠ instructionPc >>> 12 then
      { c with active := none }
    else
      { c with
        active := some
          { slot := location.slot
            index := location.index + 1
            expectedPc := nextPc
            expectedPa := location.instruction.pa + (nextPc - instructionPc) } }

end DecodeCache

end EmulateComputer
