import EmulateComputer.Bus

/-!
# Mmu — Sv39 address translation with a TLB

A direct-mapped TLB over a three-level page-table walk.  The walk itself works on the bus alone
and returns, besides the physical address, the leaf flags as they now stand in memory;
`translate` looks the TLB up first and fills it after a successful walk.
-/

namespace EmulateComputer

open Effect

inductive AccessType
  | fetch
  | load
  | store
  deriving DecidableEq, Repr

structure TlbEntry where
  /-- Exact-match tag, `va >> 12`; all ones is invalid. -/
  vpn : U64
  paBase : U64
  /-- Leaf PTE flags, with A and D as updated in memory. -/
  flags : U64
  /-- Entries are filled with whole frames only. -/
  aligned : paBase &&& 0xFFF = 0
  deriving DecidableEq

structure Mmu where
  tlb : Fin 256 → TlbEntry
  generation : U64

namespace Mmu

def PTE_V : U64 := (1 : U64) <<< 0
def PTE_R : U64 := (1 : U64) <<< 1
def PTE_W : U64 := (1 : U64) <<< 2
def PTE_X : U64 := (1 : U64) <<< 3
def PTE_U : U64 := (1 : U64) <<< 4
def PTE_A : U64 := (1 : U64) <<< 6
def PTE_D : U64 := (1 : U64) <<< 7
def PPN_MASK : U64 := 0xFFFFFFFFFFF
def PTE_RESERVED_HIGH : U64 := (0x3FF : U64) <<< 54
def PTE_RESERVED_NONLEAF : U64 := PTE_D ||| PTE_A ||| PTE_U

def new : Mmu :=
  { tlb := fun _ => { vpn := BitVec.allOnes 64, paBase := 0, flags := 0, aligned := by decide }
    generation := 0 }

def flushAll (mmu : Mmu) : Mmu :=
  { tlb := fun i => { mmu.tlb i with vpn := BitVec.allOnes 64 }
    generation := mmu.generation + 1 }

def slot (vpn : U64) : Fin 256 :=
  ⟨vpn.toNat % 256, Nat.mod_lt _ (by decide)⟩

def pageFault (acc : AccessType) (va : U64) : Exception :=
  match acc with
  | .fetch => .instructionPageFault va
  | .load => .loadPageFault va
  | .store => .storePageFault va

def accessFault (acc : AccessType) (va : U64) : Exception :=
  match acc with
  | .fetch => .instructionAccessFault va
  | .load => .loadAccessFault va
  | .store => .storeAccessFault va

/-- The inputs of a translation besides the address: effective privilege and the CSR bits. -/
structure Params where
  mode : Mode
  mxr : Bool
  sum : Bool
  adue : Bool
  acc : AccessType

def permOk (flags : U64) (p : Params) : Bool :=
  let uPage := decide (flags &&& PTE_U ≠ 0)
  let modeOk :=
    match p.mode with
    | .user => uPage
    -- Supervisor mode never executes user pages and touches their data only with SUM.
    | .supervisor => !(uPage && (decide (p.acc = .fetch) || !p.sum))
    | .machine => true
  modeOk &&
    match p.acc with
    | .fetch => decide (flags &&& PTE_X ≠ 0)
    | .load => decide (flags &&& PTE_R ≠ 0) || (p.mxr && decide (flags &&& PTE_X ≠ 0))
    | .store => decide (flags &&& PTE_W ≠ 0)

/-- Bits 63 to 39 all equal bit 38. -/
def canonical (va : U64) : Bool :=
  va.sshiftRight 38 = 0 || va.sshiftRight 38 = BitVec.allOnes 64

variable {β : Type} [BlockBackend β]

/-- The leaf PTE with A, and for a store D, set. -/
def markedPte (acc : AccessType) (pte : U64) : U64 :=
  if acc = .store then pte ||| PTE_A ||| PTE_D else pte ||| PTE_A

/-- The physical address behind a leaf: low bits from the virtual address. -/
def leafPa (level : Nat) (pte va : U64) : U64 :=
  let offMask : U64 := ((1 : U64) <<< (12 + 9 * level)) - 1
  ((((pte >>> 10) &&& PPN_MASK) <<< 12) &&& ~~~offMask) ||| (va &&& offMask)

/-- A bus access whose refusal is an access fault of the translation. -/
def orAccessFault {α : Type} (p : Params) (va : U64) (x : Access (Bus β) α) :
    EStateM Exception (Bus β) α :=
  mapError (fun _ => accessFault p.acc va) x

/-- Checks and A/D update at a leaf PTE; the answer is the physical address and the flags. -/
def walkLeaf (p : Params) (va : U64) (level : Nat) (pteAddr pte : U64) :
    EStateM Exception (Bus β) (U64 × U64) := do
  let bus ← get
  let ppn := (pte >>> 10) &&& PPN_MASK
  let newPte := markedPte p.acc pte
  let answer := (leafPa level pte va, newPte &&& 0xFF)
  if 0 < level ∧ ppn &&& (((1 : U64) <<< (9 * level)) - 1) ≠ 0 then
    throw (pageFault p.acc va)
  else if ¬ permOk pte p then
    throw (pageFault p.acc va)
  else if newPte ≠ pte then
    -- With ADUE clear the access faults and software updates the bits.
    if ¬ p.adue then
      throw (pageFault p.acc va)
    else if ¬ bus.isMainMemory pteAddr 8 then
      throw (accessFault p.acc va)
    else do
      orAccessFault p va (Bus.write pteAddr newPte 8)
      modify (Bus.noteMark pteAddr)
      pure answer
  else
    pure answer

/-- One level of the walk; `next` continues with the next-level table. -/
def walkLevel (p : Params) (va : U64) (level : Nat) (a : U64)
    (next : U64 → EStateM Exception (Bus β) (U64 × U64)) :
    EStateM Exception (Bus β) (U64 × U64) := do
  let bus ← get
  let pteAddr := a + ((va >>> (12 + 9 * level)) &&& 0x1FF) * 8
  if ¬ bus.isMainMemory pteAddr 8 then
    throw (accessFault p.acc va)
  else do
    let pte ← orAccessFault p va (Bus.read pteAddr 8)
    if pte &&& PTE_RESERVED_HIGH ≠ 0 then
      throw (pageFault p.acc va)
    else if pte &&& PTE_V = 0 ∨ (pte &&& PTE_W ≠ 0 ∧ pte &&& PTE_R = 0) then
      throw (pageFault p.acc va)
    else if pte &&& PTE_R ≠ 0 ∨ pte &&& PTE_X ≠ 0 then
      walkLeaf p va level pteAddr pte
    else if pte &&& PTE_RESERVED_NONLEAF ≠ 0 then
      throw (pageFault p.acc va)
    else
      next (((pte >>> 10) &&& PPN_MASK) <<< 12)

/-- The walk from a level down; a pointer at level 0 is a page fault. -/
def walkFrom (p : Params) (va : U64) : Nat → U64 → EStateM Exception (Bus β) (U64 × U64)
  | 0, a => walkLevel p va 0 a fun _ => throw (pageFault p.acc va)
  | level + 1, a => walkLevel p va (level + 1) a (walkFrom p va level)

def walk (satp : U64) (p : Params) (va : U64) : EStateM Exception (Bus β) (U64 × U64) :=
  if ¬ canonical va then
    throw (pageFault p.acc va)
  else
    walkFrom p va 2 ((satp &&& PPN_MASK) <<< 12)

def fill (mmu : Mmu) (va pa flags : U64) : Mmu :=
  { mmu with
    tlb := Function.update mmu.tlb (slot (va >>> 12))
      { vpn := va >>> 12
        paBase := pa &&& ~~~0xFFF
        flags := flags
        aligned := by rw [BitVec.and_assoc]; exact BitVec.and_zero } }

/-- Translation is the identity in bare mode and at machine privilege. -/
def identity (satp : U64) (mode : Mode) : Bool :=
  satp >>> 60 ≠ 8 || mode = .machine

/-- What the TLB says about a translation: a frame, a fault, or nothing. -/
def lookup (mmu : Mmu) (p : Params) (va : U64) : Option (Except Exception U64) :=
  let e := mmu.tlb (slot (va >>> 12))
  if e.vpn = va >>> 12 then
    if permOk e.flags p then
      -- A store without the cached D bit walks again, so that D gets set in memory.
      if p.acc ≠ .store ∨ e.flags &&& PTE_D ≠ 0 then
        some (.ok (e.paBase ||| (va &&& 0xFFF)))
      else none
    else some (.error (pageFault p.acc va))
  else none

def translate (satp : U64) (p : Params) (va : U64) : EStateM Exception (Mmu × Bus β) U64 := do
  let s ← get
  if identity satp p.mode then
    pure va
  else
    match s.1.lookup p va with
    | some (.ok pa) => pure pa
    | some (.error e) => throw e
    | none => do
      let (pa, flags) ← zoom Prod.snd (fun bus s => (s.1, bus)) id (walk satp p va)
      modify fun s => (s.1.fill va pa flags, s.2)
      pure pa

/-! ## The bus along a translation -/

section BusFrame

variable {R : Bus β → Bus β → Prop} [IsPreorder (Bus β) R]

theorem keeps_walkLeaf (hwrite : ∀ addr val size, Keeps R (Bus.write addr val size))
    (hnote : ∀ addr bus, R bus (Bus.noteMark addr bus)) (p : Params) (va : U64) (level : Nat)
    (pteAddr pte : U64) : Keeps R (walkLeaf p va level pteAddr pte) := by
  refine keeps_bind keeps_get fun bus => ?_
  refine keeps_ite (fun _ => keeps_throw _) fun _ => ?_
  refine keeps_ite (fun _ => keeps_throw _) fun _ => ?_
  refine keeps_ite (fun _ => ?_) fun _ => keeps_pure _
  refine keeps_ite (fun _ => keeps_throw _) fun _ => ?_
  refine keeps_ite (fun _ => keeps_throw _) fun _ => ?_
  refine keeps_bind (keeps_mapError (hwrite _ _ _)) fun _ => ?_
  exact keeps_bind (keeps_modify (hnote pteAddr)) fun _ => keeps_pure _

variable (hread : ∀ addr size, Keeps R (Bus.read addr size))
  (hwrite : ∀ addr val size, Keeps R (Bus.write addr val size))
  (hnote : ∀ addr bus, R bus (Bus.noteMark addr bus))

include hread hwrite hnote

theorem keeps_walkLevel (p : Params) (va : U64) (level : Nat) (a : U64)
    {next : U64 → EStateM Exception (Bus β) (U64 × U64)} (hnext : ∀ a, Keeps R (next a)) :
    Keeps R (walkLevel p va level a next) := by
  refine keeps_bind keeps_get fun bus => ?_
  refine keeps_ite (fun _ => keeps_throw _) fun _ => ?_
  refine keeps_bind (keeps_mapError (hread _ _)) fun pte => ?_
  refine keeps_ite (fun _ => keeps_throw _) fun _ => ?_
  refine keeps_ite (fun _ => keeps_throw _) fun _ => ?_
  refine keeps_ite (fun _ => keeps_walkLeaf hwrite hnote p va level _ pte) fun _ => ?_
  exact keeps_ite (fun _ => keeps_throw _) fun _ => hnext _

theorem keeps_walkFrom (p : Params) (va : U64) (level : Nat) (a : U64) :
    Keeps R (walkFrom p va level a) := by
  induction level generalizing a with
  | zero => exact keeps_walkLevel hread hwrite hnote p va 0 a fun _ => keeps_throw _
  | succ level ih => exact keeps_walkLevel hread hwrite hnote p va (level + 1) a ih

theorem keeps_walk (satp : U64) (p : Params) (va : U64) : Keeps R (walk satp p va) :=
  keeps_ite (fun _ => keeps_throw _) fun _ => keeps_walkFrom hread hwrite hnote p va 2 _

/-- A translation moves the bus along any preorder that bus accesses keep. -/
theorem keeps_translate (satp : U64) (p : Params) (va : U64) :
    Keeps (fun s t : Mmu × Bus β => R s.2 t.2) (translate satp p va) := by
  refine keeps_bind keeps_get fun s => ?_
  refine keeps_ite (fun _ => keeps_pure va) fun _ => ?_
  cases s.1.lookup p va with
  | some found =>
    cases found with
    | ok pa => exact keeps_pure pa
    | error e => exact keeps_throw e
  | none =>
    refine keeps_bind (keeps_zoom (keeps_walk hread hwrite hnote satp p va) ?_) fun r => ?_
    · exact fun _ _ h => h
    · exact keeps_bind (keeps_modify fun s => refl_of R s.2) fun _ =>
        keeps_pure r.1

end BusFrame

end Mmu

end EmulateComputer
