import EmulateComputer.Lib.Radix
import EmulateComputer.Mmu

/-!
# Walk — the page-table walk as a radix walk

The walk reads memory and, at a leaf, may set accessed and dirty bits.  Its first half is the pure
walk of `Lib.Radix` over the words of main memory; `walk_eq` puts the two halves together.

`Marked` relates a word to the same word after such updates.  Marked words read the same, so the
walker never changes where a walk leads.
-/

namespace EmulateComputer

open Effect

namespace Ram

def word (ram : Ram) (start : Nat) : U64 :=
  Bytes.ofLE 64 (Bytes.slice ram.data start 8)

theorem word_stored_self {ram : Ram} {start : Nat} {val : U64}
    (h : start + (Bytes.toLE 8 val).length ≤ ram.size) :
    (ram.stored start (Bytes.toLE 8 val) h).word start = val := by
  have hself := Bytes.slice_splice_self ram.data start (Bytes.toLE 8 val)
  rw [Bytes.length_toLE] at hself
  unfold word
  rw [data_stored, hself, Bytes.ofLE_toLE 8 val (by decide)]

theorem word_stored {ram : Ram} {start : Nat} {val : U64}
    (h : start + (Bytes.toLE 8 val).length ≤ ram.size) {i : Nat} (hi : 8 ∣ i) (hstart : 8 ∣ start) :
    (ram.stored start (Bytes.toLE 8 val) h).word i = if i = start then val else ram.word i := by
  by_cases heq : i = start
  · rw [if_pos heq, heq, word_stored_self]
  · unfold word
    rw [data_stored, if_neg heq, Bytes.slice_splice_of_disjoint]
    rw [Bytes.length_toLE]
    omega

end Ram

namespace Mmu

variable {β : Type}

/-! ## Words of page tables -/

/-- The word a walk finds at a physical address; there is none outside main memory. -/
def pteAt (bus : Bus β) (addr : U64) : Option U64 :=
  if bus.isMainMemory addr 8 then some (bus.ram.word (addr - DRAM_BASE).toNat) else none

theorem isMainMemory_iff (bus : Bus β) (addr : U64) (size : Nat) :
    bus.isMainMemory addr size = true ↔
      DRAM_BASE ≤ addr ∧ (addr - DRAM_BASE).toNat + size ≤ bus.ram.size := by
  simp [Bus.isMainMemory]

/-- What a word of a page table says; a leaf above level 0 must be aligned. -/
def classify (level : Nat) (pte : U64) : Radix.Node U64 :=
  if pte &&& PTE_RESERVED_HIGH ≠ 0 then .void
  else if pte &&& PTE_V = 0 ∨ (pte &&& PTE_W ≠ 0 ∧ pte &&& PTE_R = 0) then .void
  else if pte &&& PTE_R ≠ 0 ∨ pte &&& PTE_X ≠ 0 then
    if 0 < level ∧ ((pte >>> 10) &&& PPN_MASK) &&& (((1 : U64) <<< (9 * level)) - 1) ≠ 0 then .void
    else .leaf
  else if pte &&& PTE_RESERVED_NONLEAF ≠ 0 then .void
  else .table ((pte >>> 10) &&& PPN_MASK)

/-- Sv39 page tables, for one virtual address; a table is its physical page number. -/
def sv39 (va : U64) : Radix.Layout U64 U64 U64 where
  slot level ppn := (ppn <<< 12) + ((va >>> (12 + 9 * level)) &&& 0x1FF) * 8
  classify := classify

def resolve (bus : Bus β) (satp va : U64) : Radix.Outcome U64 U64 :=
  (sv39 va).walk (pteAt bus) 2 (satp &&& PPN_MASK)

/-- The addresses of the words that walk reads. -/
def tablePath (bus : Bus β) (satp va : U64) : List U64 :=
  (sv39 va).path (pteAt bus) 2 (satp &&& PPN_MASK)

theorem slot_aligned (va : U64) (level : Nat) (ppn : U64) :
    ((sv39 va).slot level ppn).toNat % 8 = 0 := by
  simp only [sv39, BitVec.toNat_add, BitVec.toNat_shiftLeft, BitVec.toNat_mul,
    show (8 : U64).toNat = 8 from rfl]
  omega

theorem aligned_of_mem_tablePath {bus : Bus β} {satp va addr : U64}
    (h : addr ∈ tablePath bus satp va) : addr.toNat % 8 = 0 := by
  obtain ⟨level, ppn, rfl⟩ := Radix.Layout.exists_slot_of_mem_path h
  exact slot_aligned va level ppn

/-! ## The walk in closed form -/

section

variable [BlockBackend β] {bus : Bus β} {addr : U64} {down : U64 → Radix.Outcome U64 U64}

theorem read_pte (h : bus.isMainMemory addr 8 = true) :
    Bus.read addr 8 bus = .ok (bus.ram.word (addr - DRAM_BASE).toNat) bus := by
  rw [isMainMemory_iff] at h
  unfold Bus.read
  rw [if_pos h.1, Ram.read_eq, if_pos h.2]
  rfl

def mark (addr word : U64) (bus : Bus β) : Bus β :=
  Bus.noteMark addr
    { bus with ram := (bus.ram.write (addr - DRAM_BASE) word 8).getD bus.ram }

omit [BlockBackend β] in
theorem write_word (h : bus.isMainMemory addr 8 = true) (word : U64) :
    ∃ hfits, bus.ram.write (addr - DRAM_BASE) word 8 =
      some (bus.ram.stored (addr - DRAM_BASE).toNat (Bytes.toLE 8 word) hfits) := by
  have hfits : (addr - DRAM_BASE).toNat + (Bytes.toLE 8 word).length ≤ bus.ram.size := by
    exact ((isMainMemory_iff bus addr 8).mp h).2
  refine ⟨hfits, ?_⟩
  rw [Ram.write_eq _ _ _ _ le_rfl, Ram.writeSlice_eq, dif_pos hfits]

theorem write_pte (h : bus.isMainMemory addr 8 = true) (word : U64) :
    ∃ bus', Bus.write addr word 8 bus = .ok () bus' ∧
      Bus.noteMark addr bus' = mark addr word bus := by
  obtain ⟨hfits, hwrite⟩ := write_word h word
  refine ⟨{ bus with ram := bus.ram.stored _ _ hfits }, ?_, ?_⟩
  · unfold Bus.write
    rw [if_pos ((isMainMemory_iff bus addr 8).mp h).1, hwrite]
  · unfold mark
    rw [hwrite]
    rfl

omit [BlockBackend β] in
theorem isMainMemory_of_pteAt {pte : U64} (h : pteAt bus addr = some pte) :
    bus.isMainMemory addr 8 = true := by
  unfold pteAt at h
  split at h
  · assumption
  · cases h

def leafAnswer (p : Params) (va : U64) (level : Nat) (addr pte : U64) (bus : Bus β) :
    EStateM.Result Exception (Bus β) (U64 × U64) :=
  if permOk pte p then
    if markedPte p.acc pte = pte then .ok (leafPa level pte va, pte &&& 0xFF) bus
    else if p.adue then
      .ok (leafPa level pte va, markedPte p.acc pte &&& 0xFF) (mark addr (markedPte p.acc pte) bus)
    else .error (pageFault p.acc va) bus
  else .error (pageFault p.acc va) bus

def outcomeAnswer (p : Params) (va : U64) (bus : Bus β) :
    Radix.Outcome U64 U64 → EStateM.Result Exception (Bus β) (U64 × U64)
  | .unmapped => .error (accessFault p.acc va) bus
  | .void => .error (pageFault p.acc va) bus
  | .leaf level addr pte => leafAnswer p va level addr pte bus

theorem walkLeaf_eq (p : Params) (va : U64) {level : Nat} {pte : U64}
    (hmem : bus.isMainMemory addr 8 = true) (hleaf : classify level pte = .leaf) :
    walkLeaf p va level addr pte bus = leafAnswer p va level addr pte bus := by
  have haligned : ¬ (0 < level ∧
      ((pte >>> 10) &&& PPN_MASK) &&& (((1 : U64) <<< (9 * level)) - 1) ≠ 0) := by
    intro hbad
    unfold classify at hleaf
    split_ifs at hleaf
  unfold walkLeaf leafAnswer
  rw [run_bind, run_get]
  dsimp only
  rw [if_neg haligned]
  by_cases hperm : permOk pte p = true
  · rw [if_neg (by simpa using hperm), if_pos hperm]
    by_cases hmarked : markedPte p.acc pte = pte
    · rw [if_neg (by simpa using hmarked), if_pos hmarked, hmarked]
      rfl
    · rw [if_pos hmarked, if_neg hmarked]
      by_cases hadue : p.adue = true
      · obtain ⟨bus', hwrite, hmark⟩ := write_pte hmem (markedPte p.acc pte)
        rw [if_neg (by simpa using hadue), if_neg (by simpa using hmem), if_pos hadue]
        have hok : orAccessFault p va (Bus.write addr (markedPte p.acc pte) 8) bus =
            .ok () bus' := by
          unfold orAccessFault mapError zoom
          simp only [id_eq, hwrite]
        rw [run_bind_ok hok, ← hmark]
        rfl
      · rw [if_pos (by simpa using hadue), if_neg hadue]
        rfl
  · rw [if_pos (by simpa using hperm), if_neg hperm]
    rfl

/-- The tests on a word that has been read stand in the same order as those of `classify`; only a
misaligned leaf is found out by the visit of the leaf. -/
theorem visitPte_eq (p : Params) (va : U64) (level : Nat) (pte : U64)
    (hmem : bus.isMainMemory addr 8 = true) (next : U64 → EStateM Exception (Bus β) (U64 × U64))
    (hnext : ∀ ppn : U64, next (ppn <<< 12) bus = outcomeAnswer p va bus (down ppn)) :
    (if pte &&& PTE_RESERVED_HIGH ≠ 0 then throw (pageFault p.acc va)
      else if pte &&& PTE_V = 0 ∨ (pte &&& PTE_W ≠ 0 ∧ pte &&& PTE_R = 0) then
        throw (pageFault p.acc va)
      else if pte &&& PTE_R ≠ 0 ∨ pte &&& PTE_X ≠ 0 then walkLeaf p va level addr pte
      else if pte &&& PTE_RESERVED_NONLEAF ≠ 0 then throw (pageFault p.acc va)
      else next (((pte >>> 10) &&& PPN_MASK) <<< 12) : EStateM Exception (Bus β) (U64 × U64)) bus =
      outcomeAnswer p va bus ((sv39 va).follow level addr pte down) := by
  simp only [Radix.Layout.follow, sv39]
  unfold classify
  split_ifs with hhigh hvalid hrx haligned hreserved
  · rfl
  · rfl
  · rw [walkLeaf, run_bind, run_get]
    dsimp only
    rw [if_pos haligned]
    rfl
  · refine walkLeaf_eq p va hmem ?_
    rw [classify, if_neg hhigh, if_neg hvalid, if_pos hrx, if_neg haligned]
  · rfl
  · exact hnext _

theorem walkLevel_eq (p : Params) (va : U64) (level : Nat) (ppn : U64) (bus : Bus β)
    (next : U64 → EStateM Exception (Bus β) (U64 × U64))
    (hnext : ∀ ppn' : U64, next (ppn' <<< 12) bus = outcomeAnswer p va bus (down ppn')) :
    walkLevel p va level (ppn <<< 12) next bus =
      outcomeAnswer p va bus ((sv39 va).visit (pteAt bus) level ppn down) := by
  have hslot : (ppn <<< 12) + ((va >>> (12 + 9 * level)) &&& 0x1FF) * 8 =
      (sv39 va).slot level ppn := rfl
  unfold walkLevel Radix.Layout.visit
  rw [run_bind, run_get]
  dsimp only
  rw [hslot]
  generalize (sv39 va).slot level ppn = addr
  by_cases hmem : bus.isMainMemory addr 8 = true
  · have hpte : pteAt bus addr = some (bus.ram.word (addr - DRAM_BASE).toNat) := if_pos hmem
    have hread : orAccessFault p va (Bus.read addr 8) bus =
        .ok (bus.ram.word (addr - DRAM_BASE).toNat) bus := by
      unfold orAccessFault mapError zoom
      simp only [id_eq, read_pte hmem]
    rw [if_neg (not_not.mpr hmem), hpte, run_bind_ok hread]
    exact visitPte_eq p va level _ hmem next hnext
  · have hpte : pteAt bus addr = none := if_neg hmem
    rw [if_pos hmem, hpte]
    rfl

theorem walkFrom_eq (p : Params) (va : U64) (level : Nat) (ppn : U64) (bus : Bus β) :
    walkFrom p va level (ppn <<< 12) bus =
      outcomeAnswer p va bus ((sv39 va).walk (pteAt bus) level ppn) := by
  induction level generalizing ppn with
  | zero => exact walkLevel_eq p va 0 ppn bus _ fun _ => rfl
  | succ level ih => exact walkLevel_eq p va (level + 1) ppn bus _ ih

theorem walk_eq (satp : U64) (p : Params) {va : U64} (hva : canonical va = true) (bus : Bus β) :
    walk satp p va bus = outcomeAnswer p va bus (resolve bus satp va) := by
  unfold walk
  rw [if_neg (not_not.mpr hva)]
  exact walkFrom_eq p va 2 _ bus

end

end Mmu

end EmulateComputer
