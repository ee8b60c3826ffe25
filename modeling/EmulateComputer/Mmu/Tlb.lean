import EmulateComputer.Mmu.Walk

/-!
# Tlb — translation with a TLB equals translation without one

A TLB entry caches the end of a walk: the frame, and the flags of the leaf as they stood then.
Later walks may set more accessed and dirty bits in the same leaf, also through other addresses,
so the entry is tied to the leaf as it now is: same frame, same permissions, accessed, and dirty
if the entry says so (`Backed`).

The invariant `TlbSound` is relative to a set of words written by others than the walker, for
whose paths it promises nothing.
-/

namespace EmulateComputer

open Effect

namespace Mmu

/-! ## Marked words -/

/-- `w'` is `w`, or `w` is a leaf and `w'` the same leaf with more accessed and dirty bits. -/
def Marked (w w' : U64) : Prop :=
  w' = w ∨ ((w &&& PTE_R ≠ 0 ∨ w &&& PTE_X ≠ 0) ∧
    ∃ m, m &&& ~~~(PTE_A ||| PTE_D) = 0 ∧ w' = w ||| m)

namespace Marked

variable {w w' : U64}

theorem refl (w : U64) : Marked w w :=
  Or.inl rfl

section

variable (h : Marked w w')

include h

theorem exists_or : ∃ m, m &&& ~~~(PTE_A ||| PTE_D) = 0 ∧ w' = w ||| m := by
  rcases h with rfl | ⟨-, m, hm, rfl⟩
  · exact ⟨0, by decide, by simp⟩
  · exact ⟨m, hm, rfl⟩

/-- Only the bits of A and D may differ. -/
theorem getLsbD {i : Nat} (hi : (PTE_A ||| PTE_D).getLsbD i = false) :
    w'.getLsbD i = w.getLsbD i := by
  obtain ⟨m, hm, rfl⟩ := h.exists_or
  by_cases hlt : i < 64
  · have hmask := (BitMask.eq_zero_iff _).mp hm i
    rw [BitVec.getLsbD_and, BitVec.getLsbD_not, hi] at hmask
    have hbit : m.getLsbD i = false := by simpa [hlt] using hmask
    rw [BitVec.getLsbD_or, hbit, Bool.or_false]
  · have hge : 64 ≤ i := Nat.le_of_not_lt hlt
    rw [BitVec.getLsbD_of_ge _ _ hge, BitVec.getLsbD_of_ge _ _ hge]

/-- A field without A and D reads the same. -/
theorem and_eq {f : U64} (hf : (PTE_A ||| PTE_D) &&& f = 0) : w' &&& f = w &&& f := by
  apply BitVec.eq_of_getLsbD_eq
  intro i _
  rw [BitVec.getLsbD_and, BitVec.getLsbD_and]
  cases hi : f.getLsbD i with
  | false => simp
  | true =>
    have hbit := (BitMask.eq_zero_iff _).mp hf i
    rw [BitVec.getLsbD_and, hi, Bool.and_true] at hbit
    rw [h.getLsbD hbit]

theorem ppn_eq : w' >>> 10 = w >>> 10 := by
  apply BitVec.eq_of_getLsbD_eq
  intro i _
  have hi : (PTE_A ||| PTE_D).getLsbD (10 + i) = false := by
    have hmask : PTE_A ||| PTE_D = BitVec.setWidth 64 (0xC0 : U8) := by decide
    rw [hmask, BitVec.getLsbD_setWidth, BitVec.getLsbD_of_ge _ _ (by omega)]
    simp
  rw [BitVec.getLsbD_ushiftRight, BitVec.getLsbD_ushiftRight, h.getLsbD hi]

/-- Bits that are set stay set. -/
theorem ne_zero {f : U64} (hw : w &&& f ≠ 0) : w' &&& f ≠ 0 := by
  obtain ⟨m, -, rfl⟩ := h.exists_or
  rw [BitVec.and_or_distrib_right]
  exact fun hzero => hw (BitVec.or_eq_zero_iff.mp hzero).1

/-- Marked words say the same. -/
theorem classify_eq (level : Nat) : classify level w' = classify level w := by
  rcases h with rfl | ⟨hleaf, hm⟩
  · rfl
  · have h : Marked w w' := Or.inr ⟨hleaf, hm⟩
    have hR := h.and_eq (f := PTE_R) (by decide)
    have hX := h.and_eq (f := PTE_X) (by decide)
    unfold classify
    rw [h.and_eq (f := PTE_RESERVED_HIGH) (by decide), h.and_eq (f := PTE_V) (by decide),
      h.and_eq (f := PTE_W) (by decide), hR, hX, h.ppn_eq, if_pos hleaf, if_pos hleaf]

theorem leafPa_eq (level : Nat) (va : U64) : leafPa level w' va = leafPa level w va := by
  unfold leafPa
  rw [h.ppn_eq]

end

end Marked

theorem marked_markedPte (acc : AccessType) {pte : U64}
    (hleaf : pte &&& PTE_R ≠ 0 ∨ pte &&& PTE_X ≠ 0) : Marked pte (markedPte acc pte) := by
  refine Or.inr ⟨hleaf, ?_⟩
  unfold markedPte
  split
  · exact ⟨PTE_A ||| PTE_D, by decide, BitVec.or_assoc _ _ _⟩
  · exact ⟨PTE_A, by decide, rfl⟩

variable {level : Nat}

theorem leaf_of_classify {pte : U64} (h : classify level pte = .leaf) :
    pte &&& PTE_R ≠ 0 ∨ pte &&& PTE_X ≠ 0 := by
  unfold classify at h
  split_ifs at h
  assumption

/-! ## Pages -/

section Page

variable {va va' : U64}

theorem getLsbD_pageMask (i : Nat) : (0xFFF : U64).getLsbD i = decide (i < 12) := by
  have hlow : (0xFFF : U64) = ((1 : U64) <<< 12) - 1 := by decide
  rw [hlow, BitMask.getLsbD_low]
  by_cases hi : i < 12
  · simp [hi, Nat.lt_trans hi (by decide : 12 < 64)]
  · simp [hi]

section

variable (h : va >>> 12 = va' >>> 12)

include h

theorem getLsbD_of_page {i : Nat} (hi : 12 ≤ i) : va.getLsbD i = va'.getLsbD i := by
  have hbit := congrArg (fun v : U64 => v.getLsbD (i - 12)) h
  simp only [BitVec.getLsbD_ushiftRight] at hbit
  rwa [show 12 + (i - 12) = i by omega] at hbit

theorem shiftRight_of_page (k : Nat) : va >>> (12 + k) = va' >>> (12 + k) := by
  rw [BitVec.shiftRight_add, BitVec.shiftRight_add, h]

/-- Addresses of one page have one walk. -/
theorem sv39_congr : sv39 va = sv39 va' := by
  unfold sv39
  simp only [shiftRight_of_page h]

theorem canonical_congr : canonical va = canonical va' := by
  have hshift : va.sshiftRight 38 = va'.sshiftRight 38 := by
    apply BitVec.eq_of_getLsbD_eq
    intro i hi
    rw [BitVec.getLsbD_sshiftRight, BitVec.getLsbD_sshiftRight]
    have hmsb : va.msb = va'.msb := by
      exact getLsbD_of_page h (by decide)
    rw [hmsb, getLsbD_of_page h (by omega : 12 ≤ 38 + i)]
  unfold canonical
  rw [hshift]

end

/-- The bits of the offset come from the address, the others from the entry. -/
theorem getLsbD_leafPa (level : Nat) (pte va : U64) {i : Nat} (hi : i < 64) :
    (leafPa level pte va).getLsbD i =
      if i < 12 + 9 * level then va.getLsbD i
      else (((pte >>> 10) &&& PPN_MASK) <<< 12).getLsbD i := by
  change (BitMask.merge _ _ va).getLsbD i = _
  rw [BitMask.getLsbD_merge, BitMask.getLsbD_low]
  by_cases hlow : i < 12 + 9 * level
  · simp [hlow, hi]
  · simp [hlow]

/-- The frame of a leaf is that of every address of the page. -/
theorem frame_congr (h : va >>> 12 = va' >>> 12) (level : Nat) (pte : U64) :
    leafPa level pte va &&& ~~~0xFFF = leafPa level pte va' &&& ~~~0xFFF := by
  refine BitMask.and_not_congr fun i h64 hi => ?_
  rw [getLsbD_pageMask, decide_eq_false_iff_not] at hi
  rw [getLsbD_leafPa level pte va h64, getLsbD_leafPa level pte va' h64,
    getLsbD_of_page h (Nat.le_of_not_lt hi)]

/-- Frame and offset give the physical address back. -/
theorem frame_or_offset (level : Nat) (pte va : U64) :
    (leafPa level pte va &&& ~~~0xFFF) ||| (va &&& 0xFFF) = leafPa level pte va := by
  apply BitVec.eq_of_getLsbD_eq
  intro i hi
  change (BitMask.merge 0xFFF (leafPa level pte va) va).getLsbD i = _
  rw [BitMask.getLsbD_merge, getLsbD_pageMask]
  by_cases hlow : i < 12
  · rw [decide_eq_true hlow, if_pos rfl, getLsbD_leafPa level pte va hi, if_pos (by omega)]
  · rw [decide_eq_false hlow, if_neg (by decide)]

end Page

/-- The flags that the permission check reads. -/
def PTE_PERMS : U64 := PTE_R ||| PTE_W ||| PTE_X ||| PTE_U

theorem permOk_congr {f g : U64} (h : f &&& PTE_PERMS = g &&& PTE_PERMS) (p : Params) :
    permOk f p = permOk g p := by
  have hfield : ∀ {m : U64}, PTE_PERMS &&& m = m → f &&& m = g &&& m := by
    intro m hm
    rw [← hm, ← BitVec.and_assoc, ← BitVec.and_assoc, h]
  have hU := hfield (m := PTE_U) (by decide)
  have hX := hfield (m := PTE_X) (by decide)
  have hR := hfield (m := PTE_R) (by decide)
  have hW := hfield (m := PTE_W) (by decide)
  unfold permOk
  rw [hU, hX, hR, hW]

/-! ## Memories that differ by marks -/

section

variable {β : Type}

/-- Outside `W`, the words of page tables differ by marks only. -/
def MarkedOutside (W : Set U64) (bus bus' : Bus β) : Prop :=
  ∀ addr : U64, addr.toNat % 8 = 0 → addr ∉ W →
    (pteAt bus addr = none ∧ pteAt bus' addr = none) ∨
      ∃ w w', pteAt bus addr = some w ∧ pteAt bus' addr = some w' ∧ Marked w w'

variable {addr pa flags pte satp : U64} {e : Exception} {bus : Bus β} {W : Set U64}

theorem toNat_sub_base (h : DRAM_BASE ≤ addr) :
    (addr - DRAM_BASE).toNat = addr.toNat - 0x80000000 := by
  have hbase : DRAM_BASE.toNat = 0x80000000 := rfl
  rw [BitVec.toNat_sub_of_le h, hbase]

/-- The words after the walker has replaced one. -/
theorem pteAt_mark (hmem : bus.isMainMemory addr 8 = true) (haddr : addr.toNat % 8 = 0)
    (word : U64) {a : U64} (ha : a.toNat % 8 = 0) :
    pteAt (mark addr word bus) a = if a = addr then some word else pteAt bus a := by
  obtain ⟨hfits, hwrite⟩ := write_word hmem word
  have hsize : (mark addr word bus).ram.size = bus.ram.size := by
    change ((bus.ram.write (addr - DRAM_BASE) word 8).getD bus.ram).size = _
    rw [hwrite]
    exact Ram.size_stored hfits
  have hsame : (mark addr word bus).isMainMemory a 8 = bus.isMainMemory a 8 := by
    unfold Bus.isMainMemory
    rw [hsize]
  unfold pteAt
  rw [hsame]
  by_cases hin : bus.isMainMemory a 8 = true
  · have hbase := ((isMainMemory_iff bus addr 8).mp hmem).1
    have hbase' := ((isMainMemory_iff bus a 8).mp hin).1
    have hle : 0x80000000 ≤ addr.toNat := hbase
    have hle' : 0x80000000 ≤ a.toNat := hbase'
    have hword : (mark addr word bus).ram.word (a - DRAM_BASE).toNat =
        if (a - DRAM_BASE).toNat = (addr - DRAM_BASE).toNat then word
        else bus.ram.word (a - DRAM_BASE).toNat := by
      change ((bus.ram.write (addr - DRAM_BASE) word 8).getD bus.ram).word _ = _
      rw [hwrite]
      refine Ram.word_stored hfits ?_ ?_
      · rw [toNat_sub_base hbase']
        omega
      · rw [toNat_sub_base hbase]
        omega
    rw [if_pos hin, if_pos hin, hword, toNat_sub_base hbase, toNat_sub_base hbase']
    by_cases heq : a = addr
    · rw [if_pos heq, heq, if_pos rfl]
    · have hne : ¬ a.toNat - 0x80000000 = addr.toNat - 0x80000000 := fun h =>
        heq (BitVec.eq_of_toNat_eq (by omega))
      rw [if_neg heq, if_neg hne]
  · have hne : a ≠ addr := by
      rintro rfl
      exact hin hmem
    rw [if_neg hin, if_neg hin, if_neg hne]

namespace MarkedOutside

variable {W' : Set U64} {bus' bus'' : Bus β} {va : U64}

theorem refl (W : Set U64) (bus : Bus β) : MarkedOutside W bus bus := by
  intro addr _ _
  cases hw : pteAt bus addr with
  | none => exact Or.inl ⟨rfl, rfl⟩
  | some w => exact Or.inr ⟨w, w, rfl, rfl, .refl w⟩

/-- A path of the later memory that avoids `W` is the path of the earlier one. -/
theorem tablePath_eq (h : MarkedOutside W bus bus') (hpath : ∀ a ∈ tablePath bus' satp va, a ∉ W) :
    tablePath bus satp va = tablePath bus' satp va := by
  refine Radix.Layout.path_congr fun a ha level => ?_
  rcases h a (aligned_of_mem_tablePath ha) (hpath a ha) with ⟨hn, hn'⟩ | ⟨w, w', hw, hw', hm⟩
  · rw [hn, hn']
  · rw [hw, hw']
    exact congrArg some (hm.classify_eq level).symm

/-- A leaf found along a path that avoids `W` is found again, marked. -/
theorem resolve_leaf (h : MarkedOutside W bus bus') (hpath : ∀ a ∈ tablePath bus satp va, a ∉ W)
    {addr pte : U64} (hleaf : resolve bus satp va = .leaf level addr pte) :
    ∃ pte', Marked pte pte' ∧ resolve bus' satp va = .leaf level addr pte' := by
  refine Radix.Layout.walk_congr (fun level w w' hw => hw.classify_eq level) ?_ hleaf
  intro a ha w hw
  rcases h a (aligned_of_mem_tablePath ha) (hpath a ha) with ⟨hn, -⟩ | ⟨v, v', hv, hv', hm⟩
  · rw [hw] at hn
    cases hn
  · rw [hw] at hv
    cases hv
    exact ⟨v', hv', hm⟩

end MarkedOutside

/-! ## Cached translations -/

/-- The path of an address has no word of `W`. -/
def Fenced (W : Set U64) (bus : Bus β) (satp va : U64) : Prop :=
  ∀ a ∈ tablePath bus satp va, a ∉ W

/-- What a cached frame and its flags owe to the page tables: the walk ends at a leaf with this
frame and these permissions, accessed, and dirty if the flags say so. -/
def Backed (bus : Bus β) (satp va paBase flags : U64) : Prop :=
  ∃ level addr pte, resolve bus satp va = .leaf level addr pte ∧
    paBase = leafPa level pte va &&& ~~~0xFFF ∧ flags &&& PTE_PERMS = pte &&& PTE_PERMS ∧
    pte &&& PTE_A ≠ 0 ∧ (flags &&& PTE_D ≠ 0 → pte &&& PTE_D ≠ 0)

theorem resolve_congr {va va' : U64} (h : va >>> 12 = va' >>> 12) (bus : Bus β) (satp : U64) :
    resolve bus satp va = resolve bus satp va' := by
  unfold resolve
  rw [sv39_congr h]

namespace Backed

variable {bus' : Bus β} {va paBase : U64}

theorem congr {va' : U64} (hb : Backed bus satp va paBase flags) (h : va >>> 12 = va' >>> 12) :
    Backed bus satp va' paBase flags := by
  obtain ⟨level, addr, pte, hleaf, hframe, hrest⟩ := hb
  rw [resolve_congr h] at hleaf
  rw [frame_congr h] at hframe
  exact ⟨level, addr, pte, hleaf, hframe, hrest⟩

theorem marked (hb : Backed bus satp va paBase flags) (h : MarkedOutside W bus bus')
    (hf : Fenced W bus satp va) : Backed bus' satp va paBase flags := by
  obtain ⟨level, addr, pte, hleaf, hframe, hperms, hA, hD⟩ := hb
  obtain ⟨pte', hmarked, hleaf'⟩ := h.resolve_leaf hf hleaf
  refine ⟨level, addr, pte', hleaf', ?_, ?_, hmarked.ne_zero hA, fun hflags => ?_⟩
  · rw [hframe, hmarked.leafPa_eq]
  · rw [hperms, hmarked.and_eq (f := PTE_PERMS) (by decide)]
  · exact hmarked.ne_zero (hD hflags)

end Backed

/-- Every entry of the TLB is for a canonical page, and backed unless its path meets `W`. -/
def TlbSound (W : Set U64) (satp : U64) (mmu : Mmu) (bus : Bus β) : Prop :=
  ∀ va : U64, (mmu.tlb (slot (va >>> 12))).vpn = va >>> 12 →
    canonical va = true ∧ (Fenced W bus satp va →
      Backed bus satp va (mmu.tlb (slot (va >>> 12))).paBase (mmu.tlb (slot (va >>> 12))).flags)

/-- After a flush the TLB promises nothing: no page number is all ones. -/
theorem tlbSound_flushAll (W : Set U64) (satp : U64) (mmu : Mmu) (bus : Bus β) :
    TlbSound W satp mmu.flushAll bus := by
  intro va htag
  have htop := congrArg (fun v : U64 => v.getLsbD 63) htag
  simp [flushAll] at htop

theorem TlbSound.evolve {W W' : Set U64} {mmu : Mmu} {bus' : Bus β} (h : TlbSound W satp mmu bus)
    (hb : MarkedOutside W' bus bus') : TlbSound (W ∪ W') satp mmu bus' := by
  intro va htag
  obtain ⟨hva, hbacked⟩ := h va htag
  refine ⟨hva, fun hf => ?_⟩
  have hpath : tablePath bus satp va = tablePath bus' satp va :=
    hb.tablePath_eq fun a ha hin => hf a ha (Or.inr hin)
  have hold : Fenced W bus satp va ∧ Fenced W' bus satp va := by
    unfold Fenced
    rw [hpath]
    exact ⟨fun a ha hin => hf a ha (Or.inl hin), fun a ha hin => hf a ha (Or.inr hin)⟩
  exact (hbacked hold.1).marked hb hold.2

theorem TlbSound.fill {mmu : Mmu} {va : U64} (h : TlbSound W satp mmu bus)
    (hva : canonical va = true) (hb : Backed bus satp va (pa &&& ~~~0xFFF) flags) :
    TlbSound W satp (mmu.fill va pa flags) bus := by
  intro va' htag
  unfold Mmu.fill at htag ⊢
  by_cases hslot : slot (va' >>> 12) = slot (va >>> 12)
  · simp only [hslot, Function.update_self] at htag ⊢
    exact ⟨(canonical_congr htag).symm.trans hva, fun _ => hb.congr htag⟩
  · simp only [Function.update_of_ne hslot] at htag ⊢
    exact h va' htag

/-! ## Leaves the walker has marked -/

variable {va pte' : U64}

/-- A leaf with its bits set needs no update. -/
theorem markedPte_eq_self {acc : AccessType} (hA : pte &&& PTE_A ≠ 0)
    (hD : acc = .store → pte &&& PTE_D ≠ 0) : markedPte acc pte = pte := by
  have hmarkA : pte ||| PTE_A = pte := BitMask.or_bit_eq_self (by decide) hA
  unfold markedPte
  split
  · rw [hmarkA]
    exact BitMask.or_bit_eq_self (by decide) (hD ‹_›)
  · exact hmarkA

/-- A leaf as a successful walk leaves it backs the frame and flags the walk answers. -/
theorem backed_of_leaf (acc : AccessType) (hmarked : Marked pte (markedPte acc pte))
    (hout : resolve bus satp va = .leaf level addr (markedPte acc pte)) :
    Backed bus satp va (leafPa level pte va &&& ~~~0xFFF) (markedPte acc pte &&& 0xFF) := by
  have hA : markedPte acc pte &&& PTE_A ≠ 0 := by
    rw [Ne, PTE_A, BitMask.and_bit_eq_zero_iff _ (by decide)]
    have hbit : PTE_A.getLsbD 6 = true := by decide
    unfold markedPte
    split <;> simp [hbit]
  refine ⟨level, addr, markedPte acc pte, hout, ?_, ?_, hA, fun hflags => ?_⟩
  · rw [hmarked.leafPa_eq]
  · rw [BitVec.and_assoc]
    rfl
  · rw [BitVec.and_assoc] at hflags
    exact hflags

/-- The walker's update is a mark. -/
theorem markedOutside_mark (haddr : addr.toNat % 8 = 0) (hpte : pteAt bus addr = some pte)
    (hmarked : Marked pte pte') : MarkedOutside ∅ bus (mark addr pte' bus) := by
  intro a ha _
  rw [pteAt_mark (isMainMemory_of_pteAt hpte) haddr pte' ha]
  split
  next heq => exact Or.inr ⟨pte, pte', by rw [heq, hpte], rfl, hmarked⟩
  next => exact MarkedOutside.refl ∅ bus a ha (Set.notMem_empty a)

theorem resolve_mark (hout : resolve bus satp va = .leaf level addr pte)
    (hmarked : Marked pte pte') :
    MarkedOutside ∅ bus (mark addr pte' bus) ∧
      resolve (mark addr pte' bus) satp va = .leaf level addr pte' := by
  obtain ⟨hpte, hmem, -⟩ := Radix.Layout.walk_leaf hout
  have haddr : addr.toNat % 8 = 0 := aligned_of_mem_tablePath hmem
  have hrel := markedOutside_mark haddr hpte hmarked
  obtain ⟨pte'', -, hout'⟩ := hrel.resolve_leaf (fun _ _ => Set.notMem_empty _) hout
  have hpte'' := (Radix.Layout.walk_leaf hout').1
  rw [pteAt_mark (isMainMemory_of_pteAt hpte) haddr pte' haddr, if_pos rfl] at hpte''
  cases hpte''
  exact ⟨hrel, hout'⟩

/-! ## Translations with and without the TLB -/

variable [BlockBackend β] {p : Params} {mmu : Mmu} {bus' : Bus β} {paBase : U64}

/-- A backed page that permits the access is walked without a write. -/
theorem walk_of_backed (hva : canonical va = true) (hb : Backed bus satp va paBase flags)
    (hperm : permOk flags p = true) (hD : p.acc ≠ .store ∨ flags &&& PTE_D ≠ 0) :
    ∃ f, walk satp p va bus = .ok (paBase ||| (va &&& 0xFFF), f) bus := by
  obtain ⟨level, addr, pte, hleaf, rfl, hperms, hA, hdirty⟩ := hb
  have hpte : permOk pte p = true := by rw [← permOk_congr hperms, hperm]
  have hmarked : markedPte p.acc pte = pte :=
    markedPte_eq_self hA fun hstore => hdirty (hD.resolve_left (not_not.mpr hstore))
  refine ⟨pte &&& 0xFF, ?_⟩
  rw [walk_eq satp p hva, hleaf]
  change leafAnswer p va level addr pte bus = _
  rw [leafAnswer, if_pos hpte, if_pos hmarked, frame_or_offset]

/-- A backed page that forbids the access faults on a walk too. -/
theorem walk_of_backed_denied (hva : canonical va = true) (hb : Backed bus satp va paBase flags)
    (hperm : ¬ permOk flags p = true) : walk satp p va bus = .error (pageFault p.acc va) bus := by
  obtain ⟨level, addr, pte, hleaf, -, hperms, -, -⟩ := hb
  have hpte : ¬ permOk pte p = true := by rwa [← permOk_congr hperms]
  rw [walk_eq satp p hva, hleaf]
  change leafAnswer p va level addr pte bus = _
  rw [leafAnswer, if_neg hpte]

/-- What the TLB answers is what the walk would. -/
theorem walk_of_lookup_ok (h : TlbSound W satp mmu bus) (hf : Fenced W bus satp va)
    (hlook : mmu.lookup p va = some (.ok pa)) : ∃ f, walk satp p va bus = .ok (pa, f) bus := by
  unfold lookup at hlook
  dsimp only at hlook
  split_ifs at hlook with htag hperm hD
  · cases hlook
    obtain ⟨hva, hbacked⟩ := h va htag
    exact walk_of_backed hva (hbacked hf) hperm hD
  · cases hlook

theorem walk_of_lookup_error (h : TlbSound W satp mmu bus) (hf : Fenced W bus satp va)
    (hlook : mmu.lookup p va = some (.error e)) : walk satp p va bus = .error e bus := by
  unfold lookup at hlook
  dsimp only at hlook
  split_ifs at hlook with htag hperm hD
  · cases hlook
  · cases hlook
    obtain ⟨hva, hbacked⟩ := h va htag
    exact walk_of_backed_denied hva (hbacked hf) hperm

/-- A walk that succeeds has come to a leaf. -/
theorem walk_eq_ok (hwalk : walk satp p va bus = .ok (pa, flags) bus') :
    canonical va = true ∧ ∃ level addr pte, resolve bus satp va = .leaf level addr pte ∧
      leafAnswer p va level addr pte bus = .ok (pa, flags) bus' := by
  have hva : canonical va = true := by
    by_contra hbad
    rw [walk, if_pos hbad] at hwalk
    cases hwalk
  rw [walk_eq satp p hva] at hwalk
  generalize resolve bus satp va = out at hwalk
  cases out with
  | unmapped | void => cases hwalk
  | leaf level addr pte => exact ⟨hva, level, addr, pte, rfl, hwalk⟩

/-- Where a walk succeeds: at a canonical address whose leaf it leaves marked, with the frame and
flags it answers. -/
theorem backed_of_walk (hwalk : walk satp p va bus = .ok (pa, flags) bus') :
    canonical va = true ∧ Backed bus' satp va (pa &&& ~~~0xFFF) flags ∧
      MarkedOutside ∅ bus bus' := by
  obtain ⟨hva, level, addr, pte, hout, hanswer⟩ := walk_eq_ok hwalk
  have hmarked := marked_markedPte p.acc (leaf_of_classify (Radix.Layout.walk_leaf hout).2.2)
  unfold leafAnswer at hanswer
  split_ifs at hanswer with hperm hsame hadue
  · cases hanswer
    have hout' : resolve bus satp va = .leaf level addr (markedPte p.acc pte) := by
      rw [hsame, hout]
    have hbacked := backed_of_leaf p.acc hmarked hout'
    rw [hsame] at hbacked
    exact ⟨hva, hbacked, .refl ∅ bus⟩
  · cases hanswer
    obtain ⟨hrel, hout'⟩ := resolve_mark hout hmarked
    exact ⟨hva, backed_of_leaf p.acc hmarked hout', hrel⟩

/-- A walk that fails leaves memory alone. -/
theorem bus_of_walk_error (hwalk : walk satp p va bus = .error e bus') : bus' = bus := by
  by_cases hva : canonical va = true
  · rw [walk_eq satp p hva] at hwalk
    generalize resolve bus satp va = out at hwalk
    cases out with
    | unmapped | void =>
      cases hwalk
      rfl
    | leaf level addr pte =>
      change leafAnswer p va level addr pte bus = _ at hwalk
      unfold leafAnswer at hwalk
      split_ifs at hwalk
      · cases hwalk
        rfl
      · cases hwalk
        rfl
  · rw [walk, if_pos hva] at hwalk
    cases hwalk
    rfl

/-- Translation without a TLB: every address is walked. -/
def translateDirect (satp : U64) (p : Params) (va : U64) : EStateM Exception (Bus β) U64 :=
  if identity satp p.mode then pure va
  else do
    let (pa, _) ← walk satp p va
    pure pa

/-- A translation is answered by the TLB or by a walk, which fills an entry if it succeeds. -/
theorem translate_eq : translate satp p va (mmu, bus) =
    if identity satp p.mode then .ok va (mmu, bus)
    else match mmu.lookup p va with
      | some (.ok pa) => .ok pa (mmu, bus)
      | some (.error e) => .error e (mmu, bus)
      | none => match walk satp p va bus with
        | .ok (pa, flags) bus' => .ok pa (mmu.fill va pa flags, bus')
        | .error e bus' => .error e (mmu, bus') := by
  rw [translate, run_bind, run_get]
  dsimp only
  split
  · rfl
  · cases mmu.lookup p va with
    | some found => cases found <;> rfl
    | none =>
      dsimp only
      rw [run_bind, zoom]
      cases walk satp p va bus <;> rfl

/-! ### Soundness -/

/-- What a translation leaves behind: a sound TLB over page tables changed by marks only. -/
def Sound (W : Set U64) (satp : U64) (bus : Bus β) (t : Mmu × Bus β) : Prop :=
  TlbSound W satp t.1 t.2 ∧ MarkedOutside ∅ bus t.2

/-- One translation keeps the TLB sound, and its answer is that of a walk unless the path of the
address meets `W`. -/
theorem translate_sound (h : TlbSound W satp mmu bus) (p : Params) (va : U64) :
    Post (translate satp p va) (mmu, bus)
      (fun pa t => Sound W satp bus t ∧
        (Fenced W bus satp va → translateDirect satp p va bus = .ok pa t.2))
      fun e t => Sound W satp bus t ∧
        (Fenced W bus satp va → translateDirect satp p va bus = .error e t.2) := by
  have hsame : Sound W satp bus (mmu, bus) := ⟨h, .refl ∅ bus⟩
  unfold Post translateDirect
  rw [translate_eq]
  split_ifs with hid
  · exact ⟨hsame, fun _ => rfl⟩
  cases hlook : mmu.lookup p va with
  | some found =>
    cases found with
    | ok pa =>
      refine ⟨hsame, fun hf => ?_⟩
      obtain ⟨flags, hwalk⟩ := walk_of_lookup_ok h hf hlook
      exact run_bind_ok hwalk
    | error e => exact ⟨hsame, fun hf => run_bind_error (walk_of_lookup_error h hf hlook)⟩
  | none =>
    cases hwalk : walk satp p va bus with
    | ok r bus' =>
      obtain ⟨hva, hbacked, hrel⟩ := backed_of_walk hwalk
      have hsound := h.evolve hrel
      rw [Set.union_empty] at hsound
      exact ⟨⟨hsound.fill hva hbacked, hrel⟩, fun _ => run_bind_ok hwalk⟩
    | error e bus' =>
      obtain rfl := bus_of_walk_error hwalk
      exact ⟨hsame, fun _ => run_bind_error hwalk⟩

/-! ### Sequences of translations -/

/-- The answer of a translation and the memory it leaves. -/
def answer {σ : Type} (busOf : σ → Bus β) :
    EStateM.Result Exception σ U64 → Except Exception U64 × Bus β
  | .ok pa t => (.ok pa, busOf t)
  | .error e t => (.error e, busOf t)

def translations (satp : U64) : List (Params × U64) → Mmu × Bus β →
    List (Except Exception U64 × Bus β)
  | [], _ => []
  | (p, va) :: calls, s =>
    answer Prod.snd (translate satp p va s) ::
      translations satp calls (translate satp p va s).state

def directTranslations (satp : U64) : List (Params × U64) → Bus β →
    List (Except Exception U64 × Bus β)
  | [], _ => []
  | (p, va) :: calls, bus =>
    answer id (translateDirect satp p va bus) ::
      directTranslations satp calls (translateDirect satp p va bus).state

theorem translations_eq_of_sound (satp : U64) (calls : List (Params × U64))
    (h : TlbSound ∅ satp mmu bus) :
    translations satp calls (mmu, bus) = directTranslations satp calls bus := by
  induction calls generalizing mmu bus with
  | nil => rfl
  | cons call calls ih =>
    obtain ⟨p, va⟩ := call
    have hstep := translate_sound h p va
    have hfenced : Fenced ∅ bus satp va := fun _ _ => Set.notMem_empty _
    simp only [translations, directTranslations]
    cases hr : translate satp p va (mmu, bus) with
    | ok pa t =>
      obtain ⟨⟨hsound, -⟩, hdirect⟩ := (post_ok hr).mp hstep
      rw [hdirect hfenced]
      exact congrArg _ (ih hsound)
    | error e t =>
      obtain ⟨⟨hsound, -⟩, hdirect⟩ := (post_error hr).mp hstep
      rw [hdirect hfenced]
      exact congrArg _ (ih hsound)

/-- The TLB is transparent: after a flush, every call of every sequence of translations answers as
a full walk would and leaves the same memory. -/
theorem translations_flushAll (mmu : Mmu) (bus : Bus β) (satp : U64) (calls : List (Params × U64)) :
    translations satp calls (mmu.flushAll, bus) = directTranslations satp calls bus :=
  translations_eq_of_sound satp calls (tlbSound_flushAll ∅ satp mmu bus)

end

end Mmu

end EmulateComputer
