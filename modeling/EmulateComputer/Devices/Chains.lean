import EmulateComputer.Devices.VirtqueueRing

/-!
# Chains — descriptor chains as paths in the table

`Chain` follows `next` links without a bound, and `Walk` follows them part of the way.  The source
bounds its walk by a counter; a link leads to one descriptor only, so a path that ends never meets
an index twice, and a walk that does, or that is longer than the table, is on no path that the
counter admits.
-/

namespace EmulateComputer

namespace Virtqueue

/-! ## Entries of the table -/

/-- The entry is one of the table's, and its 16 bytes lie in RAM. -/
def InTable (ram : Ram) (layout : QueueLayout) (index : U16) : Prop :=
  index.toNat < layout.num.toNat ∧ DRAM_BASE.toNat ≤ layout.desc.toNat + index.toNat * 16 ∧
    layout.desc.toNat + index.toNat * 16 + 16 ≤ DRAM_BASE.toNat + ram.size

instance (ram : Ram) (layout : QueueLayout) (index : U16) : Decidable (InTable ram layout index) :=
  inferInstanceAs (Decidable (_ ∧ _))

/-- The descriptor whose bytes stand at an entry. -/
def entryAt (ram : Ram) (layout : QueueLayout) (index : U16) : Descriptor :=
  let start := layout.desc.toNat + index.toNat * 16 - DRAM_BASE.toNat
  { addr := Bytes.ofLE 64 (Bytes.slice ram.data start 8)
    len := Bytes.ofLE 32 (Bytes.slice ram.data (start + 8) 4)
    flags := Bytes.ofLE 16 (Bytes.slice ram.data (start + 12) 2)
    next := Bytes.ofLE 16 (Bytes.slice ram.data (start + 14) 2) }

variable {ram : Ram} {layout : QueueLayout} {index : U16}

theorem toNat_entry (h : layout.desc.toNat + index.toNat * 16 < 2 ^ 64) :
    (layout.desc + index.setWidth 64 * 16).toNat = layout.desc.toNat + index.toNat * 16 := by
  have hsixteen : (16 : U64).toNat = 16 := rfl
  simp only [BitVec.toNat_add, BitVec.toNat_mul, BitVec.toNat_setWidth, hsixteen]
  omega

/-- The span of an entry, in the terms of the ring fields. -/
theorem InTable.inRam (h : InTable ram layout index) :
    InRam ram (layout.desc + index.setWidth 64 * 16) 16 ∧
      ramIndex (layout.desc + index.setWidth 64 * 16) =
        layout.desc.toNat + index.toNat * 16 - DRAM_BASE.toNat := by
  obtain ⟨-, hbase, hend⟩ := h
  have hsize := ram.size_lt
  have hdram : DRAM_BASE.toNat = 0x80000000 := rfl
  have haddr := @toNat_entry layout index (by omega)
  have hle : DRAM_BASE ≤ layout.desc + index.setWidth 64 * 16 := by
    rw [BitVec.le_def, haddr]
    exact hbase
  have hindex : ramIndex (layout.desc + index.setWidth 64 * 16) =
      layout.desc.toNat + index.toNat * 16 - DRAM_BASE.toNat := by
    rw [ramIndex, BitVec.toNat_sub_of_le hle, haddr]
  exact ⟨⟨hle, by omega⟩, hindex⟩

theorem descriptor_eq (ram : Ram) (layout : QueueLayout) (index : U16) :
    descriptor ram layout.desc layout.num index =
      if InTable ram layout index then some (entryAt ram layout index) else none := by
  have hdram : DRAM_BASE.toNat = 0x80000000 := rfl
  unfold descriptor
  by_cases htable : InTable ram layout index
  · obtain ⟨hspan, hstart⟩ := htable.inRam
    have hsize := ram.size_lt
    have ⟨hindex, hbase, hend⟩ := htable
    have htarget : InRam ram (layout.desc + index.setWidth 64 * 16) 8 :=
      ⟨hspan.1, by have := hspan.2; omega⟩
    have hlen : readU32 ram (layout.desc + index.setWidth 64 * 16 + 8) =
        some (entryAt ram layout index).len :=
      (read_sub readU32_eq hspan (k := 8) (by decide)).trans (by rw [hstart]; rfl)
    have hflags : readU16 ram (layout.desc + index.setWidth 64 * 16 + 12) =
        some (entryAt ram layout index).flags :=
      (read_sub readU16_eq hspan (k := 12) (by decide)).trans (by rw [hstart]; rfl)
    have hnext : readU16 ram (layout.desc + index.setWidth 64 * 16 + 14) =
        some (entryAt ram layout index).next :=
      (read_sub readU16_eq hspan (k := 14) (by decide)).trans (by rw [hstart]; rfl)
    rw [if_neg (by rw [BitVec.not_le, BitVec.lt_def]; exact hindex), if_neg (by omega),
      if_pos htable]
    simp only [ramOffset_eq hspan, readU64, ramOffset_eq htarget, read_eq_of_inRam htarget, hlen,
      hflags, hnext, hstart, Option.bind_eq_bind, Option.bind_some]
    rfl
  · split
    · rfl
    · next hindex =>
      split
      · rfl
      · next hfits =>
        have haddr := @toNat_entry layout index (by omega)
        have hout : ramOffset ram (layout.desc + index.setWidth 64 * 16) 16 = none := by
          refine if_neg fun ⟨hbase, hend⟩ => htable ⟨?_, ?_, ?_⟩
          · rwa [BitVec.not_le, BitVec.lt_def] at hindex
          · rwa [BitVec.le_def, haddr] at hbase
          · rw [BitVec.toNat_sub_of_le hbase, haddr] at hend
            omega
        dsimp only
        rw [hout]
        rfl

/-! ## Paths -/

/-- A path from an index to a descriptor without a `next` link, entry by entry. -/
inductive Chain (ram : Ram) (layout : QueueLayout) : U16 → List U16 → Prop
  | last {index : U16} (hentry : InTable ram layout index)
      (hend : (entryAt ram layout index).flags &&& DESC_F_NEXT = 0) : Chain ram layout index [index]
  | link {index : U16} {path : List U16} (hentry : InTable ram layout index)
      (hlink : (entryAt ram layout index).flags &&& DESC_F_NEXT ≠ 0)
      (hrest : Chain ram layout (entryAt ram layout index).next path) :
      Chain ram layout index (index :: path)

/-- Some links followed from an index, whether or not they lead anywhere. -/
inductive Walk (ram : Ram) (layout : QueueLayout) : U16 → List U16 → Prop
  | start (index : U16) : Walk ram layout index [index]
  | link {index : U16} {path : List U16} (hentry : InTable ram layout index)
      (hlink : (entryAt ram layout index).flags &&& DESC_F_NEXT ≠ 0)
      (hrest : Walk ram layout (entryAt ram layout index).next path) :
      Walk ram layout index (index :: path)

variable {path walk : List U16}

/-- A walk does not leave the path. -/
theorem Walk.on_chain (hwalk : Walk ram layout index walk)
    (hchain : Chain ram layout index path) : walk <+: path := by
  induction hwalk generalizing path with
  | start index => cases hchain <;> exact ⟨_, rfl⟩
  | link hentry hlink hrest ih =>
    cases hchain with
    | last _ hend => exact absurd hend hlink
    | link _ _ htail => exact List.cons_prefix_cons.2 ⟨rfl, ih htail⟩

theorem Chain.unique {path' : List U16} (h : Chain ram layout index path)
    (h' : Chain ram layout index path') : path = path' := by
  induction h generalizing path' with
  | last _ hend =>
    cases h' with
    | last => rfl
    | link _ hlink _ => exact absurd hend hlink
  | link _ hlink _ ih =>
    cases h' with
    | last _ hend => exact absurd hend hlink
    | link _ _ htail => rw [ih htail]

/-- What follows an index of the path is the path from there. -/
theorem Chain.of_mem (h : Chain ram layout index path) {i : U16} (hi : i ∈ path) :
    ∃ tail, Chain ram layout i tail ∧ tail.length ≤ path.length := by
  induction h with
  | last hentry hend =>
    obtain rfl := List.mem_singleton.1 hi
    exact ⟨_, .last hentry hend, Nat.le_refl _⟩
  | link hentry hlink hrest ih =>
    rcases List.mem_cons.1 hi with rfl | hi
    · exact ⟨_, .link hentry hlink hrest, Nat.le_refl _⟩
    · obtain ⟨tail, htail, hle⟩ := ih hi
      exact ⟨tail, htail, hle.trans (Nat.le_succ _)⟩

/-- An index that came back would have two paths of different lengths. -/
theorem Chain.nodup (h : Chain ram layout index path) : path.Nodup := by
  induction h with
  | last => exact List.nodup_cons.2 ⟨List.not_mem_nil, List.nodup_nil⟩
  | @link index path hentry hlink hrest ih =>
    refine List.nodup_cons.2 ⟨fun hmem => ?_, ih⟩
    obtain ⟨tail, htail, hle⟩ := hrest.of_mem hmem
    have heq := htail.unique (.link hentry hlink hrest)
    rw [heq, List.length_cons] at hle
    omega

/-! ## The bounded walk of the source -/

theorem collectFrom_eq_some_iff (fuel : Nat) (index : U16) (chain : List Descriptor) :
    collectFrom ram layout fuel index = some chain ↔
      ∃ path, Chain ram layout index path ∧ path.length ≤ fuel ∧
        chain = path.map (entryAt ram layout) := by
  induction fuel generalizing index chain with
  | zero =>
    refine ⟨nofun, ?_⟩
    rintro ⟨path, hpath, hlen, -⟩
    cases hpath <;> cases hlen
  | succ fuel ih =>
    rw [collectFrom, descriptor_eq]
    by_cases hentry : InTable ram layout index
    · rw [if_pos hentry]
      simp only [Option.bind_eq_bind, Option.bind_some]
      by_cases hend : (entryAt ram layout index).flags &&& DESC_F_NEXT = 0
      · rw [if_pos hend]
        constructor
        · rintro ⟨⟩
          exact ⟨[index], .last hentry hend, Nat.le_add_left 1 fuel, rfl⟩
        · rintro ⟨path, hpath, -, rfl⟩
          rw [hpath.unique (.last hentry hend)]
          rfl
      · rw [if_neg hend]
        constructor
        · intro h
          obtain ⟨rest, hrest, heq⟩ := Option.bind_eq_some_iff.1 h
          obtain ⟨path, hpath, hlen, rfl⟩ := (ih _ _).1 hrest
          exact ⟨index :: path, .link hentry hend hpath, Nat.succ_le_succ hlen,
            (Option.some.inj heq).symm⟩
        · rintro ⟨path, hpath, hlen, rfl⟩
          cases hpath with
          | last _ hend' => exact absurd hend' hend
          | link _ _ htail =>
            rw [(ih _ _).2 ⟨_, htail, Nat.le_of_succ_le_succ hlen, rfl⟩]
            rfl
    · rw [if_neg hentry]
      refine ⟨nofun, ?_⟩
      rintro ⟨path, hpath, -, -⟩
      cases hpath <;> exact absurd ‹_› hentry

/-- The chain is collected exactly if the links from the head end within the table's size, all at
entries of the table that lie in RAM.  It is then the path they take, which meets no index twice; a
head from which the links come back to an index, or go on for longer, is rejected. -/
theorem collectChain_eq_some_iff (ram : Ram) (layout : QueueLayout) (head : U16) :
    (∀ chain, collectChain ram layout head = some chain ↔
        ∃ path, Chain ram layout head path ∧ path.length ≤ layout.num.toNat ∧
          chain = path.map (entryAt ram layout)) ∧
      (∀ path, Chain ram layout head path → path.Nodup ∧ ∀ i ∈ path, InTable ram layout i) ∧
      ∀ walk, Walk ram layout head walk → ¬ walk.Nodup ∨ layout.num.toNat < walk.length →
        collectChain ram layout head = none := by
  have hin : ∀ {index path}, Chain ram layout index path → ∀ i ∈ path, InTable ram layout i := by
    intro index path hpath
    induction hpath with
    | last hentry _ => simpa using hentry
    | link hentry _ _ ih => exact List.forall_mem_cons.2 ⟨hentry, ih⟩
  refine ⟨collectFrom_eq_some_iff _ head, fun path hpath => ⟨hpath.nodup, hin hpath⟩, ?_⟩
  intro walk hwalk hbad
  by_contra hsome
  obtain ⟨chain, hchain⟩ := Option.ne_none_iff_exists'.1 hsome
  obtain ⟨path, hpath, hlen, -⟩ := (collectFrom_eq_some_iff _ head chain).1 hchain
  have honpath := hwalk.on_chain hpath
  rcases hbad with hdup | hlong
  · exact hdup (hpath.nodup.sublist honpath.sublist)
  · exact absurd honpath.length_le (by omega)

end Virtqueue

end EmulateComputer
