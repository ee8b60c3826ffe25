import EmulateComputer.Mmu.Tlb

/-!
# WalkFrame — what a translation can touch

A page table is guest memory: its pointers may lead past the end of RAM, into device ranges or back
to the table itself.  Whatever it says, a translation that fails changes nothing; one that succeeds
changes at most the accessed and dirty bits of the leaf it used and one entry of the TLB.

That no device is touched is said in two ways.  The bus afterwards is the bus before with another
RAM, so the recheck flag, which every access to a device raises, is as it was; and the outcome is
the same on every bus with the same RAM, whatever its devices hold.
-/

namespace EmulateComputer

open Effect

namespace Mmu

variable {β β' : Type}

/-! ## The leaf that is marked -/

/-- In `ram'` the word at an offset has gained accessed and dirty bits, and nothing else differs. -/
structure MarksWord (offset : Nat) (ram ram' : Ram) : Prop where
  size : ram'.size = ram.size
  word : ∃ m, m &&& ~~~(PTE_A ||| PTE_D) = 0 ∧ ram'.word offset = ram.word offset ||| m
  rest : ∀ i, i < offset ∨ offset + 8 ≤ i → ram'.data i = ram.data i

theorem marksWord_mark {bus : Bus β} {addr pte' : U64} (hmem : bus.isMainMemory addr 8 = true)
    (hmarked : Marked (bus.ram.word (addr - DRAM_BASE).toNat) pte') :
    MarksWord (addr - DRAM_BASE).toNat bus.ram (mark addr pte' bus).ram := by
  obtain ⟨hfits, hwrite⟩ := write_word hmem pte'
  have hram : (mark addr pte' bus).ram =
      (bus.ram.stored (addr - DRAM_BASE).toNat (Bytes.toLE 8 pte') hfits).noteMark
        (addr - DRAM_BASE).toNat := by
    unfold mark
    rw [hwrite]
    rfl
  obtain ⟨m, hm, heq⟩ := hmarked.exists_or
  rw [hram]
  refine ⟨Ram.size_stored hfits, ⟨m, hm, ?_⟩, fun i hi => ?_⟩
  · rw [← heq]
    exact Ram.word_stored_self hfits
  · rcases hi with hlt | hge
    · exact Bytes.splice_of_lt hlt
    · exact Bytes.splice_of_ge (by rwa [Bytes.length_toLE])

/-! ## What a walk can change -/

section

variable [BlockBackend β]

/-- What a successful translation of `va` may have changed. -/
structure Touched (satp : U64) (p : Params) (va : U64) (s t : Mmu × Bus β) : Prop where
  devices : t.2 = { s.2 with ram := t.2.ram }
  memory : t.2.ram = s.2.ram ∨ p.adue = true ∧ ∃ level addr pte,
    resolve s.2 satp va = .leaf level addr pte ∧
      MarksWord (addr - DRAM_BASE).toNat s.2.ram t.2.ram
  tlb : ∃ i, ∀ j, j ≠ i → t.1.tlb j = s.1.tlb j
  generation : t.1.generation = s.1.generation

variable {satp va pa flags : U64} {p : Params} {mmu : Mmu} {bus bus' : Bus β}

omit [BlockBackend β] in
theorem touched_refl (s : Mmu × Bus β) : Touched satp p va s s :=
  ⟨rfl, .inl rfl, ⟨0, fun _ _ => rfl⟩, rfl⟩

/-- A walk that succeeds has marked the leaf it ended at, or nothing. -/
theorem walk_ok_cases (hwalk : walk satp p va bus = .ok (pa, flags) bus') :
    bus' = bus ∨ p.adue = true ∧ ∃ level addr pte, resolve bus satp va = .leaf level addr pte ∧
      bus' = mark addr (markedPte p.acc pte) bus := by
  obtain ⟨-, level, addr, pte, hout, hanswer⟩ := walk_eq_ok hwalk
  unfold leafAnswer at hanswer
  split_ifs at hanswer with hperm hsame hadue
  · cases hanswer
    exact .inl rfl
  · cases hanswer
    exact .inr ⟨hadue, level, addr, pte, hout, rfl⟩

theorem touched_fill (hwalk : walk satp p va bus = .ok (pa, flags) bus') :
    Touched satp p va (mmu, bus) (mmu.fill va pa flags, bus') := by
  have htlb : ∃ i, ∀ j, j ≠ i → (mmu.fill va pa flags).tlb j = mmu.tlb j :=
    ⟨slot (va >>> 12), fun j hne => Function.update_of_ne hne _ _⟩
  rcases walk_ok_cases hwalk with rfl | ⟨hadue, level, addr, pte, hleaf, rfl⟩
  · exact ⟨rfl, .inl rfl, htlb, rfl⟩
  · obtain ⟨hpte, -, hclass⟩ := Radix.Layout.walk_leaf hleaf
    have hmem := isMainMemory_of_pteAt hpte
    have hword : bus.ram.word (addr - DRAM_BASE).toNat = pte := by
      have hsome : pteAt bus addr = some (bus.ram.word (addr - DRAM_BASE).toNat) := if_pos hmem
      exact Option.some.inj (hsome.symm.trans hpte)
    have hmarked : Marked pte (markedPte p.acc pte) :=
      marked_markedPte p.acc (leaf_of_classify hclass)
    rw [← hword] at hmarked
    refine ⟨rfl, .inr ⟨hadue, level, addr, pte, hleaf, ?_⟩, htlb, rfl⟩
    rw [← hword]
    exact marksWord_mark hmem hmarked

/-! ## What a walk looks at -/

/-- The outcome of a program of the MMU, as far as a view of the state shows it. -/
def seen {α σ ρ : Type} (view : σ → ρ) :
    EStateM.Result Exception σ α → Except Exception α × ρ
  | .ok a t => (.ok a, view t)
  | .error e t => (.error e, view t)

/-- The state of a translation without the devices. -/
def withoutDevices (s : Mmu × Bus β) : Mmu × Ram :=
  (s.1, s.2.ram)

section

variable [BlockBackend β'] {other : Bus β'}

omit [BlockBackend β] [BlockBackend β'] in
theorem resolve_ram (h : other.ram = bus.ram) : resolve other satp va = resolve bus satp va := by
  have hpte : pteAt other = pteAt bus := by
    funext addr
    unfold pteAt Bus.isMainMemory
    rw [h]
  unfold resolve
  rw [hpte]

theorem seen_walk (h : other.ram = bus.ram) :
    seen Bus.ram (walk satp p va other) = seen Bus.ram (walk satp p va bus) := by
  by_cases hva : canonical va = true
  · rw [walk_eq satp p hva, walk_eq satp p hva, resolve_ram h]
    cases resolve bus satp va with
    | unmapped | void => exact congrArg (Prod.mk _) h
    | leaf level addr pte =>
      change seen Bus.ram (leafAnswer p va level addr pte other) =
        seen Bus.ram (leafAnswer p va level addr pte bus)
      have hmark : (mark addr (markedPte p.acc pte) other).ram =
          (mark addr (markedPte p.acc pte) bus).ram := by
        unfold mark
        rw [h]
        rfl
      unfold leafAnswer
      split_ifs
      · exact congrArg (Prod.mk _) h
      · exact congrArg (Prod.mk _) hmark
      · exact congrArg (Prod.mk _) h
      · exact congrArg (Prod.mk _) h
  · rw [walk, walk, if_pos hva, if_pos hva]
    exact congrArg (Prod.mk _) h

/-- What a translation the TLB does not answer makes of the walk. -/
def filled (mmu : Mmu) (va : U64) :
    Except Exception (U64 × U64) × Ram → Except Exception U64 × Mmu × Ram
  | (.ok (pa, flags), ram) => (.ok pa, mmu.fill va pa flags, ram)
  | (.error e, ram) => (.error e, mmu, ram)

theorem seen_translate_miss (hid : ¬ identity satp p.mode = true) (hlook : mmu.lookup p va = none) :
    seen withoutDevices (translate satp p va (mmu, bus)) =
      filled mmu va (seen Bus.ram (walk satp p va bus)) := by
  rw [translate_eq, if_neg hid, hlook]
  cases walk satp p va bus <;> rfl

/-- A translation looks at the TLB and at RAM only. -/
theorem seen_translate (h : other.ram = bus.ram) :
    seen withoutDevices (translate satp p va (mmu, other)) =
      seen withoutDevices (translate satp p va (mmu, bus)) := by
  have hstart : withoutDevices (mmu, other) = withoutDevices (mmu, bus) :=
    congrArg (Prod.mk mmu) h
  by_cases hid : identity satp p.mode = true
  · rw [translate_eq, translate_eq, if_pos hid, if_pos hid]
    exact congrArg (Prod.mk _) hstart
  cases hlook : mmu.lookup p va with
  | some found =>
    rw [translate_eq, translate_eq, if_neg hid, if_neg hid, hlook]
    cases found <;> exact congrArg (Prod.mk _) hstart
  | none =>
    rw [seen_translate_miss hid hlook, seen_translate_miss hid hlook, seen_walk h]

end

/-! ## The frame of a translation -/

theorem touched_translate :
    Post (translate satp p va) (mmu, bus) (fun _ t => Touched satp p va (mmu, bus) t)
      fun _ t => t = (mmu, bus) := by
  unfold Post
  rw [translate_eq]
  split_ifs with hid
  · exact touched_refl _
  cases mmu.lookup p va with
  | some found =>
    cases found with
    | ok pa => exact touched_refl _
    | error e => exact rfl
  | none =>
    cases hwalk : walk satp p va bus with
    | ok r bus' => exact touched_fill hwalk
    | error e bus' => rw [bus_of_walk_error hwalk]

variable [BlockBackend β']

/-- Whatever the page tables, the TLB and the access: a translation that fails leaves everything as
it was, one that succeeds touches the leaf it used and one entry of the TLB, and the outcome does
not depend on any device. -/
theorem translate_frame (satp : U64) (p : Params) (va : U64) (mmu : Mmu) (bus : Bus β) :
    (∀ e t, translate satp p va (mmu, bus) = .error e t → t = (mmu, bus)) ∧
    (∀ pa t, translate satp p va (mmu, bus) = .ok pa t → Touched satp p va (mmu, bus) t) ∧
    ∀ other : Bus β', other.ram = bus.ram →
      seen withoutDevices (translate satp p va (mmu, other)) =
        seen withoutDevices (translate satp p va (mmu, bus)) :=
  ⟨fun _ _ h => (post_error h).mp touched_translate, fun _ _ h => (post_ok h).mp touched_translate,
    fun _ h => seen_translate h⟩

end

end Mmu

end EmulateComputer
