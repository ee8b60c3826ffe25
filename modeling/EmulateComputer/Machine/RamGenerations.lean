import EmulateComputer.Machine.Truncation

/-!
# RamGenerations — the write generations of the RAM's pages

A page of the RAM counts the writes that reached it, and the RAM counts its pages that have been
written.  The second counter is kept along with the first, page by page, so that it is right has to
be proved of whole runs: of the writes, and of restores, which count every page of the container
once.  A container that the RAM wrote itself lists no page twice.
-/

namespace EmulateComputer

open Cursor (Frames frames_pure frames_throw)

namespace Ram

variable {ram other after : Ram}

theorem frames_readPage (hsize : ram.size = other.size) {index : Nat}
    (h : index < other.pageCount) :
    Frames ram.readPage (other.pageRecord index) (·.1.toNat = index) := by
  have hlt : (BitVec.ofNat 64 index).toNat = index := by
    have := other.size_lt
    unfold pageCount PAGE_SIZE at h
    exact Nat.mod_eq_of_lt (by omega)
  refine (frames_word _ (by decide)).bind fun i hi => ?_
  rw [hi, hlt]
  split
  · exact frames_throw _ _ _
  refine (Cursor.frames_take (by rw [page, Bytes.length_slice, hsize])).bind_nil fun _ _ => ?_
  exact frames_pure hlt

theorem frames_readPages (ram other : Ram) :
    Frames ram.readPages other.snapshotBody
      (fun pages => ram.size = other.size ∧ pages.map (·.1.toNat) = other.nonzeroPages) := by
  have hr := ram.size_lt
  have ho := other.size_lt
  refine (frames_word _ (by decide)).bind fun size hsize => ?_
  split
  · exact frames_throw _ _ _
  next heq =>
  have hsize : ram.size = other.size := by
    have := congrArg BitVec.toNat ((not_not.mp heq).symm.trans hsize)
    simp only [BitVec.toNat_ofNat] at this
    omega
  have hcount : other.nonzeroPageCount.toNat = other.nonzeroPages.length := by
    have hle : other.nonzeroPages.length ≤ other.pageCount :=
      (List.length_filter_le _ _).trans List.length_range.le
    unfold pageCount PAGE_SIZE at hle
    exact Nat.mod_eq_of_lt (by omega)
  refine (frames_word _ (by decide)).bind fun count hread => ?_
  split
  · exact frames_throw _ _ _
  rw [hread, hcount]
  refine (Cursor.frames_readMany (fun index hindex => ?_) 0).bind_nil
    fun _ hl => frames_pure ⟨hsize, hl⟩
  exact frames_readPage hsize (List.mem_range.mp (List.mem_filter.mp hindex).1)

/-! ## Touched pages -/

/-- The pages that have been written since the RAM was new or restored. -/
def touched (ram : Ram) : Finset Nat :=
  (Finset.range ram.pageCount).filter fun p => ram.generation p ≠ 0

def Counted (ram : Ram) : Prop :=
  ram.touchedPages = ram.touched.card

section Stored

variable {start : Nat} {bytes : List U8} (h : start + bytes.length ≤ ram.size)

/-- A write counts the pages it reaches first. -/
theorem touchedPages_stored : (ram.stored start bytes h).touchedPages = ram.touchedPages +
    ((pagesOf start bytes.length).filter (ram.generation · = 0)).card := by
  by_cases hlen : bytes.length = 0
  · rw [stored, bumpPageGenerations, if_pos hlen, hlen]
    simp [pagesOf, copyFromSlice]
  · rw [stored, bumpPageGenerations, if_neg hlen, pagesOf_eq hlen]
    simp only [List.countP_eq_length_filter]
    rfl

theorem Counted.stored (hram : ram.Counted)
    (hwrap : ∀ p, (ram.stored start bytes h).pageGenerations p < 2 ^ 64) :
    (ram.stored start bytes h).Counted := by
  have hlt : ∀ p ∈ pagesOf start bytes.length, p < ram.pageCount := by
    intro p hp
    obtain ⟨i, hi, rfl⟩ := Finset.mem_image.mp hp
    rw [Finset.mem_Ico] at hi
    unfold pageCount PAGE_SIZE
    omega
  have hnew : (pagesOf start bytes.length).filter (ram.generation · = 0) =
      pagesOf start bytes.length \ ram.touched := by
    rw [Finset.sdiff_eq_filter]
    refine Finset.filter_congr fun p hp => ?_
    simp [touched, hlt p hp]
  have hset : (ram.stored start bytes h).touched = pagesOf start bytes.length ∪ ram.touched := by
    ext p
    have hp := hwrap p
    rw [Finset.mem_union, touched, touched, Finset.mem_filter, Finset.mem_filter, generation,
      pageGenerations_stored, pageCount, size_stored]
    rw [pageGenerations_stored] at hp
    split_ifs at hp ⊢ with hin
    · refine iff_of_true ⟨Finset.mem_range.mpr (hlt p hin), fun hzero => ?_⟩ (.inl hin)
      exact Nat.succ_ne_zero _ ((Nat.mod_eq_of_lt hp).symm.trans (congrArg BitVec.toNat hzero))
    · simp [hin, generation, pageCount]
  rw [Counted, touchedPages_stored, hset, hnew, hram, Nat.add_comm, Finset.card_sdiff_add_card]

end Stored

theorem touched_restorePage {page : U64 × List U8} (h : page.1.toNat < ram.pageCount) :
    (ram.restorePage page).touched = insert page.1.toNat ram.touched := by
  ext p
  rw [touched, touched, Finset.mem_insert, Finset.mem_filter, Finset.mem_filter, generation]
  by_cases hp : p = page.1.toNat
  · exact iff_of_true ⟨Finset.mem_range.mpr (hp ▸ h), by simp [restorePage, hp]⟩ (.inl hp)
  · simp [restorePage, generation, hp, pageCount]

/-- Pages that are restored once each are counted once each. -/
theorem Counted.restorePages {pages : List (U64 × List U8)} (h : ram.Counted)
    (hlt : ∀ page ∈ pages, page.1.toNat < ram.pageCount)
    (hnodup : (pages.map (·.1.toNat)).Nodup) (hnew : ∀ page ∈ pages, page.1.toNat ∉ ram.touched) :
    (pages.foldl restorePage ram).Counted := by
  induction pages generalizing ram with
  | nil => exact h
  | cons page pages ih =>
    rw [List.map_cons, List.nodup_cons] at hnodup
    rw [List.forall_mem_cons] at hlt hnew
    have htouched := touched_restorePage hlt.1
    refine ih ?_ hlt.2 hnodup.2 fun page' hpage' => ?_
    · rw [Counted, htouched, Finset.card_insert_of_notMem hnew.1, ← h]
      rfl
    · rw [htouched, Finset.mem_insert, not_or]
      exact ⟨fun heq => hnodup.1 (heq ▸ List.mem_map_of_mem hpage'), hnew.2 page' hpage'⟩

theorem counted_new (size : Nat) (h : size < 2 ^ 63) : (new size h).Counted := by
  simp [Counted, touched, new, generation]

/-- Whatever RAM a section is from, it is restored with each page once. -/
theorem counted_restore {other after : Ram} {before rest : List U8} {c : Reader}
    (h : ram.restore ⟨before ++ (other.snapshot ++ rest), before.length⟩ = .ok after c) :
    after.Counted := by
  obtain ⟨part, cut, hbody, hpart, hsection⟩ :=
    sectionOf_eq_append RAM_SECTION_VERSION other.snapshotBody
  have hframes : Frames ram.restore (Writer.sectionOf RAM_SECTION_VERSION part) Counted := by
    refine (frames_sectionOf _ _ _ hpart fun pages c hrun =>
      (frames_readPages ram other [] part [] pages c ⟨cut, ?_⟩ hrun).1).bind_nil ?_
    · rw [List.append_nil, hbody]
    rintro pages ⟨hsize, hpages⟩
    refine frames_pure ((counted_new _ _).restorePages ?_ ?_ ?_)
    · intro page hpage
      have hmem : page.1.toNat ∈ other.nonzeroPages := hpages ▸ List.mem_map_of_mem hpage
      have hlt := List.mem_range.mp (List.mem_filter.mp hmem).1
      rwa [pageCount, ← hsize] at hlt
    · rw [hpages]
      exact List.nodup_range.filter _
    · simp [touched, new, generation]
  rw [snapshot, hsection, List.append_assoc] at h
  exact (hframes before _ (cut ++ rest) after c List.prefix_rfl h).1

/-! ## Runs -/

/-- What is done to a RAM.  A container holds the section of some RAM. -/
inductive Op
  | read (offset : U64) (size : Nat)
  | write (offset val : U64) (size : Nat)
  | writeSlice (offset : U64) (bytes : List U8)
  | loadBlob (offset : U64) (blob : List U8)
  | restore (other : Ram) (before rest : List U8)

def perform (ram : Ram) : Op → Option Ram
  | .read offset size => (ram.read offset size).map fun _ => ram
  | .write offset val size => ram.write offset val size
  | .writeSlice offset bytes => ram.writeSlice offset bytes
  | .loadBlob offset blob => ram.loadBlob offset blob
  | .restore other before rest =>
    match ram.restore ⟨before ++ (other.snapshot ++ rest), before.length⟩ with
    | .ok after _ => some after
    | .error _ _ => none

/-- An operation that fails leaves the RAM as it is. -/
def operate (ram : Ram) (op : Op) : Ram :=
  (ram.perform op).getD ram

/-- The bytes an operation writes, and where. -/
def Op.written : Op → Option (U64 × List U8)
  | .write offset val size => some (offset, (Bytes.toLE 8 val).take size)
  | .writeSlice offset bytes | .loadBlob offset bytes => some (offset, bytes)
  | .read .. | .restore .. => none

theorem perform_written {op : Op} {offset : U64} {bytes : List U8}
    (h : op.written = some (offset, bytes)) (hrun : ram.perform op = some after) :
    ∃ hle : offset.toNat + bytes.length ≤ ram.size, after = ram.stored offset.toNat bytes hle := by
  refine writeSlice_eq_some ?_
  cases op with
  | write =>
    cases h
    exact (Option.ite_none_right_eq_some.mp hrun).2
  | writeSlice | loadBlob =>
    cases h
    exact hrun
  | read | restore => cases h

/-- A successful operation stores bytes, changes nothing or restores. -/
theorem perform_cases {op : Op} (hrun : ram.perform op = some after) :
    (∃ start bytes hle, after = ram.stored start bytes hle) ∨ after = ram ∨
      ∃ (other : Ram) (before rest : List U8) (c : Reader),
        ram.restore ⟨before ++ (other.snapshot ++ rest), before.length⟩ = .ok after c := by
  cases hwritten : op.written with
  | some w =>
    obtain ⟨hle, rfl⟩ := perform_written hwritten hrun
    exact .inl ⟨_, _, hle, rfl⟩
  | none =>
    cases op with
    | read offset size =>
      obtain ⟨_, _, rfl⟩ := Option.map_eq_some_iff.mp hrun
      exact .inr (.inl rfl)
    | restore other before rest =>
      simp only [perform] at hrun
      split at hrun
      · next hread =>
        cases hrun
        exact .inr (.inr ⟨_, _, _, _, hread⟩)
      · cases hrun
    | _ => cases hwritten

theorem Counted.operate {op : Op} (h : ram.Counted)
    (hwrap : ∀ p, (ram.operate op).pageGenerations p < 2 ^ 64) : (ram.operate op).Counted := by
  unfold Ram.operate at hwrap ⊢
  cases hrun : ram.perform op with
  | none => exact h
  | some after =>
    rw [hrun] at hwrap
    obtain ⟨_, _, hle, rfl⟩ | rfl | ⟨_, _, _, _, hread⟩ := perform_cases hrun
    · exact h.stored hle hwrap
    · exact h
    · exact counted_restore hread

theorem pageGenerations_restorePages_le (pages : List (U64 × List U8))
    (h : ∀ p, ram.pageGenerations p ≤ 1) (p : Nat) :
    (pages.foldl restorePage ram).pageGenerations p ≤ 1 := by
  induction pages generalizing ram with
  | nil => exact h p
  | cons page pages ih =>
    refine ih fun q => ?_
    change (if q = page.1.toNat then 1 else ram.pageGenerations q) ≤ 1
    split
    · exact le_rfl
    · exact h q

/-- No operation moves a generation on by more than one; a restore starts over. -/
theorem pageGenerations_operate_le (op : Op) (p : Nat) :
    (ram.operate op).pageGenerations p ≤ ram.pageGenerations p + 1 := by
  unfold Ram.operate
  cases hrun : ram.perform op with
  | none => exact Nat.le_succ _
  | some after =>
    obtain ⟨_, _, hle, rfl⟩ | rfl | ⟨other, before, rest, _, hread⟩ := perform_cases hrun
    · rw [Option.getD_some, pageGenerations_stored]
      split <;> omega
    · exact Nat.le_succ _
    · have honce : Effect.Answers (fun after => after.pageGenerations p ≤ 1) ram.restore :=
        Effect.answers_seq fun pages => Effect.answers_pure
          (pageGenerations_restorePages_le pages (fun _ => Nat.zero_le 1) p)
      have hafter := honce ⟨before ++ (other.snapshot ++ rest), before.length⟩
      rw [Effect.Post, hread] at hafter
      exact Nat.le_add_left_of_le hafter

/-- It takes 2^64 operations for a generation to wrap. -/
theorem pageGenerations_run_le (ops : List Op) (p : Nat) :
    (ops.foldl operate ram).pageGenerations p ≤ ram.pageGenerations p + ops.length := by
  induction ops generalizing ram with
  | nil => exact le_rfl
  | cons op ops ih =>
    have hop := @pageGenerations_operate_le ram op p
    have hops := @ih (ram.operate op)
    rw [List.foldl_cons, List.length_cons]
    omega

theorem counted_run (size : Nat) (hsize : size < 2 ^ 63) (ops : List Op)
    (hwrap : ∀ part, part <+: ops →
      ∀ p, (part.foldl operate (new size hsize)).pageGenerations p < 2 ^ 64) :
    (ops.foldl operate (new size hsize)).Counted := by
  induction ops using List.reverseRecOn with
  | nil => exact counted_new size hsize
  | append_singleton ops op ih =>
    have hlast := hwrap _ List.prefix_rfl
    have hops := ih fun part hpart => hwrap part (hpart.trans (List.prefix_append _ _))
    rw [List.foldl_append] at hlast ⊢
    exact hops.operate hlast

/-- Along every run in which no generation wraps, the counter is right; a write counts once on each
page it reaches and nowhere else, and one that fails changes nothing. -/
theorem generations_run (size : Nat) (hsize : size < 2 ^ 63) (ops : List Op)
    (hwrap : ∀ part, part <+: ops →
      ∀ p, (part.foldl operate (new size hsize)).pageGenerations p < 2 ^ 64) :
    let ram := ops.foldl operate (new size hsize)
    ram.touchedPages = ram.touched.card ∧
      ∀ op offset bytes, op.written = some (offset, bytes) →
        (∀ after, ram.perform op = some after → ∀ p, after.generation p =
          ram.generation p + if p ∈ pagesOf offset.toNat bytes.length then 1 else 0) ∧
        (ram.perform op = none → (ram.operate op).data = ram.data ∧
          (ram.operate op).generation = ram.generation) := by
  refine ⟨counted_run size hsize ops hwrap, fun op offset bytes hop =>
    ⟨fun after hrun p => ?_, fun hfail => ?_⟩⟩
  · obtain ⟨hle, rfl⟩ := perform_written hop hrun
    rw [generation, pageGenerations_stored, BitVec.ofNat_add]
    split <;> rfl
  · rw [operate, hfail]
    exact ⟨rfl, rfl⟩

/-- A write across the two pages of a RAM, and the restore of one whose second page is not zero. -/
def sampleRun : List Op :=
  [.write 4092 9 8, .restore ((new 4100 (by decide)).operate (.write 4096 5 4)) [] []]

/-- After the restore one page is touched, and the next write across both counts on each. -/
theorem generations_run_restored :
    let ram := sampleRun.foldl operate (new 4100 (by decide))
    ram.touchedPages = 1 ∧ ram.touched.card = 1 ∧
      (ram.operate (.write 4092 7 8)).generation 0 = 1 ∧
      (ram.operate (.write 4092 7 8)).generation 1 = 2 := by
  intro ram
  obtain ⟨htouched, hops⟩ := generations_run 4100 (by decide) sampleRun fun part hpart p =>
    (pageGenerations_run_le part p).trans_lt <| by
      have hlength : part.length ≤ 2 := hpart.length_le
      change 0 + part.length < 2 ^ 64
      omega
  have hone : ram.touchedPages = 1 := by decide +kernel
  obtain ⟨after, hafter⟩ := Option.isSome_iff_exists.mp
    (show (ram.perform (.write 4092 7 8)).isSome by decide +kernel)
  have hwritten := (hops (.write 4092 7 8) 4092 _ rfl).1 after hafter
  refine ⟨hone, htouched.symm.trans hone, ?_⟩
  rw [operate, hafter]
  exact ⟨(hwritten 0).trans (by decide +kernel), (hwritten 1).trans (by decide +kernel)⟩

end Ram

end EmulateComputer
