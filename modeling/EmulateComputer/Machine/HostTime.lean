import EmulateComputer.Machine.Truncation

/-!
# HostTime — the host's clock after a restore

A restored machine has the guest's clocks and none of the host's, so the first sample of the host's
clock should be a baseline and nothing more.  `reset_host_mtime_baseline` makes zero the baseline
instead, and the first sample is applied in full: the clocks jump unless that sample is zero.  From
the first sample on, both clocks follow the host (`Sampled.advanced`).

The container that shows it is read section by section (`Cursor.Reads`).
-/

namespace EmulateComputer

open Cursor (Reads reads_pure reads_take accepts accepts_of_reads)

theorem reads_word {w n : Nat} (v : BitVec w) (h : w ≤ 8 * n) :
    Reads (Reader.word w n) (Bytes.toLE n v) (· = v) := by
  refine (reads_take (Bytes.length_toLE n v)).bind_nil fun b hb => reads_pure ?_
  rw [hb, Bytes.ofLE_toLE n v h]

theorem reads_section {α : Type} (name : String) (version : U16) {body : Read α} {bs : List U8}
    {p : α → Bool} (hlen : bs.length < 2 ^ 32) (h : accepts body bs p = true) :
    Reads (Reader.readSection name version body) (Writer.sectionOf version bs) (p · = true) := by
  refine (reads_word version (by decide)).bind fun v hv => ?_
  rw [if_neg (not_not_intro hv)]
  refine (reads_word (BitVec.ofNat 32 bs.length) (by decide)).bind fun len hlen' => ?_
  have hlength : bs.length = len.toNat := by
    rw [hlen', BitVec.toNat_ofNat, Nat.mod_eq_of_lt hlen]
  refine (reads_take hlength).bind_nil fun taken htaken => ?_
  rw [htaken]
  unfold accepts at h
  split
  · next heq => simp [heq] at h
  · next value inner heq =>
    simp only [heq, Bool.and_eq_true, beq_iff_eq] at h
    rw [if_neg (not_not_intro h.1)]
    exact reads_pure h.2

/-- A section whose body is known, with nothing said about the answer. -/
theorem reads_known {α : Type} {name : String} {version : U16} {body : Read α} {bs : List U8}
    (h : bs.length < 2 ^ 32 ∧ accepts body bs fun _ => true) :
    Reads (Reader.readSection name version body) (Writer.sectionOf version bs) Anything :=
  (reads_section name version h.1 h.2).mono fun _ _ => trivial

/-- The CSR file is too long for its section to be evaluated. -/
theorem reads_csr (csr : CsrFile) (hstubs : csr.legacyPmpStubs = false) :
    Reads CsrFile.readBody csr.snapshotBody Anything := by
  have hslots : Reads (Cursor.readMany (fun _ => Reader.u64) 0 csr.slots.length)
      (csr.slots.flatMap Writer.u64) (·.1 = csr.slots) :=
    Cursor.reads_readMany (fun v _ => reads_word v (by decide)) 0
  rw [show csr.slots.length = 4096 from List.length_ofFn] at hslots
  refine (reads_word (4096 : U32) (by decide)).bind fun count hcount => ?_
  rw [hcount, if_neg (by decide)]
  refine hslots.bind fun _ _ => ?_
  refine (reads_word csr.deviceMip (by decide)).bind fun _ _ => ?_
  refine Reads.bind (P := Anything) ?_ fun _ _ => ?_
  · rw [hstubs]
    refine (reads_word (0 : U8) (by decide)).bind_nil fun v hv => ?_
    rw [if_pos hv]
    exact reads_pure trivial
  refine (reads_word csr.cycle (by decide)).bind fun _ _ => ?_
  exact (reads_word csr.instret (by decide)).bind_nil fun _ _ => reads_pure trivial

namespace Machine

def freshContainer : List U8 :=
  fresh.snapshot freshIdentity ⟨[]⟩

theorem reads_freshDevices (cpu : Cpu) :
    Reads { fresh with cpu }.restoreDevices fresh.snapshotDevices (·.bus.ram.size = 0) := by
  refine (reads_known (by decide +kernel)).bind fun _ _ => ?_
  refine Reads.bind (P := Anything) ?_ fun _ _ => ?_
  · exact (reads_known (by decide +kernel)).bind_nil fun _ _ => reads_pure trivial
  refine (reads_known (by decide +kernel)).bind fun _ _ => ?_
  refine (reads_known (by decide +kernel)).bind fun _ _ => ?_
  -- The devices behind a virtqueue, each with its transport.
  iterate 6
    refine Reads.bind (P := Anything) ?_ fun _ _ => ?_
    · exact (reads_known (by decide +kernel)).bind fun _ _ =>
        (reads_known (by decide +kernel)).bind_nil fun _ _ => reads_pure trivial
  refine (reads_known (by decide +kernel)).bind fun _ _ => ?_
  refine (reads_known (by decide +kernel)).bind fun _ _ => ?_
  exact (reads_section (p := fun m => m.bus.ram.size == 0) _ _ (by decide +kernel) rfl).mono
    fun _ hsize => by simpa using hsize

/-- A container is restored on the machine it was taken from. -/
theorem restore_fresh : ∃ m, restore freshContainer ⟨none, none⟩ fresh = .ok () m := by
  have hcsr : fresh.cpu.csr.snapshotBody.length < 2 ^ 32 :=
    sectionsFit_fresh _ (List.mem_cons_of_mem _ (List.mem_cons_of_mem _ List.mem_cons_self))
  have hread : Reads (fresh.readContainer ⟨none, none⟩) freshContainer (·.2.blocks = []) := by
    have hmagic : Reads (Reader.raw 8) Snapshot.MAGIC (·.1 = Snapshot.MAGIC) := reads_take rfl
    refine hmagic.bind fun magic hmagic => ?_
    rw [if_neg (not_not_intro hmagic)]
    refine (reads_word Snapshot.FORMAT_VERSION (by decide)).bind fun version hversion => ?_
    rw [if_neg (not_not_intro hversion)]
    refine (reads_section (p := fun h => h.ramBytes == 0 && h.timebaseHz == TIMEBASE_FREQ) _ _
      (by decide +kernel) (by decide +kernel)).bind fun header hheader => ?_
    simp only [Bool.and_eq_true, beq_iff_eq] at hheader
    have hcheck : fresh.checkHeader ⟨none, none⟩ header = pure () := by
      have hsize : header.ramBytes = BitVec.ofNat 64 fresh.bus.ram.size := hheader.1
      simp [checkHeader, hsize, hheader.2]
    rw [hcheck, pure_bind]
    refine Reads.bind (P := Anything) ?_ fun cpu _ => ?_
    · exact (reads_known (by decide +kernel)).bind fun _ _ =>
        (reads_known ⟨hcsr, accepts_of_reads (reads_csr _ rfl) fun _ _ => rfl⟩).bind_nil fun _ _ =>
          reads_pure trivial
    refine (reads_freshDevices cpu).bind fun m hm => ?_
    have hram : m.bus.ram.readPages = fresh.bus.ram.readPages := by
      unfold Ram.readPages Ram.readPage Ram.pageCount
      rw [hm]
      rfl
    refine Reads.bind (P := Anything) ?_ fun ram _ => ?_
    · unfold Ram.restore
      rw [hram]
      exact (reads_known (by decide +kernel)).bind_nil fun _ _ => reads_pure trivial
    exact (reads_section (p := fun o => o.blocks.isEmpty) _ _ (by decide +kernel)
      (by decide +kernel)).bind_nil fun _ hblocks => reads_pure (by simpa using hblocks)
  obtain ⟨r, hblocks, hrun⟩ := hread [] []
  refine ⟨r.1.afterRestore, ?_⟩
  simp only [List.nil_append, List.append_nil, List.length_nil] at hrun
  rw [restore, Cursor.new, hrun]
  simp [applyDiskOverlay, hblocks]

/-! ## Samples -/

variable {β ν : Type} {m t : Machine β ν} {samples : List U64}

/-- The ticks from each sample to the next, none where the host's clock went back. -/
def gaps (last : U64) : List U64 → List Nat
  | [] => []
  | sample :: samples => (sample.toNat - last.toNat) :: gaps sample samples

/-- The clocks and the sample they were last advanced to. -/
def clocks (m : Machine β ν) : U64 × U64 × U64 :=
  (m.lastHostMtime, m.bus.clint.mtime, m.bus.rtc.timeNs)

/-- The host's samples arrive one after the other; in between anything happens but the write of a
clock. -/
inductive Sampled : Machine β ν → List U64 → Machine β ν → Prop
  | done (m : Machine β ν) : Sampled m [] m
  | sample {m t : Machine β ν} {sample : U64} {samples : List U64}
      (rest : Sampled (m.advanceMtimeFromHost sample) samples t) : Sampled m (sample :: samples) t
  | other {m m' t : Machine β ν} {samples : List U64} (same : m'.clocks = m.clocks)
      (rest : Sampled m' samples t) : Sampled m samples t

/-- Both clocks have advanced by these ticks, each of which the timer clock clamps. -/
def Advanced (m t : Machine β ν) (ticks : List Nat) : Prop :=
  t.bus.clint.mtime = m.bus.clint.mtime +
      BitVec.ofNat 64 (ticks.map (min · MAX_HOST_MTIME_ADVANCE.toNat)).sum ∧
    t.bus.rtc.timeNs = m.bus.rtc.timeNs + BitVec.ofNat 64 (100 * ticks.sum)

theorem advanced_sample (m : Machine β ν) (sample : U64) :
    Advanced m (m.advanceMtimeFromHost sample) [sample.toNat - m.lastHostMtime.toNat] := by
  set ticks := sample.toNat - m.lastHostMtime.toNat with hticks
  have helapsed : (if m.lastHostMtime ≤ sample then sample - m.lastHostMtime else 0) =
      BitVec.ofNat 64 ticks := by
    split <;> bv_omega
  unfold Advanced advanceMtimeFromHost GoldfishRtc.advanceMtimeTicks
  dsimp only
  rw [helapsed]
  constructor
  · congr 1
    simp only [List.map_cons, List.map_nil, List.sum_singleton]
    split <;> bv_omega
  · have halarm : ∀ rtc : GoldfishRtc, rtc.updateAlarm.timeNs = rtc.timeNs := by
      intro rtc
      unfold GoldfishRtc.updateAlarm
      split <;> rfl
    rw [halarm, List.sum_singleton, Nat.mul_comm, BitVec.ofNat_mul]
    rfl

theorem Advanced.trans {u : Machine β ν} {ticks ticks' : List Nat} (h : Advanced m t ticks)
    (h' : Advanced t u ticks') : Advanced m u (ticks ++ ticks') := by
  unfold Advanced
  rw [h'.1, h'.2, h.1, h.2, List.map_append, List.sum_append, List.sum_append, Nat.mul_add,
    BitVec.ofNat_add, BitVec.ofNat_add, BitVec.add_assoc, BitVec.add_assoc]
  exact ⟨rfl, rfl⟩

theorem Sampled.advanced (h : Sampled m samples t) :
    Advanced m t (gaps m.lastHostMtime samples) := by
  induction h with
  | done m => simp [Advanced, gaps]
  | @sample m t sample samples _ ih => exact (advanced_sample m sample).trans ih
  | @other m m' t samples same _ ih =>
    simp only [clocks, Prod.mk.injEq] at same
    unfold Advanced at ih ⊢
    rwa [same.1, same.2.1, same.2.2] at ih

/-- All along the samples, the clocks have advanced from the first of them on. -/
def SeedsFirst (m : Machine β ν) (samples : List U64) : Prop :=
  ∀ part, part <+: samples → ∀ t, Sampled m part t → Advanced m t (gaps (part.headD 0) part.tail)

theorem seedsFirst_of_zero (hm : m.lastHostMtime = 0) (hzero : ∀ h ∈ samples.head?, h = 0) :
    m.SeedsFirst samples := by
  intro part hpart t ht
  have hadvanced := ht.advanced
  rw [hm] at hadvanced
  cases part with
  | nil => exact hadvanced
  | cons sample part =>
    obtain ⟨rest, rfl⟩ := hpart
    obtain rfl := hzero sample rfl
    simpa [Advanced, gaps] using hadvanced

/-- A first sample that is not zero moves the timer clock. -/
theorem mtime_advance_ne (hm : m.lastHostMtime = 0) {sample : U64} (hne : sample ≠ 0) :
    (m.advanceMtimeFromHost sample).bus.clint.mtime ≠ m.bus.clint.mtime := by
  rw [(advanced_sample m sample).1, hm]
  have hmax : MAX_HOST_MTIME_ADVANCE.toNat = 1000000 := rfl
  simp only [List.map_cons, List.map_nil, List.sum_singleton, hmax]
  bv_omega

theorem lastHostMtime_of_restore [BlockBackend β] {data : List U8} {check : Snapshot.RestoreCheck}
    (h : restore data check m = .ok () t) : t.lastHostMtime = 0 := by
  unfold restore at h
  split at h
  · cases h
  · next m' overlay _ _ =>
    have hkeeps := keeps_applyDiskOverlay (R := Order.Preimage lastHostMtime Eq)
      (fun _ _ => rfl) overlay m'.afterRestore
    rw [h] at hkeeps
    exact hkeeps.symm

/-- A restored machine takes the first sample as a baseline exactly when it is zero. -/
theorem seedsFirst_iff_of_restore [BlockBackend β] {data : List U8}
    {check : Snapshot.RestoreCheck} (h : restore data check m = .ok () t) (samples : List U64) :
    t.SeedsFirst samples ↔ ∀ sample ∈ samples.head?, sample = 0 := by
  have ht := lastHostMtime_of_restore h
  refine ⟨fun hlaw sample hsample => ?_, seedsFirst_of_zero ht⟩
  obtain ⟨rest, rfl⟩ := List.head?_eq_some_iff.1 hsample
  have hfirst := hlaw [sample] ⟨rest, rfl⟩ _ (.sample (.done _))
  by_contra hne
  exact mtime_advance_ne ht hne (by simpa [Advanced, gaps] using hfirst.1)

theorem seedsFirst_fresh : ∃ m : Machine MemBackend Unit,
    restore freshContainer ⟨none, none⟩ fresh = .ok () m ∧ m.SeedsFirst [0, 7] := by
  obtain ⟨m, hm⟩ := restore_fresh
  exact ⟨m, hm, (seedsFirst_iff_of_restore hm [0, 7]).2 (by simp)⟩

/-- The first sample after a restore is 5, and the timer clock jumps. -/
theorem fresh_jumps : ∃ m : Machine MemBackend Unit,
    restore freshContainer ⟨none, none⟩ fresh = .ok () m ∧
      (m.advanceMtimeFromHost 5).bus.clint.mtime ≠ m.bus.clint.mtime := by
  obtain ⟨m, hm⟩ := restore_fresh
  exact ⟨m, hm, mtime_advance_ne (lastHostMtime_of_restore hm) (by decide)⟩

end Machine
end EmulateComputer
