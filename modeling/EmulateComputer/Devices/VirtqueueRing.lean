import EmulateComputer.Devices.Virtio

/-!
# VirtqueueRing — what one drain does to the rings

A drain is described by the calls it makes to the device's handler.  The calls are recorded by
running the same drain with a handler that also logs (`logged`); `drain_logged` says that logging
changes nothing else.

`Serves` is the contract of one drain, call by call: which head is handed out, and what the
outcome does to the used ring and to the queue's position.  It holds whenever the rings lie in RAM,
do not overlap, and are not written by the handler.
-/

namespace EmulateComputer

namespace Virtqueue

/-! ## Fields of a span of RAM -/

def ramIndex (addr : U64) : Nat :=
  (addr - DRAM_BASE).toNat

theorem ramOffset_isSome_iff (ram : Ram) (addr : U64) (len : Nat) :
    (ramOffset ram addr len).isSome = true ↔ DRAM_BASE ≤ addr ∧ ramIndex addr + len ≤ ram.size := by
  unfold ramOffset ramIndex
  split <;> simp_all

def InRam (ram : Ram) (addr : U64) (len : Nat) : Prop :=
  DRAM_BASE ≤ addr ∧ ramIndex addr + len ≤ ram.size

variable {ram ram' : Ram} {addr : U64} {q : Queue} {idx : U16} {len : Nat}

theorem ramOffset_eq (h : InRam ram addr len) : ramOffset ram addr len = some (addr - DRAM_BASE) :=
  if_pos h

theorem InRam.congr (h : InRam ram addr len) (hsize : ram'.size = ram.size) : InRam ram' addr len :=
  ⟨h.1, hsize ▸ h.2⟩

/-- The part of a span that starts `k` bytes in. -/
theorem ramIndex_add {k : Nat} (h : InRam ram addr len) (hk : k ≤ len) :
    DRAM_BASE ≤ addr + BitVec.ofNat 64 k ∧
      ramIndex (addr + BitVec.ofNat 64 k) = ramIndex addr + k := by
  obtain ⟨hbase, hfit⟩ := h
  have hsize := ram.size_lt
  unfold ramIndex at *
  have hdram : DRAM_BASE.toNat = 0x80000000 := rfl
  rw [BitVec.le_def] at hbase ⊢
  have haddr : (addr - DRAM_BASE).toNat = addr.toNat - 0x80000000 := by
    rw [BitVec.toNat_sub_of_le (by simpa [BitVec.le_def] using hbase), hdram]
  have hsum : (addr + BitVec.ofNat 64 k).toNat = addr.toNat + k := by
    rw [BitVec.toNat_add, BitVec.toNat_ofNat]
    omega
  have hle : DRAM_BASE.toNat ≤ (addr + BitVec.ofNat 64 k).toNat := by
    omega
  refine ⟨hle, ?_⟩
  rw [BitVec.toNat_sub_of_le (by simpa [BitVec.le_def] using hle), hsum, haddr, hdram]
  omega

theorem InRam.sub {k n : Nat} (h : InRam ram addr len) (hk : k + n ≤ len) :
    InRam ram (addr + BitVec.ofNat 64 k) n := by
  obtain ⟨hbase, hindex⟩ := ramIndex_add h (by omega : k ≤ len)
  refine ⟨hbase, ?_⟩
  have := h.2
  omega

theorem read_eq_of_inRam {n : Nat} (h : InRam ram addr n) :
    ram.read (addr - DRAM_BASE) n =
      some (Bytes.ofLE 64 (Bytes.slice ram.data (ramIndex addr) n)) :=
  (Ram.read_eq ram (addr - DRAM_BASE) n).trans (if_pos h.2)

theorem readU16_eq (h : InRam ram addr 2) :
    readU16 ram addr = some (Bytes.ofLE 16 (Bytes.slice ram.data (ramIndex addr) 2)) := by
  simp [readU16, ramOffset_eq h, read_eq_of_inRam h, Bytes.setWidth_ofLE]

theorem readU32_eq (h : InRam ram addr 4) :
    readU32 ram addr = some (Bytes.ofLE 32 (Bytes.slice ram.data (ramIndex addr) 4)) := by
  simp [readU32, ramOffset_eq h, read_eq_of_inRam h, Bytes.setWidth_ofLE]

theorem writeWord_eq {size : Nat} (h : InRam ram addr size) (hsize : size ≤ 8) (val : U64) :
    writeWord addr val size ram =
      .ok () (ram.stored (ramIndex addr) (Bytes.toLE size val) (by simpa using h.2)) := by
  have hwrite : ram.write (addr - DRAM_BASE) val size =
      some (ram.stored (ramIndex addr) (Bytes.toLE size val) (by simpa using h.2)) := by
    rw [Ram.write_eq _ _ _ _ hsize, Ram.writeSlice_eq]
    exact dif_pos (by rw [Bytes.length_toLE]; exact h.2)
  simp only [writeWord, ramOffset_eq h, hwrite]

/-! ## The rings -/

def availIdx (q : Queue) (ram : Ram) : Option U16 :=
  readU16 ram (q.avail + 2)

def usedElem (q : Queue) (ram : Ram) (idx : U16) : Option (U32 × U32) := do
  let head ← readU32 ram (usedSlot q idx)
  let len ← readU32 ram (usedSlot q idx + 4)
  some (head, len)

/-- The bytes that publishing position `idx` may write: its element and the used index. -/
def UsedField (q : Queue) (idx : U16) (i : Nat) : Prop :=
  (ramIndex (usedSlot q idx) ≤ i ∧ i < ramIndex (usedSlot q idx) + 8) ∨
    (ramIndex (q.used + 2) ≤ i ∧ i < ramIndex (q.used + 2) + 2)

def InRings (q : Queue) (i : Nat) : Prop :=
  (ramIndex q.avail ≤ i ∧ i < ramIndex q.avail + (4 + q.num.toNat * 2)) ∨
    (ramIndex q.used ≤ i ∧ i < ramIndex q.used + (4 + q.num.toNat * 8))

def Separate (q : Queue) : Prop :=
  ramIndex q.avail + (4 + q.num.toNat * 2) ≤ ramIndex q.used ∨
    ramIndex q.used + (4 + q.num.toNat * 8) ≤ ramIndex q.avail

instance (q : Queue) : Decidable (Separate q) :=
  inferInstanceAs (Decidable (_ ∨ _))

/-- One used element, `(head, len)`, has been published at the position of the used index. -/
structure Publishes (q : Queue) (head : U16) (len : U32) (ram ram' : Ram) : Prop where
  published : ∃ idx, usedIdx q ram = some idx ∧ usedIdx q ram' = some (idx + 1) ∧
    usedElem q ram' idx = some (head.setWidth 32, len) ∧
    ∀ i, ¬ UsedField q idx i → ram'.data i = ram.data i
  size : ram'.size = ram.size

section Rings

/-- A position of a ring with `num` entries. -/
theorem mod_num_lt (hnum : q.num ≠ 0) (idx : U16) : (idx % q.num).toNat < q.num.toNat := by
  have hpos : 0 < q.num.toNat := by
    rcases Nat.eq_zero_or_pos q.num.toNat with hzero | hpos
    · exact absurd (BitVec.eq_of_toNat_eq hzero) hnum
    · exact hpos
  exact Nat.mod_lt _ hpos

/-- A ring entry as a part of its span. -/
theorem entry_addr (base : U64) (slot : U16) (size : Nat) (hsize : size = 2 ∨ size = 8) :
    base + 4 + slot.setWidth 64 * BitVec.ofNat 64 size =
      base + BitVec.ofNat 64 (4 + slot.toNat * size) := by
  have hfour : (4 : U64).toNat = 4 := rfl
  apply BitVec.eq_of_toNat_eq
  rcases hsize with rfl | rfl <;>
  · simp only [BitVec.toNat_add, BitVec.toNat_mul, BitVec.toNat_setWidth, BitVec.toNat_ofNat]
    omega

structure RingsInRam (q : Queue) (ram : Ram) : Prop where
  num : q.num ≠ 0
  avail : InRam ram q.avail (4 + q.num.toNat * 2)
  used : InRam ram q.used (4 + q.num.toNat * 8)

theorem RingsInRam.congr (h : RingsInRam q ram) (hsize : ram'.size = ram.size) :
    RingsInRam q ram' :=
  ⟨h.num, h.avail.congr hsize, h.used.congr hsize⟩

variable (h : RingsInRam q ram)
include h

theorem RingsInRam.usedIdx : InRam ram (q.used + 2) 2 ∧
    ramIndex (q.used + 2) = ramIndex q.used + 2 :=
  ⟨h.used.sub (k := 2) (by omega), (ramIndex_add h.used (k := 2) (by omega)).2⟩

theorem RingsInRam.availEntry (idx : U16) :
    InRam ram (q.avail + 4 + (idx % q.num).setWidth 64 * 2) 2 ∧
      ramIndex (q.avail + 4 + (idx % q.num).setWidth 64 * 2) =
        ramIndex q.avail + (4 + (idx % q.num).toNat * 2) := by
  have hlt := mod_num_lt h.num idx
  have haddr := entry_addr q.avail (idx % q.num) 2 (Or.inl rfl)
  rw [show (2 : U64) = BitVec.ofNat 64 2 from rfl, haddr]
  exact ⟨h.avail.sub (by omega), (ramIndex_add h.avail (by omega)).2⟩

theorem RingsInRam.usedSlot (idx : U16) :
    InRam ram (Virtqueue.usedSlot q idx) 8 ∧
      ramIndex (Virtqueue.usedSlot q idx) = ramIndex q.used + (4 + (idx % q.num).toNat * 8) := by
  have hlt := mod_num_lt h.num idx
  have haddr := entry_addr q.used (idx % q.num) 8 (Or.inr rfl)
  unfold Virtqueue.usedSlot
  rw [show (8 : U64) = BitVec.ofNat 64 8 from rfl, haddr]
  exact ⟨h.used.sub (by omega), (ramIndex_add h.used (by omega)).2⟩

end Rings

section Stored

variable {v : U64} {n : Nat}
  (hfit : ramIndex addr + (Bytes.toLE n v).length ≤ ram.size)

/-- A store leaves the bytes outside its range. -/
theorem data_stored_of_not {i : Nat} (hi : ¬ (ramIndex addr ≤ i ∧ i < ramIndex addr + n)) :
    (ram.stored (ramIndex addr) (Bytes.toLE n v) hfit).data i = ram.data i := by
  rw [Ram.data_stored]
  by_contra hne
  have hin := Bytes.splice_ne hne
  rw [Bytes.length_toLE] at hin
  exact hi hin

theorem slice_stored :
    Bytes.slice (ram.stored (ramIndex addr) (Bytes.toLE n v) hfit).data (ramIndex addr) n =
      Bytes.toLE n v := by
  rw [Ram.data_stored]
  have hself := Bytes.slice_splice_self ram.data (ramIndex addr) (Bytes.toLE n v)
  rwa [Bytes.length_toLE] at hself

end Stored

section Words

-- A read of `n` bytes as a word.
variable {w n : Nat} {read : Ram → U64 → Option (BitVec w)}
  (hread : ∀ {ram addr}, InRam ram addr n →
    read ram addr = some (Bytes.ofLE w (Bytes.slice ram.data (ramIndex addr) n)))

include hread

theorem read_congr (h : InRam ram addr n) (hsize : ram'.size = ram.size)
    (hdata : ∀ i, ramIndex addr ≤ i → i < ramIndex addr + n → ram'.data i = ram.data i) :
    read ram' addr = read ram addr := by
  rw [hread h, hread (h.congr hsize), Bytes.slice_congr hdata]

theorem read_stored (h : InRam ram addr n) (v : BitVec w) (hw : w ≤ 8 * n ∧ w ≤ 64)
    (hfit : ramIndex addr + (Bytes.toLE n (v.setWidth 64 : U64)).length ≤ ram.size) :
    read (ram.stored (ramIndex addr) (Bytes.toLE n (v.setWidth 64 : U64)) hfit) addr = some v := by
  rw [hread (h.congr (Ram.size_stored _)), slice_stored, Bytes.toLE_setWidth n v hw.2,
    Bytes.ofLE_toLE n v hw.1]

theorem read_sub {k : Nat} (h : InRam ram addr len) (hk : k + n ≤ len) :
    read ram (addr + BitVec.ofNat 64 k) =
      some (Bytes.ofLE w (Bytes.slice ram.data (ramIndex addr + k) n)) := by
  rw [hread (h.sub hk), (ramIndex_add h (by omega)).2]

end Words

/-- Publishing succeeds, and does what it is for. -/
theorem publish_ok (h : RingsInRam q ram) (hidx : usedIdx q ram = some idx) (head : U16)
    (len : U32) :
    ∃ ram', publish (usedSlot q idx) q.used head len idx ram = .ok () ram' ∧
      Publishes q head len ram ram' := by
  obtain ⟨hslot, hslotIndex⟩ := h.usedSlot idx
  obtain ⟨hused, husedIndex⟩ := h.usedIdx
  have hhead : InRam ram (usedSlot q idx) 4 := ⟨hslot.1, by have := hslot.2; omega⟩
  have hlen : InRam ram (usedSlot q idx + 4) 4 := hslot.sub (k := 4) (by omega)
  have hlenIndex : ramIndex (usedSlot q idx + 4) = ramIndex (usedSlot q idx) + 4 :=
    (ramIndex_add hslot (k := 4) (by omega)).2
  -- The three stores, one after the other.
  let ram₁ := ram.stored (ramIndex (usedSlot q idx))
    (Bytes.toLE 4 ((head.setWidth 32).setWidth 64 : U64)) (by simpa using hhead.2)
  have hsize₁ : ram₁.size = ram.size := Ram.size_stored _
  let ram₂ := ram₁.stored (ramIndex (usedSlot q idx + 4)) (Bytes.toLE 4 (len.setWidth 64 : U64))
    (by simpa using (hlen.congr hsize₁).2)
  have hsize₂ : ram₂.size = ram.size := (Ram.size_stored _).trans hsize₁
  let ram₃ := ram₂.stored (ramIndex (q.used + 2)) (Bytes.toLE 2 ((idx + 1).setWidth 64 : U64))
    (by simpa using (hused.congr hsize₂).2)
  have hsize₃ : ram₃.size = ram.size := (Ram.size_stored _).trans hsize₂
  refine ⟨ram₃, ?_, ⟨idx, hidx, ?_, ?_, ?_⟩, hsize₃⟩
  · unfold publish writeU32 writeU16
    rw [Effect.run_bind_ok (writeWord_eq hhead (by decide) _),
      Effect.run_bind_ok (writeWord_eq (hlen.congr hsize₁) (by decide) _)]
    exact writeWord_eq (hused.congr hsize₂) (by decide) _
  · exact read_stored readU16_eq (hused.congr hsize₂) (idx + 1) (by decide) _
  · -- The element lies behind the index, and its halves side by side.
    have helem : readU32 ram₃ (usedSlot q idx) = some (head.setWidth 32) := by
      rw [read_congr readU32_eq (hhead.congr hsize₁) (hsize₃.trans hsize₁.symm)]
      · exact read_stored readU32_eq hhead (head.setWidth 32) (by decide) _
      · intro i hlo hhi
        rw [data_stored_of_not _ (by omega), data_stored_of_not _ (by omega)]
    have hlength : readU32 ram₃ (usedSlot q idx + 4) = some len := by
      rw [read_congr readU32_eq (hlen.congr hsize₂) (hsize₃.trans hsize₂.symm)]
      · exact read_stored readU32_eq (hlen.congr hsize₁) len (by decide) _
      · intro i hlo hhi
        exact data_stored_of_not _ (by omega)
    rw [usedElem, helem, Option.bind_eq_bind, Option.bind_some, hlength]
    rfl
  · intro i hi
    obtain ⟨hnotSlot, hnotIdx⟩ := not_or.mp hi
    rw [data_stored_of_not _ (by omega), data_stored_of_not _ (by omega),
      data_stored_of_not _ (by omega)]

variable {δ : Type}

/-! ## The calls of a drain -/

/-- One call of the handler: the head it was given, and the states before and after. -/
structure Call (δ : Type) where
  head : U16
  before : δ × Ram
  outcome : ChainOutcome
  after : δ × Ram

def callOf (handler : Handler δ) (layout : QueueLayout) (head : U16) (s : δ × Ram) : Call δ :=
  { head := head
    before := s
    outcome := (outcome (handler layout head s)).1
    after := (outcome (handler layout head s)).2 }

/-- The handler, with a log of its calls next to the device. -/
def logged (handler : Handler δ) : Handler (δ × List (Call δ)) := fun layout head s =>
  let call := callOf handler layout head (s.1.1, s.2)
  .ok call.outcome ((call.after.1, s.1.2 ++ [call]), call.after.2)

def calls (handler : Handler δ) (q : Queue) (s : δ × Ram) : List (Call δ) :=
  (drain (logged handler) q ((s.1, []), s.2)).2.1.2

def forget (s : (δ × List (Call δ)) × Ram) : δ × Ram :=
  (s.1.1, s.2)

variable (handler : Handler δ) {head : U16}

theorem drainLoop_logged_some {availIdx : U16} (fuel : Nat) (published : Bool) {s : δ × Ram}
    (log : List (Call δ)) (h : next q availIdx s.2 = some (head, idx)) :
    drainLoop (logged handler) availIdx (fuel + 1) q published ((s.1, log), s.2) =
      settled (logged handler) availIdx fuel q published head idx
        ((callOf handler q.layout head s).outcome,
          (((callOf handler q.layout head s).after.1, log ++ [callOf handler q.layout head s]),
            (callOf handler q.layout head s).after.2)) :=
  drainLoop_some (logged handler) fuel published (s := ((s.1, log), s.2)) h

theorem drainLoop_logged (availIdx : U16) (fuel : Nat) (q : Queue)
    (published : Bool) (s : δ × Ram) (log : List (Call δ)) :
    (drainLoop (logged handler) availIdx fuel q published ((s.1, log), s.2)).1 =
        (drainLoop handler availIdx fuel q published s).1 ∧
      forget (drainLoop (logged handler) availIdx fuel q published ((s.1, log), s.2)).2 =
        (drainLoop handler availIdx fuel q published s).2 := by
  induction fuel generalizing q published s log with
  | zero => exact ⟨rfl, rfl⟩
  | succ fuel ih =>
    cases hnext : next q availIdx s.2 with
    | none =>
      rw [drainLoop_none handler fuel published hnext,
        drainLoop_none (logged handler) fuel published (s := ((s.1, log), s.2)) hnext]
      exact ⟨rfl, rfl⟩
    | some turn =>
      obtain ⟨head, idx⟩ := turn
      rw [drainLoop_some handler fuel published hnext,
        drainLoop_logged_some handler fuel published log hnext]
      unfold callOf
      rcases outcome (handler q.layout head s) with ⟨o, t⟩
      cases o with
      | retry => exact ⟨rfl, rfl⟩
      | skip => exact ih _ _ t _
      | used len =>
        simp only [settled]
        cases publish (usedSlot q idx) q.used head len idx t.2 with
        | error e ram => exact ⟨rfl, rfl⟩
        | ok u ram => exact ih _ _ (t.1, ram) _

/-- Logging changes neither the queue, nor the answer, nor the device, nor RAM. -/
theorem drain_logged (q : Queue) (s : δ × Ram) :
    (drain (logged handler) q ((s.1, []), s.2)).1 = (drain handler q s).1 ∧
      forget (drain (logged handler) q ((s.1, []), s.2)).2 = (drain handler q s).2 := by
  unfold drain
  split
  · exact ⟨rfl, rfl⟩
  · cases readU16 s.2 (q.avail + 2) with
    | none => exact ⟨rfl, rfl⟩
    | some availIdx =>
      dsimp only
      split
      · exact ⟨rfl, rfl⟩
      · exact drainLoop_logged handler availIdx q.num.toNat q false s []

/-- What one call adds to the log and does to the device, carried through a whole drain: RAM is
arbitrary at each call, since the drain publishes in between. -/
theorem calls_rule {handler : Handler δ} {P : List (Call δ) → δ → Prop} {s : δ × Ram}
    (hstart : P [] s.1)
    (hcall : ∀ log d ram head, P log d →
      P (log ++ [callOf handler q.layout head (d, ram)])
        (callOf handler q.layout head (d, ram)).after.1) :
    P (calls handler q s) (drain handler q s).2.1 := by
  have hdrain : P (calls handler q s) (drain (logged handler) q ((s.1, []), s.2)).2.1.1 :=
    drain_rule (logged handler) (P := fun t => P t.1.2 t.1.1)
      (fun head t => hcall t.1.2 t.1.1 t.2 head)
      (fun _ _ _ hlog _ => hlog) hstart
  have hforget : (drain (logged handler) q ((s.1, []), s.2)).2.1.1 = (drain handler q s).2.1 :=
    congrArg Prod.fst (drain_logged handler q s).2
  rwa [hforget] at hdrain

/-- What holds of every call of the handler holds of the calls of a drain. -/
theorem forall_mem_calls {handler : Handler δ} {P : Call δ → Prop}
    (h : ∀ head s, P (callOf handler q.layout head s)) {s : δ × Ram} :
    ∀ c ∈ calls handler q s, P c := by
  refine calls_rule (P := fun log _ => ∀ c ∈ log, P c) (fun c hmem => absurd hmem List.not_mem_nil)
    fun log d ram head hlog c hmem => ?_
  rcases List.mem_append.mp hmem with hold | hnew
  · exact hlog c hold
  · rw [List.mem_singleton.mp hnew]
    exact h head (d, ram)

/-! ## The contract -/

/-- The handler was given the entry at position `idx`. -/
structure Handles (handler : Handler δ) (q : Queue) (idx : U16) (s : δ × Ram) (c : Call δ) :
    Prop where
  head : availEntry q s.2 idx = some c.head
  call : c = callOf handler q.layout c.head s

/-- Heads are served from position `idx` on, until the driver's index or a retry. -/
inductive Serves (handler : Handler δ) (q : Queue) (availIdx : U16) :
    U16 → δ × Ram → List (Call δ) → U16 → δ × Ram → Prop
  /-- Everything available has been served. -/
  | done {s} : Serves handler q availIdx availIdx s [] availIdx s
  /-- A retry ends the drain and leaves its head available. -/
  | retry {idx s c} (hne : idx ≠ availIdx) (hc : Handles handler q idx s c)
      (ho : c.outcome = .retry) : Serves handler q availIdx idx s [c] idx c.after
  /-- A skip consumes its head and publishes nothing. -/
  | skip {idx s c cs idx' t} (hne : idx ≠ availIdx) (hc : Handles handler q idx s c)
      (ho : c.outcome = .skip) (rest : Serves handler q availIdx (idx + 1) c.after cs idx' t) :
      Serves handler q availIdx idx s (c :: cs) idx' t
  /-- A used chain is published once and consumed. -/
  | used {idx s c cs idx' t len ram} (hne : idx ≠ availIdx) (hc : Handles handler q idx s c)
      (ho : c.outcome = .used len) (hpublish : Publishes q c.head len c.after.2 ram)
      (rest : Serves handler q availIdx (idx + 1) (c.after.1, ram) cs idx' t) :
      Serves handler q availIdx idx s (c :: cs) idx' t

/-- The handler leaves the rings alone in this call. -/
structure Call.LeavesRings (q : Queue) (c : Call δ) : Prop where
  size : c.after.2.size = c.before.2.size
  data : ∀ i, InRings q i → c.after.2.data i = c.before.2.data i

def Queue.at (q : Queue) (idx : U16) : Queue :=
  { q with lastAvailIdx := idx }

theorem log_prefix_settled (fuel : Nat) (published : Bool)
    (availIdx head idx : U16) (o : ChainOutcome) (t : δ × Ram) (log : List (Call δ)) :
    log <+: (settled (logged handler) availIdx fuel q published head idx
      (o, ((t.1, log), t.2))).2.1.2 := by
  let P (t : (δ × List (Call δ)) × Ram) : Prop := log <+: t.1.2
  have hcall : ∀ layout head t, P t → P (outcome (logged handler layout head t)).2 :=
    fun _ _ _ hlog => hlog.trans (List.prefix_append _ _)
  have hpublish : ∀ d ram ram', P (d, ram) → Ram.Evolves ram ram' → P (d, ram') :=
    fun _ _ _ hlog _ => hlog
  exact settled_rule (P := P) hpublish (fun _ published _ => drainLoop_rule (hcall _) hpublish _ _
    published rfl) published head idx o (List.prefix_refl log)

/-- With the rings in RAM the drain goes on until it has caught up with the driver. -/
theorem exists_next (h : RingsInRam q ram) {availIdx : U16} (hne : idx ≠ availIdx) :
    ∃ head used, next (q.at idx) availIdx ram = some (head, used) ∧
      availEntry q ram idx = some head ∧ usedIdx q ram = some used := by
  have hhead : availEntry q ram idx = some _ := readU16_eq (h.availEntry idx).1
  have hused : usedIdx q ram = some _ := readU16_eq h.usedIdx.1
  refine ⟨_, _, ?_, hhead, hused⟩
  refine (if_neg hne).trans ?_
  change ((availEntry q ram idx).bind fun head => (usedIdx q ram).bind fun used =>
    if (ramOffset ram (usedSlot q used) 8).isNone then none else some (head, used)) = _
  rw [hhead, Option.bind_some, hused, Option.bind_some, ramOffset_eq (h.usedSlot _).1]
  rfl

/-- A handler that leaves the rings alone leaves their fields. -/
theorem usedIdx_of_leavesRings {c : Call δ} (h : RingsInRam q c.before.2) (hc : c.LeavesRings q) :
    usedIdx q c.after.2 = usedIdx q c.before.2 := by
  obtain ⟨hin, hindex⟩ := h.usedIdx
  refine read_congr readU16_eq hin hc.size fun i hlo hhi => hc.data i (Or.inr ?_)
  omega

/-- What a loop of the drain has done: the calls `cs` it made, the position it reached, whether
something was published by then, and the state it left. -/
structure Drained (handler : Handler δ) (q : Queue) (availIdx idx : U16) (published : Bool)
    (s : δ × Ram) (cs : List (Call δ)) (r : (Queue × Bool) × (δ × Ram)) : Prop where
  serves : Serves handler q availIdx idx s cs r.1.1.lastAvailIdx r.2
  queue : r.1.1 = q.at r.1.1.lastAvailIdx
  published_iff : r.1.2 = true ↔ published = true ∨ ∃ c ∈ cs, ∃ len, c.outcome = .used len

def unlogged (r : (Queue × Bool) × ((δ × List (Call δ)) × Ram)) : (Queue × Bool) × (δ × Ram) :=
  (r.1, forget r.2)

/-- The distance to the driver's index shrinks by one. -/
theorem toNat_sub_succ {availIdx : U16} (hne : idx ≠ availIdx) {fuel : Nat}
    (hfuel : (availIdx - idx).toNat ≤ fuel + 1) : (availIdx - (idx + 1)).toNat ≤ fuel := by
  bv_omega

theorem drained_done (q : Queue) (availIdx : U16) (published : Bool)
    (s : δ × Ram) : Drained handler q availIdx availIdx published s []
      ((q.at availIdx, published), s) :=
  ⟨Serves.done, rfl, by simp⟩

theorem drained_loop {availIdx : U16} (fuel : Nat) (idx : U16) (published : Bool) (s : δ × Ram)
    (log : List (Call δ)) (hrings : RingsInRam q s.2) (hfuel : (availIdx - idx).toNat ≤ fuel)
    (hframe : ∀ c ∈ (drainLoop (logged handler) availIdx fuel (q.at idx) published
      ((s.1, log), s.2)).2.1.2, c.LeavesRings q) :
    ∃ cs, (drainLoop (logged handler) availIdx fuel (q.at idx) published
        ((s.1, log), s.2)).2.1.2 = log ++ cs ∧
      Drained handler q availIdx idx published s cs
        (unlogged (drainLoop (logged handler) availIdx fuel (q.at idx) published
          ((s.1, log), s.2))) := by
  induction fuel generalizing idx published s log with
  | zero =>
    have heq : idx = availIdx := by
      bv_omega
    subst heq
    exact ⟨[], (List.append_nil log).symm, drained_done handler q idx published s⟩
  | succ fuel ih =>
    by_cases heq : idx = availIdx
    · subst heq
      have hnone : next (q.at idx) idx s.2 = none := if_pos rfl
      rw [drainLoop_none (logged handler) fuel published (s := ((s.1, log), s.2)) hnone]
      exact ⟨[], (List.append_nil log).symm, drained_done handler q idx published s⟩
    · obtain ⟨head, used, hnext, hhead, hused⟩ := exists_next hrings heq
      have hdist := toNat_sub_succ heq hfuel
      rw [drainLoop_logged_some handler fuel published log hnext] at hframe ⊢
      have hlayout : (q.at idx).layout = q.layout := rfl
      rw [hlayout] at hframe ⊢
      have hc : Handles handler q idx s (callOf handler q.layout head s) := ⟨hhead, rfl⟩
      have hbefore : (callOf handler q.layout head s).before = s := rfl
      have hgiven : (callOf handler q.layout head s).head = head := rfl
      generalize callOf handler q.layout head s = c at hframe hc hbefore hgiven ⊢
      -- The call is in the final log, so it leaves the rings alone.
      have hleaves : c.LeavesRings q := by
        refine hframe c ((log_prefix_settled handler fuel published availIdx head used _ c.after
          _).subset ?_)
        exact List.mem_append_right _ (List.mem_singleton_self _)
      have hrings' : RingsInRam q c.after.2 :=
        hrings.congr (hleaves.size.trans (by rw [hbefore]))
      cases ho : c.outcome with
      | retry =>
        refine ⟨[c], rfl, Serves.retry heq hc ho, rfl, ?_⟩
        simp [unlogged, settled, ho]
      | skip =>
        rw [ho] at hframe
        obtain ⟨cs, hlog, hdrained⟩ := ih (idx + 1) published c.after (log ++ [c]) hrings' hdist
          hframe
        refine ⟨c :: cs, ?_, Serves.skip heq hc ho hdrained.serves, hdrained.queue, ?_⟩
        · exact hlog.trans (by simp)
        · refine hdrained.published_iff.trans ?_
          simp [ho]
      | used len =>
        have hidx : usedIdx q c.after.2 = some used := by
          rw [usedIdx_of_leavesRings (by rw [hbefore]; exact hrings) hleaves, hbefore, hused]
        obtain ⟨ram, hok, hpublish⟩ := publish_ok hrings' hidx head len
        have hsettled : settled (logged handler) availIdx fuel (q.at idx) published head used
            (.used len, ((c.after.1, log ++ [c]), c.after.2)) =
            drainLoop (logged handler) availIdx fuel (q.at (idx + 1)) true
              ((c.after.1, log ++ [c]), ram) := by
          have hok' : publish (usedSlot (q.at idx) used) (q.at idx).used head len used
              c.after.2 = .ok () ram := hok
          simp only [settled, hok']
          rfl
        rw [ho, hsettled] at hframe
        rw [hsettled]
        obtain ⟨cs, hlog, hdrained⟩ := ih (idx + 1) true (c.after.1, ram) (log ++ [c])
          (hrings'.congr hpublish.size) hdist hframe
        refine ⟨c :: cs, ?_, ?_, hdrained.queue, ?_⟩
        · exact hlog.trans (by simp)
        · exact Serves.used heq hc ho (hgiven ▸ hpublish) hdrained.serves
        · refine hdrained.published_iff.trans ?_
          simp [ho]

/-! ### What the contract implies for the whole drain -/

section Serves

variable {handler : Handler δ} {availIdx idx' : U16} {s t : δ × Ram}
  {cs : List (Call δ)}

/-- No more calls than the driver has made available. -/
theorem Serves.length_le (h : Serves handler q availIdx idx s cs idx' t) :
    cs.length ≤ (availIdx - idx).toNat := by
  have hpos : ∀ {i : U16}, i ≠ availIdx → 0 < (availIdx - i).toNat ∧
      (availIdx - (i + 1)).toNat + 1 = (availIdx - i).toNat := by
    intro i hne
    bv_omega
  induction h with
  | done => exact Nat.zero_le _
  | retry hne _ _ => exact (hpos hne).1
  | skip hne _ _ _ ih | used hne _ _ _ _ ih =>
    have := (hpos hne).2
    simp only [List.length_cons]
    omega

variable {c : Call δ} {i : Nat}

/-- A published field belongs to the used ring. -/
theorem UsedField.inUsed (h : RingsInRam q ram) (hi : UsedField q idx i) :
    ramIndex q.used ≤ i ∧ i < ramIndex q.used + (4 + q.num.toNat * 8) := by
  have hslot := (h.usedSlot idx).2
  have hused := h.usedIdx.2
  have hlt := mod_num_lt h.num idx
  rcases hi with hi | hi <;> omega

/-- The entries of the available ring depend on its bytes only. -/
theorem availEntry_congr (h : RingsInRam q ram) (hsize : ram'.size = ram.size)
    (hdata : ∀ i, ramIndex q.avail ≤ i → i < ramIndex q.avail + (4 + q.num.toNat * 2) →
      ram'.data i = ram.data i) (idx : U16) : availEntry q ram' idx = availEntry q ram idx := by
  obtain ⟨hin, hindex⟩ := h.availEntry idx
  have hlt := mod_num_lt h.num idx
  refine read_congr readU16_eq hin hsize fun i hlo hhi => hdata i ?_ ?_ <;> omega

/-- Publishing leaves the available ring alone. -/
theorem Publishes.availEntry_eq {len : U32}
    (h : Publishes q head len ram ram') (hrings : RingsInRam q ram) (hsep : Separate q)
    (idx : U16) : availEntry q ram' idx = availEntry q ram idx := by
  obtain ⟨used, -, -, -, hdata⟩ := h.published
  refine availEntry_congr hrings h.size (fun i hlo hhi => hdata i fun hfield => ?_) idx
  have hin := hfield.inUsed hrings
  rcases hsep with hsep | hsep <;> omega

theorem availEntry_of_leavesRings (h : RingsInRam q c.before.2) (hc : c.LeavesRings q) (idx : U16) :
    availEntry q c.after.2 idx = availEntry q c.before.2 idx :=
  availEntry_congr h hc.size (fun i hlo hhi => hc.data i (Or.inl ⟨hlo, hhi⟩)) idx

theorem Handles.before (h : Handles handler q idx s c) : c.before = s :=
  congrArg Call.before h.call

/-- The rings and the driver's entries after a call that leaves them alone. -/
theorem Handles.rings (h : Handles handler q idx s c) (hrings : RingsInRam q s.2)
    (hc : c.LeavesRings q) :
    RingsInRam q c.after.2 ∧ ∀ i, availEntry q c.after.2 i = availEntry q s.2 i := by
  have hbefore := h.before
  subst hbefore
  exact ⟨hrings.congr hc.size, availEntry_of_leavesRings hrings hc⟩

/-- Position `k + 1` from here is position `k` from the next one. -/
theorem add_succ_position (idx : U16) (k : Nat) :
    idx + BitVec.ofNat 16 (k + 1) = idx + 1 + BitVec.ofNat 16 k := by
  rw [BitVec.add_assoc, Nat.add_comm k 1, BitVec.ofNat_add]
  rfl

/-- The heads are the entries of the ring as the driver left it, in ring order. -/
theorem Serves.heads (h : Serves handler q availIdx idx s cs idx' t) (hrings : RingsInRam q s.2)
    (hsep : Separate q) (hframe : ∀ c ∈ cs, c.LeavesRings q) (k : Nat) (hk : k < cs.length) :
    availEntry q s.2 (idx + BitVec.ofNat 16 k) = some cs[k].head := by
  induction h generalizing k with
  | done => simp at hk
  | retry _ hc _ =>
    obtain rfl : k = 0 := by simpa using hk
    simpa using hc.head
  | skip _ hc _ _ ih =>
    cases k with
    | zero => simpa using hc.head
    | succ k =>
      obtain ⟨hrings', hentries⟩ := hc.rings hrings (hframe _ List.mem_cons_self)
      rw [add_succ_position, ← hentries]
      exact ih hrings' (fun c hmem => hframe c (List.mem_cons_of_mem _ hmem)) k
        (Nat.lt_of_succ_lt_succ hk)
  | used _ hc _ hpublish _ ih =>
    cases k with
    | zero => simpa using hc.head
    | succ k =>
      obtain ⟨hrings', hentries⟩ := hc.rings hrings (hframe _ List.mem_cons_self)
      rw [add_succ_position, ← hentries, ← hpublish.availEntry_eq hrings' hsep]
      exact ih (hrings'.congr hpublish.size)
        (fun c hmem => hframe c (List.mem_cons_of_mem _ hmem)) k (Nat.lt_of_succ_lt_succ hk)

/-- A byte that a call changes: the handler wrote it, or it belongs to what is published. -/
def Call.Changes (q : Queue) (c : Call δ) (i : Nat) : Prop :=
  c.after.2.data i ≠ c.before.2.data i ∨
    ∃ len idx, c.outcome = .used len ∧ usedIdx q c.after.2 = some idx ∧ UsedField q idx i

/-- A byte that a call does not change, before and after the handler. -/
theorem Handles.data_eq (h : Handles handler q idx s c) (hi : ¬ c.Changes q i) :
    c.after.2.data i = s.2.data i := by
  rw [← h.before]
  by_contra hne
  exact hi (Or.inl hne)

/-- Every byte that has changed was changed by one of the calls. -/
theorem Serves.frame (h : Serves handler q availIdx idx s cs idx' t)
    (hcs : ∀ c ∈ cs, ¬ c.Changes q i) : t.2.data i = s.2.data i := by
  induction h with
  | done => rfl
  | retry _ hc _ => exact hc.data_eq (hcs _ List.mem_cons_self)
  | skip _ hc _ _ ih =>
    have hrest := ih fun c hmem => hcs c (List.mem_cons_of_mem _ hmem)
    exact hrest.trans (hc.data_eq (hcs _ List.mem_cons_self))
  | used _ hc ho hpublish _ ih =>
    have hrest := ih fun c hmem => hcs c (List.mem_cons_of_mem _ hmem)
    have hsame := hcs _ List.mem_cons_self
    obtain ⟨used, hused, -, -, hdata⟩ := hpublish.published
    have hfield : ¬ UsedField q used i := fun hin => hsame (Or.inr ⟨_, used, ho, hused, hin⟩)
    exact hrest.trans ((hdata i hfield).trans (hc.data_eq hsame))

end Serves

/-! ## The theorem -/

/-- The checks a drain makes before it serves anything. -/
structure Accepted (q : Queue) (ram : Ram) : Prop where
  ready : q.ready = true
  nonzero : q.num ≠ 0 ∧ q.desc ≠ 0 ∧ q.avail ≠ 0 ∧ q.used ≠ 0
  spans : spansInRam q ram = true
  backlog : ∃ idx, availIdx q ram = some idx ∧ ¬ q.num < idx - q.lastAvailIdx

theorem Accepted.rings (h : Accepted q ram) : RingsInRam q ram := by
  have hspans := h.spans
  simp only [spansInRam, Bool.and_eq_true, ramOffset_isSome_iff] at hspans
  exact ⟨h.nonzero.1, hspans.1.2, hspans.2⟩

/-- One drain, by the calls it made. -/
structure Contract (handler : Handler δ) (q : Queue) (s : δ × Ram) (cs : List (Call δ))
    (r : (Queue × Bool) × (δ × Ram)) : Prop where
  /-- At most one ring's worth of heads. -/
  bounded : cs.length ≤ q.num.toNat
  /-- The heads are the available entries from the queue's position on. -/
  heads : ∀ k (hk : k < cs.length),
    availEntry q s.2 (q.lastAvailIdx + BitVec.ofNat 16 k) = some cs[k].head
  /-- Each outcome has its effect, and only a retry leaves something available. -/
  serves : ∃ idx, availIdx q s.2 = some idx ∧
    Serves handler q idx q.lastAvailIdx s cs r.1.1.lastAvailIdx r.2
  queue : r.1.1 = q.at r.1.1.lastAvailIdx
  published : r.1.2 = true ↔ ∃ c ∈ cs, ∃ len, c.outcome = .used len
  /-- Only the handler's writes and the published fields change RAM. -/
  frame : ∀ i, r.2.2.data i ≠ s.2.data i → ∃ c ∈ cs, c.Changes q i

/-- A rejected drain changes nothing and calls nobody. -/
theorem drain_rejected {s : δ × Ram} (h : ¬ Accepted q s.2) :
    drain handler q s = ((q, false), s) := by
  unfold drain
  by_cases hreject : ¬ q.ready ∨ q.num = 0 ∨ q.desc = 0 ∨ q.avail = 0 ∨ q.used = 0 ∨
      ¬ spansInRam q s.2
  · rw [if_pos hreject]
  · rw [if_neg hreject]
    simp only [not_or, not_not] at hreject
    obtain ⟨hready, hnum, hdesc, havail, hused, hspans⟩ := hreject
    cases hidx : readU16 s.2 (q.avail + 2) with
    | none => rfl
    | some idx =>
      dsimp only
      by_cases hbacklog : q.num < idx - q.lastAvailIdx
      · rw [if_pos hbacklog]
      · exact absurd ⟨hready, ⟨hnum, hdesc, havail, hused⟩, hspans, idx, hidx, hbacklog⟩ h

theorem drain_accepted {s : δ × Ram} (h : Accepted q s.2) (hidx : availIdx q s.2 = some idx) :
    drain handler q s = drainLoop handler idx q.num.toNat q false s := by
  obtain ⟨idx', hidx', hbacklog⟩ := h.backlog
  rw [hidx] at hidx'
  cases hidx'
  unfold drain
  rw [if_neg (by simpa [h.ready, h.spans] using h.nonzero)]
  unfold availIdx at hidx
  rw [hidx]
  exact if_neg hbacklog

/-- An accepted drain serves the heads up to the driver's index. -/
theorem drain_drained (q : Queue) (s : δ × Ram) (h : Accepted q s.2)
    (hframe : ∀ c ∈ calls handler q s, c.LeavesRings q) :
    ∃ idx, availIdx q s.2 = some idx ∧ (idx - q.lastAvailIdx).toNat ≤ q.num.toNat ∧
      Drained handler q idx q.lastAvailIdx false s (calls handler q s) (drain handler q s) := by
  obtain ⟨idx, hidx, hbacklog⟩ := h.backlog
  have hfuel : (idx - q.lastAvailIdx).toNat ≤ q.num.toNat := BitVec.not_lt.mp hbacklog
  have hloop := drain_accepted (logged handler) (s := ((s.1, []), s.2)) h hidx
  have hresult : drain handler q s = unlogged (drain (logged handler) q ((s.1, []), s.2)) :=
    Prod.ext (drain_logged handler q s).1.symm (drain_logged handler q s).2.symm
  unfold calls at hframe ⊢
  rw [hresult]
  rw [hloop] at hframe ⊢
  obtain ⟨cs, hlog, hdrained⟩ :=
    drained_loop handler q.num.toNat q.lastAvailIdx false s [] h.rings hfuel hframe
  have hcs : (drainLoop (logged handler) idx q.num.toNat q false ((s.1, []), s.2)).2.1.2 = cs :=
    hlog
  rw [hcs]
  exact ⟨idx, hidx, hfuel, hdrained⟩

/-- The contract of one drain: whatever the queue, RAM and handler, if the rings do not overlap
and the handler leaves them alone. -/
theorem drain_contract (handler : Handler δ) (q : Queue) (s : δ × Ram) (hsep : Separate q)
    (hframe : ∀ c ∈ calls handler q s, c.LeavesRings q) :
    (Accepted q s.2 → Contract handler q s (calls handler q s) (drain handler q s)) ∧
      (¬ Accepted q s.2 → drain handler q s = ((q, false), s) ∧ calls handler q s = []) := by
  constructor
  · intro haccepted
    obtain ⟨idx, hidx, hfuel, hdrained⟩ := drain_drained handler q s haccepted hframe
    refine ⟨hdrained.serves.length_le.trans hfuel,
      hdrained.serves.heads haccepted.rings hsep hframe, ⟨idx, hidx, hdrained.serves⟩,
      hdrained.queue, hdrained.published_iff.trans (by simp), ?_⟩
    intro i hi
    by_contra hnone
    exact hi (hdrained.serves.frame fun c hmem hchanges => hnone ⟨c, hmem, hchanges⟩)
  · intro hrejected
    refine ⟨drain_rejected handler hrejected, ?_⟩
    unfold calls
    rw [drain_rejected (logged handler) (s := ((s.1, []), s.2)) hrejected]

/-- A queue of four entries that stands before the wrap of its index, its rings in RAM. -/
def sampleQueue : Queue :=
  { num := 4, ready := true, desc := DRAM_BASE, avail := DRAM_BASE + 64, used := DRAM_BASE + 80,
    lastAvailIdx := 0xfffe }

/-- RAM in which the driver has made the heads 0, 1 and 2 available, which takes its index past the
wrap.  Descriptor 0 is a buffer of sixteen bytes, the others are empty. -/
def sampleBytes (flags : U16) : List U8 :=
  Writer.u64 (DRAM_BASE + 120) ++ Writer.u32 16 ++ Writer.u16 flags ++ List.replicate 50 0 ++
    [0, 0, 1, 0, 2, 0, 9, 0, 0, 0, 1, 0] ++ List.replicate 44 0 ++ List.replicate 16 5

theorem length_sampleBytes (flags : U16) : (sampleBytes flags).length < 2 ^ 63 := by
  simp [sampleBytes, Writer.u64, Writer.u32, Writer.u16]

def sampleRam (flags : U16) : Ram :=
  .ofBytes (sampleBytes flags) (length_sampleBytes flags)

theorem accepted_sample : Accepted sampleQueue (sampleRam DESC_F_WRITE) :=
  ⟨rfl, by decide, by decide +kernel, 1, by decide +kernel, by decide +kernel⟩

/-- A handler that uses head 0, skips head 1 and cannot serve head 2 yet. -/
def sampleHandler : Handler Unit :=
  fun _ head => pure (if head = 0 then .used 7 else if head = 1 then .skip else .retry)

/-- The heads are served in order over the wrap, up to the retry. -/
theorem drain_contract_sample :
    (calls sampleHandler sampleQueue ((), sampleRam DESC_F_WRITE)).map
      (fun c => (c.head, c.outcome)) =
        [(0, .used 7), (1, .skip), (2, .retry)] ∧
      (drain sampleHandler sampleQueue ((), sampleRam DESC_F_WRITE)).1.1.lastAvailIdx = 0 ∧
      Contract sampleHandler sampleQueue ((), sampleRam DESC_F_WRITE)
        (calls sampleHandler sampleQueue ((), sampleRam DESC_F_WRITE))
        (drain sampleHandler sampleQueue ((), sampleRam DESC_F_WRITE)) := by
  have hframe : ∀ c ∈ calls sampleHandler sampleQueue ((), sampleRam DESC_F_WRITE),
      c.LeavesRings sampleQueue :=
    forall_mem_calls fun _ _ => ⟨rfl, fun _ _ => rfl⟩
  exact ⟨by decide +kernel, by decide +kernel, (drain_contract sampleHandler sampleQueue
    ((), sampleRam DESC_F_WRITE) (by decide) hframe).1 accepted_sample⟩

end Virtqueue

end EmulateComputer
