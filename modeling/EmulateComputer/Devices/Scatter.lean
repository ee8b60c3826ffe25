import EmulateComputer.Devices.VirtqueueRing
import EmulateComputer.Devices.VirtioBlk
import EmulateComputer.Devices.VirtioConsole
import EmulateComputer.Devices.VirtioInput
import EmulateComputer.Devices.VirtioNet
import EmulateComputer.Devices.VirtioRng
import EmulateComputer.Lib.Spans

/-!
# Scatter — writing a buffer across the descriptors of a chain

Four devices spread bytes over the descriptors of a chain, each with a loop of its own, and the
input device fills the first of them.  `Spread` says what all of them do to RAM, store by store;
each loop is related to it once.
-/

namespace EmulateComputer

open Effect

namespace Virtqueue

def spans (chain : List Descriptor) : List Spans.Span :=
  chain.map fun desc => (ramIndex desc.addr, desc.len.toNat)

theorem total_spans (chain : List Descriptor) : Spans.total (spans chain) = totalLen chain := by
  simp [Spans.total, spans, totalLen, Function.comp_def]

def ChainInRam (ram : Ram) (chain : List Descriptor) : Prop :=
  ∀ desc ∈ chain, InRam ram desc.addr desc.len.toNat

/-- `ram'` is `ram` with `bytes` stored at `start`, in one piece or several. -/
structure Stores (start : Nat) (bytes : List U8) (ram ram' : Ram) : Prop where
  fit : start + bytes.length ≤ ram.size
  size : ram'.size = ram.size
  data : ram'.data = Bytes.splice ram.data start bytes
  writes : ∀ i, ram'.writes i =
    if start ≤ i ∧ i < start + bytes.length then ram.writes i + 1 else ram.writes i

variable {start : Nat}

theorem Stores.stored {ram : Ram} {bytes : List U8}
    (h : start + bytes.length ≤ ram.size) : Stores start bytes ram (ram.stored start bytes h) :=
  ⟨h, Ram.size_stored h, Ram.data_stored h, Ram.writes_stored h⟩

theorem Stores.append {bytes more : List U8} {ram mid ram' : Ram} (h : Stores start bytes ram mid)
    (h' : Stores (start + bytes.length) more mid ram') : Stores start (bytes ++ more) ram ram' := by
  refine ⟨?_, h'.size.trans h.size, by rw [h'.data, h.data, Bytes.splice_append], fun i => ?_⟩
  · rw [List.length_append, ← Nat.add_assoc, ← h.size]
    exact h'.fit
  · rw [h'.writes, h.writes, List.length_append]
    split_ifs <;> omega

theorem Stores.nil {ram : Ram} (h : start ≤ ram.size) : Stores start [] ram ram :=
  ⟨h, rfl, (Bytes.splice_nil _ _).symm, fun i => by simp⟩

/-- `ram'` is `ram` with `data` stored into the descriptors, one after the other. -/
inductive Spread : List Descriptor → List U8 → Ram → Ram → Prop
  | done (segments : List Descriptor) (ram : Ram) : Spread segments [] ram ram
  | store {desc : Descriptor} {rest : List Descriptor} {data : List U8} {ram mid ram' : Ram}
      (hfirst : Stores (ramIndex desc.addr) (data.take desc.len.toNat) ram mid)
      (hrest : Spread rest (data.drop desc.len.toNat) mid ram') :
      Spread (desc :: rest) data ram ram'

variable {ram ram' : Ram} {segments : List Descriptor} {data : List U8}

theorem Spread.data_eq (h : Spread segments data ram ram') :
    ram'.data = Spans.scatter ram.data (spans segments) data := by
  induction h with
  | done => rw [Spans.scatter_nil]
  | store hfirst _ ih =>
    rw [ih, hfirst.data]
    rfl

/-- Descriptors behind those that hold all of the data are not touched. -/
theorem Spread.append (h : Spread segments data ram ram') (hfit : data.length ≤ totalLen segments)
    (more : List Descriptor) : Spread (segments ++ more) data ram ram' := by
  induction h with
  | done => exact .done _ _
  | store hstore _ ih =>
    refine .store hstore (ih ?_)
    simp only [totalLen, List.map_cons, List.sum_cons] at hfit ⊢
    rw [List.length_drop]
    omega

variable {δ ε α : Type} {s : δ × Ram} {addr offset : U64} {bytes : List U8} {n : Nat}

/-- A store inside a checked span. -/
theorem post_writeSlice {e : ε} {Q : Unit → δ × Ram → Prop} {E : ε → δ × Ram → Prop}
    (hoffset : ramOffset s.2 addr n = some offset) (hbytes : bytes.length ≤ n)
    (h : ∀ hfit, Q () (s.1, s.2.stored (ramIndex addr) bytes hfit)) :
    Post (writeSlice e offset bytes) s Q E := by
  obtain ⟨hbase, hfits⟩ := (ramOffset_isSome_iff s.2 addr n).1 (by rw [hoffset]; rfl)
  obtain rfl : addr - DRAM_BASE = offset :=
    Option.some.inj ((ramOffset_eq ⟨hbase, hfits⟩).symm.trans hoffset)
  have hfit : ramIndex addr + bytes.length ≤ s.2.size := by omega
  have hwrite : s.2.writeSlice (addr - DRAM_BASE) bytes =
      some (s.2.stored (ramIndex addr) bytes hfit) := by
    rw [Ram.writeSlice_eq]
    exact dif_pos hfit
  unfold Post writeSlice
  rw [hwrite]
  exact h hfit

/-- A part of a descriptor that is refused is a part of one outside RAM. -/
theorem not_inRam {k : Nat} (h : ramOffset ram addr n = none) (hn : n ≤ k) :
    ¬ InRam ram addr k := by
  intro hin
  have hfits : InRam ram addr n := ⟨hin.1, by have := hin.2; omega⟩
  exact nomatch h.symm.trans (ramOffset_eq hfits)

theorem ChainInRam.tail {desc : Descriptor} (h : ChainInRam ram (desc :: segments))
    (hsize : ram'.size = ram.size) : ChainInRam ram' segments := fun d hd =>
  (h d (List.mem_cons_of_mem _ hd)).congr hsize

/-- A call ends as the handler may end, early or late. -/
theorem callOf_post {handler : Handler δ} {layout : QueueLayout} {head : U16}
    {Q E : ChainOutcome → δ × Ram → Prop} (h : Post (handler layout head) s Q E) :
    Q (callOf handler layout head s).outcome (callOf handler layout head s).after ∨
      E (callOf handler layout head s).outcome (callOf handler layout head s).after := by
  unfold callOf
  cases hr : handler layout head s with
  | ok o t => exact .inl ((post_ok hr).mp h)
  | error o t => exact .inr ((post_error hr).mp h)

/-- What a loop has left of the `n` bytes it was to move, after as many as a span of `k` takes. -/
theorem take_drop_min {waiting : List U8} (h : n ≤ waiting.length) (k : Nat) :
    (waiting.drop (min n k)).take (n - min n k) = (waiting.take n).drop k := by
  rw [← List.drop_take, List.drop_eq_drop_min (i := k), List.length_take, Nat.min_eq_left h,
    Nat.min_comm]

end Virtqueue

open Virtqueue

namespace VirtioNet

theorem post_writeSegments (segments : List Descriptor) (data : List U8) (s : VirtioNet × Ram) :
    Post (writeSegments segments data) s (fun _ t => t.1 = s.1 ∧ Spread segments data s.2 t.2)
      fun _ t => t.1 = s.1 ∧ ¬ (ChainInRam s.2 segments ∧ data.length ≤ totalLen segments) := by
  induction segments generalizing data s with
  | nil =>
    cases data with
    | nil => exact ⟨rfl, .done _ _⟩
    | cons b data => exact ⟨rfl, fun h => nomatch h.2⟩
  | cons desc rest ih =>
    cases data with
    | nil => exact ⟨rfl, .done _ _⟩
    | cons b data =>
      refine post_ite (fun h => nomatch h) fun _ => post_get ?_
      refine post_ofOption (fun offset hoffset => ?_) fun hnone =>
        ⟨rfl, fun h => not_inRam hnone (Nat.min_le_right _ _) (h.1 desc List.mem_cons_self)⟩
      rw [Nat.min_comm, ← List.take_eq_take_min, ← List.drop_eq_drop_min]
      refine post_bind (post_writeSlice hoffset
        (by rw [List.length_take, Nat.min_comm]) fun hfit => ?_)
      refine (ih _ _).mono (fun _ t ht => ⟨ht.1, .store (.stored hfit) ht.2⟩) fun _ _ hrest =>
        ⟨hrest.1, fun h => hrest.2 ?_⟩
      refine ⟨h.1.tail (Ram.size_stored _), ?_⟩
      have hlen := h.2
      simp only [totalLen, List.map_cons, List.sum_cons] at hlen ⊢
      rw [List.length_drop]
      omega

end VirtioNet

namespace VirtioEntropy

/-- What a round of the loop finds at the front is the oldest entropy. -/
theorem exists_source_eq (d : VirtioEntropy) (h : d.entropy ≠ []) :
    ∃ n, 0 < n ∧ d.source = d.entropy.take n := by
  by_cases hzero : d.untilWrap = 0
  · refine ⟨d.entropy.length, List.length_pos_iff.2 h, ?_⟩
    simp [source, asSlices, hzero]
  · refine ⟨d.untilWrap, Nat.pos_of_ne_zero hzero, if_neg ?_⟩
    simp [hzero, h]

/-- The rounds of the loop together move `left` bytes, wherever the ring wraps. -/
theorem post_writeChunks (fuel : Nat) (offset : U64) (left : Nat) (s : VirtioEntropy × Ram)
    (hfuel : left ≤ fuel) (hentropy : left ≤ s.1.entropy.length)
    (hfit : offset.toNat + left ≤ s.2.size) :
    Post (writeChunks fuel offset left) s
      (fun _ t => t.1.entropy = s.1.entropy.drop left ∧
        Stores offset.toNat (s.1.entropy.take left) s.2 t.2)
      fun _ _ => False := by
  induction fuel generalizing offset left s with
  | zero =>
    obtain rfl : left = 0 := Nat.le_zero.1 hfuel
    exact ⟨rfl, .nil hfit⟩
  | succ fuel ih =>
    refine post_ite (fun hzero => ?_) fun hpos => post_get ?_
    · rw [hzero] at hfit ⊢
      exact ⟨rfl, .nil hfit⟩
    obtain ⟨n, hn, hsource⟩ := s.1.exists_source_eq (List.length_pos_iff.1 (by omega))
    simp only [hsource, List.length_take, List.take_take]
    generalize hchunk : min (min n s.1.entropy.length) left = chunk
    rw [Nat.min_eq_left (show chunk ≤ n by omega)]
    have hlen : (s.1.entropy.take chunk).length = chunk := by
      rw [List.length_take]
      omega
    have hstore : offset.toNat + (s.1.entropy.take chunk).length ≤ s.2.size := by omega
    refine post_bind ?_
    unfold Post Virtqueue.writeSlice
    rw [Ram.writeSlice_eq, dif_pos hstore]
    refine post_modify ?_
    have hnext : (offset + BitVec.ofNat 64 chunk).toNat = offset.toNat + chunk := by
      have := s.2.size_lt
      rw [BitVec.toNat_add, BitVec.toNat_ofNat]
      omega
    refine (ih _ (left - chunk) (s.1.dropEntropy chunk, s.2.stored _ _ hstore) (by omega) ?_
      ?_).mono (fun _ t ht => ⟨?_, ?_⟩) fun _ _ => id
    · simp only [dropEntropy, List.length_drop]
      omega
    · rw [hnext, Ram.size_stored]
      omega
    · rw [ht.1]
      simp only [dropEntropy, List.drop_drop]
      congr 1
      omega
    · have hboth := (Stores.stored hstore).append (by rw [hlen, ← hnext]; exact ht.2)
      have hsplit : s.1.entropy.take left =
          s.1.entropy.take chunk ++ (s.1.entropy.drop chunk).take (left - chunk) := by
        rw [← List.take_add]
        congr 1
        omega
      rw [hsplit]
      exact hboth

theorem post_writeLoop (segments : List Descriptor) (remaining : Nat) (s : VirtioEntropy × Ram)
    (htotal : remaining ≤ totalLen segments) (hentropy : remaining ≤ s.1.entropy.length) :
    Post (writeLoop segments remaining) s
      (fun _ t => t.1.entropy = s.1.entropy.drop remaining ∧
        Spread segments (s.1.entropy.take remaining) s.2 t.2)
      fun o _ => o = .malformed ∧ ¬ ChainInRam s.2 segments := by
  induction segments generalizing remaining s with
  | nil =>
    obtain rfl : remaining = 0 := Nat.le_zero.mp htotal
    exact ⟨rfl, .done _ _⟩
  | cons desc rest ih =>
    refine post_ite (fun hzero => hzero ▸ ⟨rfl, .done _ _⟩) fun _ => ?_
    refine post_bind (post_get ?_)
    refine post_ofOption (fun offset hoffset => ?_) fun hnone =>
      ⟨rfl, fun h => not_inRam hnone (Nat.min_le_right _ _) (h desc List.mem_cons_self)⟩
    have htake : s.1.entropy.take (min remaining desc.len.toNat) =
        (s.1.entropy.take remaining).take desc.len.toNat := by
      rw [List.take_take, Nat.min_comm]
    obtain ⟨hbase, hfits⟩ := (ramOffset_isSome_iff s.2 desc.addr _).1 (by rw [hoffset]; rfl)
    obtain rfl : desc.addr - DRAM_BASE = offset :=
      Option.some.inj ((ramOffset_eq ⟨hbase, hfits⟩).symm.trans hoffset)
    refine (post_writeChunks _ _ _ s le_rfl (by omega) hfits).mono (fun _ t hmid => ?_) fun _ _ =>
      False.elim
    simp only [totalLen, List.map_cons, List.sum_cons] at htotal
    refine (ih _ t (by simp only [totalLen]; omega)
      (by rw [hmid.1, List.length_drop]; omega)).mono (fun _ u hu => ⟨?_, ?_⟩)
      fun o _ h => ⟨h.1, fun hin => h.2 (hin.tail hmid.2.size)⟩
    · rw [hu.1, hmid.1, List.drop_drop, Nat.add_sub_cancel' (Nat.min_le_left _ _)]
    · refine .store (htake ▸ hmid.2) ?_
      rw [← take_drop_min hentropy, ← hmid.1]
      exact hu.2

def request (layout : QueueLayout) (head : U16) (ram : Ram) : Option (List Descriptor) :=
  (collectChain ram layout head).filter fun chain => wellFormed ram chain

theorem wellFormed_spec {ram : Ram} {chain : List Descriptor} (h : wellFormed ram chain = true) :
    (∀ desc ∈ chain, desc.flags &&& DESC_F_WRITE ≠ 0) ∧ ChainInRam ram chain ∧
      1 ≤ totalLen chain ∧ totalLen chain ≤ MAX_REQUEST_BYTES := by
  simp only [wellFormed, Bool.and_eq_true, List.all_eq_true, decide_eq_true_eq] at h
  refine ⟨fun desc hdesc => (h.1.1.1.2 desc hdesc).1, fun desc hdesc => ?_,
    Nat.one_le_iff_ne_zero.2 h.1.1.2, h.1.2⟩
  exact (ramOffset_isSome_iff _ _ _).1 (h.2 desc hdesc)

/-- A request takes what there is, up to its length; without a request or entropy nothing
changes. -/
theorem post_handler (layout : QueueLayout) (head : U16) (s : VirtioEntropy × Ram) :
    Post (handler layout head) s
      (fun o t => ∃ chain n, request layout head s.2 = some chain ∧ s.1.entropy ≠ [] ∧
        n = min (totalLen chain) s.1.entropy.length ∧ o = .used (BitVec.ofNat 32 n) ∧
          t.1.entropy = s.1.entropy.drop n ∧ Spread chain (s.1.entropy.take n) s.2 t.2)
      fun o t => t = s ∧ (o = .skip ∧ request layout head s.2 = none ∨
        o = .retry ∧ s.1.entropy = [] ∧ ∃ chain, request layout head s.2 = some chain) := by
  refine post_mapError (post_map (post_get ?_))
  unfold request
  cases collectChain s.2 layout head with
  | none => exact ⟨rfl, .inl ⟨rfl, rfl⟩⟩
  | some chain =>
    refine post_ite (fun hbad => ⟨rfl, .inl ⟨rfl, Option.filter_some_neg (by simpa using hbad)⟩⟩)
      fun hwell => ?_
    rw [Option.filter_some_pos (not_not.1 hwell)]
    refine post_ite (fun hempty => ⟨rfl, .inr ⟨rfl, List.isEmpty_iff.1 hempty, chain, rfl⟩⟩)
      fun hsome => ?_
    refine post_bind ((post_writeLoop chain _ s (Nat.min_le_left _ _)
      (Nat.min_le_right _ _)).mono (fun _ t ht => ?_) fun o t ho => ?_)
    · exact ⟨chain, _, rfl, fun h => hsome (List.isEmpty_iff.2 h), rfl, rfl, ht⟩
    · exact absurd (wellFormed_spec (not_not.1 hwell)).2.1 ho.2

end VirtioEntropy

namespace VirtioConsole

theorem dropInput_dropInput (d : VirtioConsole) (a b : Nat) :
    (d.dropInput a).dropInput b = d.dropInput (a + b) := by
  simp only [dropInput, List.drop_drop]

theorem post_receiveLoop (segments : List Descriptor) (remaining : Nat) (s : VirtioConsole × Ram)
    (htotal : remaining ≤ totalLen segments) (hinput : remaining ≤ s.1.input.length) :
    Post (receiveLoop segments remaining) s
      (fun _ t => t.1 = s.1.dropInput remaining ∧
        Spread segments (s.1.input.take remaining) s.2 t.2)
      fun o _ => o = .skip ∧ ¬ ChainInRam s.2 segments := by
  induction segments generalizing remaining s with
  | nil =>
    obtain rfl : remaining = 0 := Nat.le_zero.mp htotal
    exact ⟨rfl, .done _ _⟩
  | cons desc rest ih =>
    refine post_get (post_ofOption (fun offset hoffset => ?_) fun hnone =>
      ⟨rfl, fun h => not_inRam hnone (Nat.min_le_right _ _) (h desc List.mem_cons_self)⟩)
    have htake : s.1.input.take (min remaining desc.len.toNat) =
        (s.1.input.take remaining).take desc.len.toNat := by
      rw [List.take_take, Nat.min_comm]
    rw [htake]
    refine post_bind (post_writeSlice hoffset
      (by rw [← htake]; exact List.length_take_le _ _) fun hfit => ?_)
    have hsum : min remaining desc.len.toNat + (remaining - min remaining desc.len.toNat) =
        remaining := Nat.add_sub_cancel' (Nat.min_le_left _ _)
    refine post_modify (post_ite (fun hdone => ?_) fun _ => ?_)
    · -- Everything fitted into this descriptor.
      rw [hdone, Nat.add_zero] at hsum
      refine ⟨congrArg s.1.dropInput hsum, .store (.stored hfit) ?_⟩
      rw [← take_drop_min hinput, hdone]
      exact .done _ _
    · simp only [totalLen, List.map_cons, List.sum_cons] at htotal
      refine (ih _ (s.1.dropInput (min remaining desc.len.toNat), _)
        (by simp only [totalLen]; omega)
        (by simp only [dropInput, List.length_drop]; omega)).mono (fun _ t ht => ⟨?_, ?_⟩)
        fun o _ h => ⟨h.1, fun hin => h.2 (hin.tail (Ram.size_stored _))⟩
      · rw [ht.1, dropInput_dropInput, hsum]
      · refine .store (.stored hfit) ?_
        rw [← take_drop_min hinput]
        exact ht.2

end VirtioConsole

namespace VirtioInput

variable {kind : InputKind}

theorem length_toBytes (event : InputEvent) : event.toBytes.length = EVENT_BYTES.toNat := by
  simp [InputEvent.toBytes, EVENT_BYTES]

/-- An event goes into the first descriptor of a chain; otherwise nothing changes. -/
theorem post_fillEventBuffer (layout : QueueLayout) (head : U16) (s : VirtioInput kind × Ram) :
    Post (fillEventBuffer layout head) s
      (fun o t => o = .used EVENT_BYTES ∧ t.1 = s.1.popPending ∧ ∃ event rest first others,
        s.1.pending = event :: rest ∧ collectChain s.2 layout head = some (first :: others) ∧
          first.flags &&& DESC_F_WRITE ≠ 0 ∧ EVENT_BYTES ≤ first.len ∧
            Spread [first] event.toBytes s.2 t.2)
      fun o t => t = s ∧ (o = .skip ∨ o = .retry) := by
  refine post_get ?_
  cases s.1.pending with
  | nil => exact ⟨rfl, .inr rfl⟩
  | cons event rest =>
    match collectChain s.2 layout head with
    | none => exact ⟨rfl, .inl rfl⟩
    | some [] => exact ⟨rfl, .inl rfl⟩
    | some (first :: others) =>
      refine post_ite (fun _ => ⟨rfl, .inl rfl⟩) fun hfirst => ?_
      simp only [not_or, BitVec.not_lt] at hfirst
      refine post_ofOption (fun offset hoffset => ?_) fun _ => ⟨rfl, .inl rfl⟩
      have hlen : event.toBytes.length ≤ first.len.toNat := by
        rw [length_toBytes]
        exact hfirst.2.2
      rw [← List.take_of_length_le hlen]
      refine post_bind (post_writeSlice hoffset
        (by rw [List.take_of_length_le hlen, length_toBytes]) fun hfit => post_modify ?_)
      refine ⟨rfl, rfl, event, rest, first, others, rfl, rfl, hfirst.1, hfirst.2.2, ?_⟩
      refine .store (.stored hfit) ?_
      rw [List.drop_eq_nil_of_le hlen]
      exact .done _ _

end VirtioInput

namespace VirtioBlock

variable {β : Type}

theorem post_copySegments (segments : List Descriptor) (data : List U8) (s : VirtioBlock β × Ram)
    (hdata : data.length = totalLen segments) :
    Post (copySegments data segments) s (fun _ t => t.1 = s.1 ∧ Spread segments data s.2 t.2)
      fun _ _ => ¬ ChainInRam s.2 segments := by
  induction segments generalizing data s with
  | nil =>
    obtain rfl : data = [] := List.length_eq_zero_iff.1 hdata
    exact ⟨rfl, .done _ _⟩
  | cons desc rest ih =>
    simp only [totalLen, List.map_cons, List.sum_cons] at hdata ih
    have htake : (data.take desc.len.toNat).length = desc.len.toNat := by
      rw [List.length_take]
      omega
    refine post_bind (post_get (post_ofOption (fun offset hoffset => ?_) fun hnone h =>
      not_inRam hnone htake.le (h desc List.mem_cons_self)))
    refine post_writeSlice hoffset le_rfl fun hfit => ?_
    refine (ih _ _ (by rw [List.length_drop]; omega)).mono
      (fun _ t ht => ⟨ht.1, .store (.stored hfit) ht.2⟩) fun _ _ h hin => h ?_
    exact hin.tail (Ram.size_stored _)

def descriptorBytes (desc : Descriptor) : List U8 :=
  Writer.u64 desc.addr ++ Writer.u32 desc.len ++ Writer.u16 desc.flags ++ Writer.u16 desc.next

end VirtioBlock

end EmulateComputer
