import EmulateComputer.Devices.Scatter
import Mathlib.Algebra.BigOperators.Ring.Finset

/-!
# UsedLength — the published length against the bytes written

A driver may read as many bytes of a chain as its used element says.  `Fills` accounts for the
bytes a device writes into the writable descriptors of a chain; it composes along a handler.

Every handler publishes at most what it has written, with one exception: an accepted block write
publishes the length of the data it *read* from the chain, having written the status byte only.
-/

namespace EmulateComputer

open Effect

namespace Virtqueue

def writable (chain : List Descriptor) (i : Nat) : Bool :=
  chain.any fun desc => decide (desc.flags &&& DESC_F_WRITE ≠ 0) &&
    decide (ramIndex desc.addr ≤ i) && decide (i < ramIndex desc.addr + desc.len.toNat)

/-- How many byte writes have gone into the writable descriptors of a chain so far. -/
def writesInto (chain : List Descriptor) (ram : Ram) : Nat :=
  ∑ i ∈ Finset.range ram.size, if writable chain i then ram.writes i else 0

variable {δ : Type}

/-- If the handler has a chain published, the length is covered by what it wrote into it. -/
def Covered (handler : Handler δ) (layout : QueueLayout) (head : U16) (s : δ × Ram) : Prop :=
  ∀ len chain, (callOf handler layout head s).outcome = .used len →
    collectChain s.2 layout head = some chain →
    len.toNat ≤ writesInto chain (callOf handler layout head s).after.2 - writesInto chain s.2

/-! ## Accounting -/

/-- Exactly `n` bytes of the writable descriptors have been written. -/
structure Fills (chain : List Descriptor) (n : Nat) (s t : δ × Ram) : Prop where
  size : t.2.size = s.2.size
  writes : writesInto chain t.2 = writesInto chain s.2 + n

variable {chain : List Descriptor} {s t : δ × Ram} {n : Nat} {handler : Handler δ} {bytes : List U8}

theorem Fills.trans {m : Nat} {u : δ × Ram} (h : Fills chain n s t) (h' : Fills chain m t u) :
    Fills chain (n + m) s u :=
  ⟨h'.size.trans h.size, by rw [h'.writes, h.writes, Nat.add_assoc]⟩

/-- A store inside the writable descriptors counts with its length. -/
theorem writesInto_stores {ram ram' : Ram} {start : Nat} (h : Stores start bytes ram ram')
    (hin : ∀ i, start ≤ i → i < start + bytes.length → writable chain i = true) :
    writesInto chain ram' = writesInto chain ram + bytes.length := by
  have hterm : ∀ i, (if writable chain i then ram'.writes i else 0) =
      (if writable chain i then ram.writes i else 0) +
        if start ≤ i ∧ i < start + bytes.length then 1 else 0 := by
    intro i
    rw [h.writes]
    by_cases hi : start ≤ i ∧ i < start + bytes.length
    · simp [hi, hin i hi.1 hi.2]
    · simp [hi]
  have hcount : (Finset.range ram.size).filter (fun i => start ≤ i ∧ i < start + bytes.length) =
      Finset.Ico start (start + bytes.length) := by
    ext i
    have hfit := h.fit
    simp only [Finset.mem_filter, Finset.mem_range, Finset.mem_Ico]
    omega
  unfold writesInto
  rw [h.size, Finset.sum_congr rfl fun i _ => hterm i, Finset.sum_add_distrib,
    Finset.sum_boole, hcount, Nat.card_Ico, Nat.add_sub_cancel_left]
  rfl

/-- Bytes stored at the front of one writable descriptor. -/
theorem fills_stored {desc : Descriptor} (hdesc : desc ∈ chain)
    (hflag : desc.flags &&& DESC_F_WRITE ≠ 0) {ram : Ram} (d : δ)
    (h : Stores (ramIndex desc.addr) bytes s.2 ram) (hbytes : bytes.length ≤ desc.len.toNat) :
    Fills chain bytes.length s (d, ram) := by
  refine ⟨h.size, writesInto_stores h fun i hlo hhi => ?_⟩
  unfold writable
  rw [List.any_eq_true]
  refine ⟨desc, hdesc, ?_⟩
  have hhi' : i < ramIndex desc.addr + desc.len.toNat := by omega
  simp only [Bool.and_eq_true, decide_eq_true_eq]
  exact ⟨⟨hflag, hlo⟩, hhi'⟩

/-- Spreading data over writable descriptors writes all of it. -/
theorem Spread.fills {segments : List Descriptor} {data : List U8} {ram : Ram}
    (h : Spread segments data s.2 ram)
    (hsegments : ∀ desc ∈ segments, desc ∈ chain ∧ desc.flags &&& DESC_F_WRITE ≠ 0) (d : δ) :
    Fills chain data.length s (d, ram) := by
  generalize hram : s.2 = start at h
  induction h generalizing s with
  | done => exact ⟨by rw [hram], by rw [hram]; rfl⟩
  | store hstore _ ih =>
    subst hram
    obtain ⟨hdesc, hflag⟩ := hsegments _ List.mem_cons_self
    have hfirst := fills_stored (s := s) hdesc hflag s.1 hstore (List.length_take_le _ _)
    have hall := hfirst.trans (ih (fun d hd => hsegments d (List.mem_cons_of_mem _ hd)) rfl)
    rwa [← List.length_append, List.take_append_drop] at hall

/-- What an outcome publishes has been written. -/
def Backed (chain : List Descriptor) (s : δ × Ram) (o : ChainOutcome) (t : δ × Ram) : Prop :=
  ∀ len, o = .used len → len.toNat ≤ writesInto chain t.2 - writesInto chain s.2

theorem backed_skip (chain : List Descriptor) (s t : δ × Ram) : Backed chain s .skip t :=
  fun _ h => nomatch h

theorem backed_retry (chain : List Descriptor) (s t : δ × Ram) : Backed chain s .retry t :=
  fun _ h => nomatch h

theorem backed_zero (chain : List Descriptor) (s t : δ × Ram) : Backed chain s (.used 0) t := by
  intro len h
  cases h
  exact Nat.zero_le _

theorem Fills.backed (h : Fills chain n s t) {len : U32} (hlen : len.toNat ≤ n) :
    Backed chain s (.used len) t := by
  intro len' heq
  cases heq
  have := h.writes
  omega

/-- Later writes do not take anything back. -/
theorem Backed.fills {u : δ × Ram} {o : ChainOutcome} (h : Backed chain s o t)
    (hfills : Fills chain n t u) : Backed chain s o u := by
  intro len heq
  have hlen := h len heq
  have hwrites := hfills.writes
  omega

/-- A handler is covered if every outcome, early or late, is backed. -/
theorem covered_iff_post {layout : QueueLayout} {head : U16}
    (hchain : collectChain s.2 layout head = some chain) :
    Covered handler layout head s ↔
      Post (handler layout head) s (Backed chain s) (Backed chain s) := by
  have hbacked : Covered handler layout head s ↔
      Backed chain s (callOf handler layout head s).outcome
        (callOf handler layout head s).after := by
    constructor
    · intro h len hused
      exact h len chain hused hchain
    · intro h len chain' hused hchain'
      obtain rfl : chain = chain' := Option.some.inj (hchain.symm.trans hchain')
      exact h len hused
  rw [hbacked]
  unfold callOf
  cases hr : handler layout head s with
  | ok o t => exact (post_ok hr).symm
  | error o t => exact (post_error hr).symm

theorem covered_of_post {layout : QueueLayout} {head : U16}
    (h : ∀ chain, collectChain s.2 layout head = some chain →
      Post (handler layout head) s (Backed chain s) (Backed chain s)) :
    Covered handler layout head s :=
  fun len chain hused hchain =>
    (covered_iff_post hchain).mpr (h chain hchain) len chain hused hchain

end Virtqueue

open Virtqueue

/-! ## Network -/

namespace VirtioNet

/-- Transmit chains are published with length zero. -/
theorem covered_transmitChain (layout : QueueLayout) (head : U16) (s : VirtioNet × Ram) :
    Covered transmitChain layout head s := by
  refine covered_of_post fun chain hchain => post_get ?_
  rw [hchain]
  refine post_ite (fun _ => backed_zero chain s s) fun _ =>
    post_ite (fun _ => ?_) fun _ => backed_zero chain s s
  cases readSegments s.2 chain with
  | none => exact backed_zero chain s s
  | some bytes =>
    exact post_ite (fun _ => post_modify (backed_zero chain s _))
      fun _ => backed_zero chain s s

/-- A received frame is published with its header, all of which has been written. -/
theorem post_receiveChain {layout : QueueLayout} {head : U16} {s : VirtioNet × Ram}
    {chain : List Descriptor} (hchain : Virtqueue.collectChain s.2 layout head = some chain) :
    Post (receiveChain layout head) s (Backed chain s) (Backed chain s) := by
  refine post_get ?_
  rw [hchain]
  refine post_modify (post_ite (fun _ => backed_zero chain s _) fun _ => ?_)
  refine post_attempt ((post_writeSegments _ _ _).mono
    (fun _ t ht => ?_) fun _ t _ => backed_zero chain s t)
  have hflags : ∀ desc ∈ chain.filter fun desc => decide (desc.flags &&& DESC_F_WRITE ≠ 0),
      desc ∈ chain ∧ desc.flags &&& DESC_F_WRITE ≠ 0 := by
    intro desc hdesc
    have hmem := List.mem_filter.mp hdesc
    exact ⟨hmem.1, by simpa using hmem.2⟩
  refine post_modify ((ht.2.fills hflags _).backed ?_)
  exact Nat.mod_le _ _

theorem covered_deliverHandler (layout : QueueLayout) (head : U16) (s : VirtioNet × Ram) :
    Covered deliverHandler layout head s := by
  refine covered_of_post fun chain hchain => post_get ?_
  exact post_ite (fun _ => backed_retry chain s s)
    fun _ => post_receiveChain hchain

end VirtioNet

/-! ## Entropy -/

namespace VirtioEntropy

theorem covered_handler (layout : QueueLayout) (head : U16) (s : VirtioEntropy × Ram) :
    Covered handler layout head s := by
  refine covered_of_post fun chain hchain => (post_handler layout head s).mono ?_ ?_
  · rintro o t ⟨chain', n, hrequest, -, rfl, rfl, -, hspread⟩
    obtain ⟨hchain', hwell⟩ := Option.filter_eq_some_iff.1 hrequest
    obtain rfl : chain = chain' := Option.some.inj (hchain.symm.trans hchain')
    refine (hspread.fills (fun desc hdesc => ⟨hdesc, (wellFormed_spec hwell).1 desc hdesc⟩)
      t.1).backed ?_
    rw [BitVec.toNat_ofNat, List.length_take_of_le (Nat.min_le_right _ _)]
    exact Nat.mod_le _ _
  · rintro o t ⟨rfl, ⟨rfl, -⟩ | ⟨rfl, -⟩⟩
    · exact backed_skip chain t t
    · exact backed_retry chain t t

end VirtioEntropy

/-! ## Console -/

namespace VirtioConsole

theorem covered_processChain (queue : Fin 2) (layout : QueueLayout) (head : U16)
    (s : VirtioConsole × Ram) : Covered (processChain queue) layout head s := by
  refine covered_of_post fun chain hchain => post_get ?_
  rw [hchain]
  refine post_ite (fun _ => backed_skip chain s s) fun hwell => ?_
  refine post_ite (fun hqueue => ?_) fun _ => ?_
  · -- Receive: the count is what the loop writes.
    have hflags : ∀ desc ∈ chain, desc ∈ chain ∧ desc.flags &&& DESC_F_WRITE ≠ 0 := by
      intro desc hdesc
      simp only [wellFormed, hqueue, decide_true, not_or, not_not, Bool.and_eq_true,
        List.all_eq_true, decide_eq_true_eq, beq_iff_eq] at hwell
      exact ⟨hdesc, (hwell.1.2 desc hdesc).1.2⟩
    refine post_get (post_ite (fun _ => backed_retry chain s s) fun _ => ?_)
    refine post_bind ((post_receiveLoop chain _ s (Nat.min_le_left _ _)
      (Nat.min_le_right _ _)).mono (fun _ t ht => ?_) fun o t ho => ?_)
    · refine (ht.2.fills hflags t.1).backed ?_
      rw [BitVec.toNat_ofNat, List.length_take_of_le (Nat.min_le_right _ _)]
      exact Nat.mod_le _ _
    · rw [ho.1]
      exact backed_skip chain s t
  · -- Transmit publishes nothing but zero lengths.
    unfold Post transmit
    by_cases hroom : Virtqueue.totalLen chain ≤ CAPACITY - s.1.output.length
    · rw [dif_pos hroom]
      dsimp only
      cases (transmitLoop s.2 chain (Virtqueue.totalLen chain) s.1.output).1 with
      | true => exact backed_zero chain s _
      | false => exact backed_skip chain s _
    · rw [dif_neg hroom]
      exact backed_retry chain s s

end VirtioConsole

/-! ## Input -/

namespace VirtioInput

variable {kind : InputKind}

/-- An event fills its buffer. -/
theorem covered_fillEventBuffer (layout : QueueLayout) (head : U16) (s : VirtioInput kind × Ram) :
    Covered fillEventBuffer layout head s := by
  refine covered_of_post fun chain hchain => (post_fillEventBuffer layout head s).mono ?_ ?_
  · rintro o t ⟨rfl, -, event, rest, first, others, -, hchain', hflag, -, hspread⟩
    obtain rfl : chain = first :: others := Option.some.inj (hchain.symm.trans hchain')
    refine (hspread.fills (List.forall_mem_singleton.2 ⟨List.mem_cons_self, hflag⟩) t.1).backed ?_
    exact (length_toBytes event).ge
  · rintro o t ⟨rfl, rfl | rfl⟩
    · exact backed_skip chain t t
    · exact backed_retry chain t t

theorem covered_statusHandler (layout : QueueLayout) (head : U16) (s : VirtioInput kind × Ram) :
    Covered statusHandler layout head s := by
  refine covered_of_post fun chain hchain => post_get ?_
  rw [hchain]
  exact backed_zero chain s s

end VirtioInput

/-! ## Block -/

namespace VirtioBlock

variable {β : Type}

/-- A backend operation leaves RAM alone. -/
theorem post_onDevice {ε α : Type} (x : EStateM ε (VirtioBlock β) α) (s : VirtioBlock β × Ram) :
    Post (onDevice x) s (fun a t => t.2 = s.2 ∧ x s.1 = .ok a t.1)
      fun e t => t.2 = s.2 ∧ x s.1 = .error e t.1 := by
  unfold Post onDevice zoom
  cases hx : x s.1 with
  | ok a d | error e d => exact ⟨rfl, rfl⟩

variable [BlockBackend β]

/-- The device can carry out a write of these segments. -/
def AcceptsWrite (sector : U64) (segments : List Descriptor) (s : VirtioBlock β × Ram) : Prop :=
  (∀ desc ∈ segments, desc.flags &&& DESC_F_WRITE = 0) ∧
    s.1.validateTransfer s.2 sector (Virtqueue.totalLen segments) segments = true ∧
      ∃ bytes b b', copyRamToVec s.2 segments = .ok bytes ∧ s.1.backend = some b ∧
        BlockBackend.writeAt sector bytes b = .ok () b'

/-- A write succeeds exactly when it is acceptable, and touches no RAM. -/
theorem post_writeSegments (sector : U64) (segments : List Descriptor) (s : VirtioBlock β × Ram) :
    Post (writeSegments sector segments) s (fun _ t => AcceptsWrite sector segments s ∧ t.2 = s.2)
      fun _ _ => ¬ AcceptsWrite sector segments s := by
  refine post_get (post_ite (fun hany => ?_) fun hflags => post_ite
    (fun hvalid => ?_) fun hvalid => ?_)
  · intro haccepts
    obtain ⟨desc, hmem, hflag⟩ := List.any_eq_true.mp hany
    exact of_decide_eq_true hflag (haccepts.1 desc hmem)
  · exact fun haccepts => hvalid haccepts.2.1
  · have hreadable : ∀ desc ∈ segments, desc.flags &&& DESC_F_WRITE = 0 := by
      simpa using hflags
    cases hcopy : copyRamToVec s.2 segments with
    | error e =>
      rintro ⟨-, -, bytes, b, b', hbytes, -⟩
      exact nomatch hcopy.symm.trans hbytes
    | ok bytes =>
      refine (post_onDevice _ s).mono (fun _ t ht => ⟨?_, ht.1⟩) fun e t ht => ?_
      · refine ⟨hreadable, not_not.mp hvalid, bytes, ?_⟩
        have hrun := ht.2
        unfold backendMut at hrun
        cases hb : s.1.backend with
        | none =>
          rw [hb] at hrun
          cases hrun
        | some b =>
          rw [hb] at hrun
          cases hwrite : BlockBackend.writeAt sector bytes b with
          | ok _ b' => exact ⟨b, b', hcopy, rfl, hwrite⟩
          | error e b' =>
            simp only [hwrite] at hrun
            cases hrun
      · rintro ⟨-, -, bytes', b, b', hbytes, hb, hwrite⟩
        obtain rfl : bytes = bytes' := Except.ok.inj (hcopy.symm.trans hbytes)
        have hrun := ht.2
        simp only [backendMut, hb, hwrite] at hrun
        cases hrun

/-- A successful read fills its segments. -/
theorem post_readSegments {chain segments : List Descriptor}
    (hmem : ∀ desc ∈ segments, desc ∈ chain) (sector : U64) (s : VirtioBlock β × Ram) :
    Post (readSegments sector segments) s
      (fun _ t => Fills chain (Virtqueue.totalLen segments) s t) fun _ _ => True := by
  refine post_get (post_ite (fun _ => trivial) fun hflags => post_ite
    (fun _ => trivial) fun _ => ?_)
  have hwritable : ∀ desc ∈ segments, desc ∈ chain ∧ desc.flags &&& DESC_F_WRITE ≠ 0 := by
    have hall : ∀ desc ∈ segments, desc.flags &&& DESC_F_WRITE ≠ 0 := by
      simpa using hflags
    exact fun desc hdesc => ⟨hmem desc hdesc, hall desc hdesc⟩
  refine post_bind ((post_onDevice _ s).mono (fun data t ht => ?_) fun _ _ _ => trivial)
  refine (post_copySegments segments data.1 t data.2).mono (fun _ u hu => ?_) fun _ _ _ => trivial
  have hspread := hu.2
  rw [ht.1] at hspread
  rw [← data.2]
  exact hspread.fills hwritable u.1

/-- Of the requests that succeed, only an accepted write leaves its data segments unwritten. -/
theorem post_request {chain data : List Descriptor} (hmem : ∀ desc ∈ data, desc ∈ chain)
    (requestType : U32) (sector : U64) (s : VirtioBlock β × Ram) :
    Post (request requestType sector data) s
      (fun _ t => (requestType = BLK_T_OUT ∧ AcceptsWrite sector data s ∧ t.2 = s.2) ∨
        requestType ≠ BLK_T_OUT ∧ Fills chain (Virtqueue.totalLen data) s t)
      fun _ _ => ¬ (requestType = BLK_T_OUT ∧ AcceptsWrite sector data s) := by
  refine post_ite (fun hin => ?_) fun _ => post_ite (fun hout => ?_) fun hout => ?_
  · have hne : requestType ≠ BLK_T_OUT := by
      rw [hin]
      decide
    exact (post_readSegments hmem sector s).mono (fun _ _ ht => .inr ⟨hne, ht⟩)
      fun _ _ _ h => hne h.1
  · exact (post_writeSegments sector data s).mono (fun _ _ ht => .inl ⟨hout, ht⟩)
      fun _ _ ht h => ht h.2
  · refine post_ite (fun hflush => ?_) fun _ h => hout h.1
    refine (post_onDevice _ s).mono (fun _ t ht => .inr ⟨hout, ?_⟩) fun _ _ _ h => hout h.1
    -- A flush carries no data.
    rw [List.isEmpty_iff.mp hflush.2]
    exact ⟨by rw [ht.1], by rw [ht.1]; rfl⟩

def dataSegments (chain : List Descriptor) : List Descriptor :=
  chain.tail.dropLast

/-- A chain that is a write request which the device carries out. -/
def IsWrite (chain : List Descriptor) (s : VirtioBlock β × Ram) : Prop :=
  ∃ header next rest sector, chain = header :: next :: rest ∧
    (16 ≤ header.len ∧ header.flags &&& Virtqueue.DESC_F_NEXT ≠ 0 ∧
      header.flags &&& DESC_F_WRITE = 0 ∧
      Virtqueue.totalLen (dataSegments chain) ≤ MAX_REQUEST_BYTES ∧
        header.addr.toNat + 8 < 2 ^ 64) ∧
    Virtqueue.readU32 s.2 header.addr = some BLK_T_OUT ∧
      Virtqueue.readU64 s.2 (header.addr + 8) = some sector ∧
        AcceptsWrite sector (dataSegments chain) s

/-- What an executed request answers and has written. -/
theorem post_execute (chain : List Descriptor) (s : VirtioBlock β × Ram) :
    Post (execute chain) s
      (fun len t => len.toNat = Virtqueue.totalLen (dataSegments chain) ∧
        (IsWrite chain s ∧ t.2 = s.2 ∨
          ¬ IsWrite chain s ∧ Fills chain (Virtqueue.totalLen (dataSegments chain)) s t))
      fun _ _ => ¬ IsWrite chain s := by
  refine post_get ?_
  match chain with
  | [] =>
    rintro ⟨_, _, _, _, hchain, -⟩
    cases hchain
  | [_] =>
    rintro ⟨_, _, _, _, hchain, -⟩
    cases hchain
  | header :: next :: rest =>
    refine post_ite (fun hbad => ?_) fun hheader => ?_
    · rintro ⟨_, _, _, _, hchain, hheader, -⟩
      cases hchain
      simp only [← BitVec.not_le, ← Nat.not_lt, dataSegments, List.tail_cons] at hbad hheader
      tauto
    · simp only [not_or, not_not, BitVec.not_lt, Nat.not_lt, Nat.not_le] at hheader
      refine post_ofOption (fun requestType htype => ?_) fun hnone => ?_
      · refine post_ofOption (fun sector hsector => ?_) fun hnone => ?_
        · have hwrite : IsWrite (header :: next :: rest) s ↔
              requestType = BLK_T_OUT ∧ AcceptsWrite sector (next :: rest).dropLast s := by
            constructor
            · rintro ⟨_, _, _, sector', hchain, -, htype', hsector', haccepts⟩
              cases hchain
              cases Option.some.inj (hsector.symm.trans hsector')
              exact ⟨Option.some.inj (htype.symm.trans htype'), haccepts⟩
            · rintro ⟨rfl, haccepts⟩
              exact ⟨header, next, rest, sector, rfl, hheader, htype, hsector, haccepts⟩
          have hmem : ∀ desc ∈ (next :: rest).dropLast, desc ∈ header :: next :: rest :=
            fun desc hdesc => List.mem_cons_of_mem _ (List.mem_of_mem_dropLast hdesc)
          have hlen : (BitVec.ofNat 32 (Virtqueue.totalLen (next :: rest).dropLast)).toNat =
              Virtqueue.totalLen (next :: rest).dropLast := by
            have := hheader.2.2.2.1
            unfold MAX_REQUEST_BYTES at this
            rw [BitVec.toNat_ofNat]
            omega
          rw [hwrite]
          refine post_bind (post_mapError ((post_request hmem requestType sector
            s).mono (fun _ t ht => post_modify ⟨hlen, ?_⟩) fun _ _ h => h))
          rcases ht with ⟨hout, haccepts, hram⟩ | ⟨hout, hfills⟩
          · exact .inl ⟨⟨hout, haccepts⟩, hram⟩
          · exact .inr ⟨fun h => hout h.1, hfills.size, hfills.writes⟩
        · rintro ⟨_, _, _, _, hchain, -, -, hsector, -⟩
          cases hchain
          exact nomatch hnone.symm.trans hsector
      · rintro ⟨_, _, _, _, hchain, -, htype, -⟩
        cases hchain
        exact nomatch hnone.symm.trans htype

/-- A write of more than one byte whose status byte can be stored. -/
def LongWrite (layout : QueueLayout) (head : U16) (s : VirtioBlock β × Ram) : Prop :=
  ∃ chain status, Virtqueue.collectChain s.2 layout head = some chain ∧
    chain.getLast? = some status ∧
      (1 ≤ status.len ∧ status.flags &&& DESC_F_WRITE ≠ 0 ∧
        (Virtqueue.ramOffset s.2 status.addr 1).isSome) ∧
        IsWrite chain s ∧ 1 < Virtqueue.totalLen (dataSegments chain)

variable {layout : QueueLayout} {head : U16} {s : VirtioBlock β × Ram} {chain : List Descriptor}
  {status : Descriptor}

/-- The state between the request and its status byte, with the request's answer. -/
def Executed (chain : List Descriptor) (s : VirtioBlock β × Ram) (usedLen : Option U32)
    (t : VirtioBlock β × Ram) : Prop :=
  (IsWrite chain s ∧ t.2 = s.2 ∧
      (usedLen.getD 0).toNat = Virtqueue.totalLen (dataSegments chain)) ∨
    ¬ IsWrite chain s ∧ Backed chain s (.used (usedLen.getD 0)) t

/-- Storing the status byte settles whether the answer is backed. -/
theorem post_status (hchain : Virtqueue.collectChain s.2 layout head = some chain)
    (hstatus : chain.getLast? = some status) (hlen : 1 ≤ status.len)
    (hflag : status.flags &&& DESC_F_WRITE ≠ 0)
    (hram : (Virtqueue.ramOffset s.2 status.addr 1).isSome) (usedLen : Option U32)
    {t : VirtioBlock β × Ram} (hexec : Executed chain s usedLen t) :
    Post (ε := Unit) (do
        let s ← get
        let offset ← ofOption () (Virtqueue.ramOffset s.2 status.addr 1)
        Virtqueue.writeSlice () offset [if usedLen.isSome then 0 else 1]
        pure (usedLen.getD 0)) t
      (fun len u => Backed chain s (.used len) u ↔ ¬ LongWrite layout head s)
      fun _ _ => ¬ LongWrite layout head s := by
  have hlong : LongWrite layout head s ↔
      IsWrite chain s ∧ 1 < Virtqueue.totalLen (dataSegments chain) := by
    constructor
    · rintro ⟨chain', _, hchain', -, -, h⟩
      cases Option.some.inj (hchain.symm.trans hchain')
      exact h
    · exact fun h => ⟨chain, status, hchain, hstatus, ⟨hlen, hflag, hram⟩, h⟩
  rw [hlong]
  refine post_get (post_ofOption (fun offset hoffset => ?_) fun hnone => ?_)
  · refine post_bind (post_writeSlice hoffset le_rfl fun hfit => ?_)
    have hfills := fills_stored (List.mem_of_getLast? hstatus) hflag t.1 (.stored hfit) hlen
    generalize (t.1, t.2.stored _ _ hfit) = u at hfills ⊢
    rcases hexec with ⟨hwrite, hsame, hused⟩ | ⟨hwrite, hbacked⟩
    · have hone : writesInto chain u.2 = writesInto chain s.2 + 1 := by
        rw [hfills.writes, hsame]
        rfl
      constructor
      · intro hbacked h
        have := hbacked _ rfl
        omega
      · intro h len heq
        cases heq
        have hshort : Virtqueue.totalLen (dataSegments chain) ≤ 1 :=
          Nat.not_lt.mp fun hlong => h ⟨hwrite, hlong⟩
        omega
    · exact iff_of_true (hbacked.fills hfills) fun h => hwrite h.1
  · rintro ⟨hwrite, -⟩
    rcases hexec with ⟨-, hsame, -⟩ | ⟨hnot, -⟩
    · rw [hsame] at hnone
      simp [hnone] at hram
    · exact hnot hwrite

theorem post_processChain (hchain : Virtqueue.collectChain s.2 layout head = some chain) :
    Post (processChain layout head) s
      (fun len u => Backed chain s (.used len) u ↔ ¬ LongWrite layout head s)
      fun _ _ => ¬ LongWrite layout head s := by
  refine post_get ?_
  rw [hchain]
  refine post_ofOption (o := some chain) (fun _ h => ?_) fun h => nomatch h
  cases h
  refine post_ofOption (fun status hstatus => post_ite (fun hbad => ?_)
    fun hgood => ?_) fun hnone => ?_
  · rintro ⟨_, _, hchain', hstatus', hgood, -⟩
    cases Option.some.inj (hchain.symm.trans hchain')
    cases Option.some.inj (hstatus.symm.trans hstatus')
    simp only [← BitVec.not_le, Option.isNone_iff_eq_none, Option.isSome_iff_ne_none] at hbad hgood
    tauto
  · simp only [not_or, BitVec.not_lt, Bool.not_eq_true, Option.isNone_eq_false_iff] at hgood
    obtain ⟨hlen, hflag, hram⟩ := hgood
    refine post_attempt ((post_execute chain s).mono (fun len t ht => ?_) fun _ t ht => ?_)
    · refine post_status hchain hstatus hlen hflag hram (some len) ?_
      rcases ht with ⟨hused, ⟨hwrite, hsame⟩ | ⟨hwrite, hfills⟩⟩
      · exact .inl ⟨hwrite, hsame, hused⟩
      · exact .inr ⟨hwrite, hfills.backed hused.le⟩
    · exact post_status hchain hstatus hlen hflag hram none
        (.inr ⟨ht, backed_zero chain s t⟩)
  · rintro ⟨_, _, hchain', hstatus', -⟩
    cases Option.some.inj (hchain.symm.trans hchain')
    exact nomatch hnone.symm.trans hstatus'

/-- The block device over-publishes exactly the long writes. -/
theorem covered_handler_iff (layout : QueueLayout) (head : U16) (s : VirtioBlock β × Ram) :
    Covered handler layout head s ↔ ¬ LongWrite layout head s := by
  cases hchain : Virtqueue.collectChain s.2 layout head with
  | none =>
    refine iff_of_true (fun _ _ _ h => nomatch hchain.symm.trans h) ?_
    rintro ⟨_, _, h, -⟩
    exact nomatch hchain.symm.trans h
  | some chain =>
    rw [covered_iff_post hchain]
    refine Post.iff (post_attempt ((post_processChain hchain).mono
      (fun _ _ h => h) fun _ t h => ?_))
    exact iff_of_true (backed_skip chain s t) h

/-- Published lengths are covered on every queue of every device, long block writes apart. -/
theorem published_covered_iff (layout : QueueLayout) (head : U16) :
    (∀ s, Covered VirtioNet.transmitChain layout head s) ∧
      (∀ s, Covered VirtioNet.deliverHandler layout head s) ∧
      (∀ s, Covered VirtioEntropy.handler layout head s) ∧
      (∀ queue s, Covered (VirtioConsole.processChain queue) layout head s) ∧
      (∀ (kind : InputKind) (s : VirtioInput kind × Ram),
        Covered VirtioInput.fillEventBuffer layout head s ∧
          Covered VirtioInput.statusHandler layout head s) ∧
      ∀ s : VirtioBlock β × Ram, Covered handler layout head s ↔ ¬ LongWrite layout head s :=
  ⟨VirtioNet.covered_transmitChain layout head, VirtioNet.covered_deliverHandler layout head,
    VirtioEntropy.covered_handler layout head,
    fun queue => VirtioConsole.covered_processChain queue layout head,
    fun _ s => ⟨VirtioInput.covered_fillEventBuffer layout head s,
      VirtioInput.covered_statusHandler layout head s⟩,
    covered_handler_iff layout head⟩

/-- Header, two bytes of data, status. -/
def writeChain : List Descriptor :=
  [{ addr := DRAM_BASE + 48, len := 16, flags := Virtqueue.DESC_F_NEXT, next := 1 },
    { addr := DRAM_BASE + 64, len := 2, flags := Virtqueue.DESC_F_NEXT, next := 2 },
    { addr := DRAM_BASE + 66, len := 1, flags := DESC_F_WRITE, next := 0 }]

def writeRam : Ram :=
  .ofBytes (writeChain.flatMap descriptorBytes ++ Writer.u32 BLK_T_OUT ++ Writer.u32 0 ++
    Writer.u64 0 ++ [7, 7] ++ [0]) (by decide)

def writeLayout : QueueLayout :=
  { desc := DRAM_BASE, num := 4 }

def writeDisk : VirtioBlock MemBackend :=
  new.setBackend ⟨List.replicate 512 0⟩

/-- A two-byte write is published with length two; only the status byte is written. -/
theorem not_covered_write : ¬ Covered handler writeLayout 0 (writeDisk, writeRam) := by
  intro h
  have hused : (Virtqueue.callOf handler writeLayout 0 (writeDisk, writeRam)).outcome =
      .used 2 := by
    decide +kernel
  have hchain : Virtqueue.collectChain writeRam writeLayout 0 = some writeChain := by
    decide +kernel
  have hwritten : writesInto writeChain
      (Virtqueue.callOf handler writeLayout 0 (writeDisk, writeRam)).after.2 -
        writesInto writeChain (writeDisk, writeRam).2 = 1 := by
    decide +kernel
  exact absurd ((h 2 writeChain hused hchain).trans hwritten.le) (by decide)

end VirtioBlock

end EmulateComputer
