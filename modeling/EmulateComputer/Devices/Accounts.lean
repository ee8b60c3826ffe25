import EmulateComputer.Devices.Scatter

/-!
# Accounts — what devices hand to the guest over whole runs

A run is kept with its history: what the host put in, and every drain with the state it found.
What the guest has received is read from RAM, call by call; followed by what still waits, it is
what the host put in.
-/

namespace EmulateComputer

open Effect

namespace Virtqueue

variable {δ α : Type}

/-- A drain, by the queue and the state it started from. -/
structure Drain (δ : Type) where
  queue : Queue
  before : δ × Ram

def Drain.calls (d : Drain δ) (handler : Handler δ) : List (Call δ) :=
  Virtqueue.calls handler d.queue d.before

def Drain.chain (d : Drain δ) (c : Call δ) : List Descriptor :=
  (collectChain c.before.2 d.queue.layout c.head).getD []

def Drain.bytes (d : Drain δ) (c : Call δ) : List U8 :=
  match c.outcome with
  | .used len => (Spans.gather c.after.2.data (spans (d.chain c))).take len.toNat
  | _ => []

/-- The guest's buffers overlap neither the rings nor each other. -/
structure Drain.Clear (d : Drain δ) (handler : Handler δ) : Prop where
  rings : ∀ c ∈ d.calls handler, c.LeavesRings d.queue
  apart : ∀ c ∈ d.calls handler, Spans.Apart (spans (d.chain c))

variable {handler : Handler δ} {d : Drain δ}

/-- Whether the queue of `sampleRam` leaves its rings alone can be checked. -/
theorem Drain.clear_of_sample (hqueue : d.queue = sampleQueue)
    (h : ∀ c ∈ d.calls handler, c.after.2.size = c.before.2.size ∧ (d.chain c).length ≤ 1 ∧
      ∀ i < 116, 64 ≤ i → c.after.2.data i = c.before.2.data i) : d.Clear handler := by
  refine ⟨fun c hc => ⟨(h c hc).1, fun i hi => (h c hc).2.2 i ?_ ?_⟩, fun c hc => ?_⟩
  · rw [hqueue] at hi
    rcases hi with hi | hi <;> exact Nat.lt_of_lt_of_le hi.2 (by decide)
  · rw [hqueue] at hi
    rcases hi with hi | hi <;> exact Nat.le_trans (by decide) hi.1
  · have hlength := (h c hc).2.1
    rcases hchain : d.chain c with _ | ⟨desc, _ | ⟨next, rest⟩⟩
    · exact .nil
    · exact List.pairwise_singleton _ _
    · simp [hchain] at hlength

/-- Every used chain is published, and a retry leaves its head available. -/
def Drain.Served (d : Drain δ) (handler : Handler δ) : Prop :=
  Accepted d.queue d.before.2 → ∃ idx, availIdx d.queue d.before.2 = some idx ∧
    Drained handler d.queue idx d.queue.lastAvailIdx false d.before (d.calls handler)
      (drain handler d.queue d.before)

theorem Drain.Clear.served (h : d.Clear handler) : d.Served handler := by
  intro haccepted
  obtain ⟨idx, hidx, -, hdrained⟩ := drain_drained handler d.queue d.before haccepted h.rings
  exact ⟨idx, hidx, hdrained⟩

/-- The first call of a drain that has not caught up is of the head at its position. -/
theorem Serves.first {q : Queue} {availIdx idx idx' : U16} {s t : δ × Ram}
    {cs : List (Call δ)} (h : Serves handler q availIdx idx s cs idx' t) (hne : idx ≠ availIdx) :
    ∃ c cs', cs = c :: cs' ∧ Handles handler q idx s c := by
  cases h with
  | done => exact absurd rfl hne
  | retry _ hc _ | skip _ hc _ _ | used _ hc _ _ _ => exact ⟨_, _, rfl, hc⟩

section Ledger

variable {waiting : δ → List α} {moved : Drain δ → Call δ → List α}

/-- What the drains have moved to the guest. -/
def delivered (handler : Handler δ) (moved : Drain δ → Call δ → List α) (drains : List (Drain δ)) :
    List α :=
  drains.flatMap fun d => (d.calls handler).flatMap (moved d)

/-- What was delivered and what still waits is, in order, what was put in, but for what is
`lost`. -/
structure Ledger (handler : Handler δ) (waiting : δ → List α) (moved : Drain δ → Call δ → List α)
    (items lost : List α) (drains : List (Drain δ)) (t : δ) : Prop where
  inOrder : (delivered handler moved drains ++ waiting t).Sublist items
  missing : (delivered handler moved drains ++ waiting t ++ lost).Perm items
  served : ∀ d ∈ drains, d.Served handler

variable {items lost : List α} {drains : List (Drain δ)} {t t' : δ}

theorem ledger_nil (h : waiting t = []) : Ledger handler waiting moved [] [] [] t :=
  ⟨by rw [h]; exact List.Sublist.refl _, by rw [h]; exact .nil, by simp⟩

theorem Ledger.congr (h : Ledger handler waiting moved items lost drains t)
    (ht : waiting t' = waiting t) : Ledger handler waiting moved items lost drains t' :=
  ⟨by rw [ht]; exact h.inOrder, by rw [ht]; exact h.missing, h.served⟩

/-- New items arrive, and old ones may be pushed out. -/
theorem Ledger.put {new gone : List α} (h : Ledger handler waiting moved items lost drains t)
    (ht : waiting t ++ new = gone ++ waiting t') :
    Ledger handler waiting moved (items ++ new) (lost ++ gone) drains t' := by
  have hpart : (waiting t').Sublist (waiting t ++ new) := ht ▸ List.sublist_append_right _ _
  refine ⟨?_, ?_, h.served⟩
  · refine (hpart.append_left _).trans ?_
    rw [← List.append_assoc]
    exact h.inOrder.append_right new
  · have hgone : (waiting t' ++ (lost ++ gone)).Perm (waiting t ++ lost ++ new) := by
      calc List.Perm _ (waiting t' ++ (gone ++ lost)) := List.perm_append_comm.append_left _
        List.Perm _ (gone ++ (waiting t' ++ lost)) := List.perm_append_comm_assoc _ _ _
        _ = waiting t ++ (new ++ lost) := by rw [← List.append_assoc, ← ht, List.append_assoc]
        List.Perm _ (waiting t ++ (lost ++ new)) := List.perm_append_comm.append_left _
        _ = waiting t ++ lost ++ new := (List.append_assoc _ _ _).symm
    rw [List.append_assoc]
    refine (hgone.append_left _).trans ?_
    rw [← List.append_assoc, ← List.append_assoc]
    exact h.missing.append_right new

/-- What each call moves from the device, a whole drain moves. -/
theorem Ledger.drain (h : Ledger handler waiting moved items lost drains d.before.1)
    (hclear : d.Clear handler)
    (hstep : ∀ head s, Spans.Apart (spans (d.chain (callOf handler d.queue.layout head s))) →
      waiting s.1 = moved d (callOf handler d.queue.layout head s) ++
        waiting (callOf handler d.queue.layout head s).after.1) :
    Ledger handler waiting moved items lost (drains ++ [d])
      (drain handler d.queue d.before).2.1 := by
  have hmoved : waiting d.before.1 = (d.calls handler).flatMap (moved d) ++
      waiting (Virtqueue.drain handler d.queue d.before).2.1 := by
    refine calls_rule (P := fun log t => (∀ c ∈ log, Spans.Apart (spans (d.chain c))) →
      waiting d.before.1 = log.flatMap (moved d) ++ waiting t) (fun _ => rfl) ?_ hclear.apart
    intro log t ram head ih hlog
    rw [List.forall_mem_append, List.forall_mem_singleton] at hlog
    rw [ih hlog.1, hstep head (t, ram) hlog.2, List.flatMap_append, List.flatMap_singleton,
      List.append_assoc]
  have hall : delivered handler moved (drains ++ [d]) ++
      waiting (Virtqueue.drain handler d.queue d.before).2.1 =
        delivered handler moved drains ++ waiting d.before.1 := by
    rw [hmoved, delivered, List.flatMap_append, List.flatMap_singleton, List.append_assoc]
    rfl
  refine ⟨hall ▸ h.inOrder, hall ▸ h.missing, ?_⟩
  rw [List.forall_mem_append, List.forall_mem_singleton]
  exact ⟨h.served, hclear.served⟩

/-- Without losses nothing is missing. -/
theorem Ledger.conserved (h : Ledger handler waiting moved items [] drains t) :
    delivered handler moved drains ++ waiting t = items :=
  h.inOrder.eq_of_length (by simpa using h.missing.length_eq)

end Ledger

/-- A chain published with the length of the data spread over it holds that data. -/
theorem Drain.bytes_of_spread {c : Call δ} {chain : List Descriptor} {data : List U8}
    (hchain : collectChain c.before.2 d.queue.layout c.head = some chain)
    (hapart : Spans.Apart (spans (d.chain c)))
    (hused : c.outcome = .used (BitVec.ofNat 32 data.length))
    (hspread : Spread chain data c.before.2 c.after.2) (hfit : data.length ≤ totalLen chain)
    (hlt : data.length < 2 ^ 32) : d.bytes c = data := by
  have heq : d.chain c = chain := by
    unfold Drain.chain
    rw [hchain, Option.getD_some]
  rw [heq] at hapart
  simp only [Drain.bytes, hused, heq]
  rw [hspread.data_eq, Spans.gather_scatter hapart (by rwa [total_spans]),
    BitVec.toNat_ofNat, Nat.mod_eq_of_lt hlt, List.take_left]

end Virtqueue

open Virtqueue

namespace VirtioEntropy

theorem callOf_cases (layout : QueueLayout) (head : U16) (s : VirtioEntropy × Ram) :
    (∃ chain n, request layout head s.2 = some chain ∧ s.1.entropy ≠ [] ∧
      n = min (totalLen chain) s.1.entropy.length ∧
        (callOf handler layout head s).outcome = .used (BitVec.ofNat 32 n) ∧
          (callOf handler layout head s).after.1.entropy = s.1.entropy.drop n ∧
            Spread chain (s.1.entropy.take n) s.2 (callOf handler layout head s).after.2) ∨
      (callOf handler layout head s).after = s ∧
        ((callOf handler layout head s).outcome = .skip ∧ request layout head s.2 = none ∨
          (callOf handler layout head s).outcome = .retry ∧ s.1.entropy = [] ∧
            ∃ chain, request layout head s.2 = some chain) :=
  callOf_post (post_handler layout head s)

theorem request_spec {layout : QueueLayout} {head : U16} {ram : Ram} {chain : List Descriptor}
    (h : request layout head ram = some chain) :
    collectChain ram layout head = some chain ∧ wellFormed ram chain = true :=
  Option.filter_eq_some_iff.1 h

/-- The reservoir loses the bytes that a call puts into its chain. -/
theorem entropy_callOf (d : Drain VirtioEntropy) (head : U16) (s : VirtioEntropy × Ram)
    (hapart : Spans.Apart (spans (d.chain (callOf handler d.queue.layout head s)))) :
    s.1.entropy = d.bytes (callOf handler d.queue.layout head s) ++
      (callOf handler d.queue.layout head s).after.1.entropy := by
  rcases callOf_cases d.queue.layout head s with
    ⟨chain, n, hrequest, -, hn, hused, hafter, hspread⟩ | ⟨hafter, hcase⟩
  · obtain ⟨hchain, hwell⟩ := request_spec hrequest
    have hmax := (wellFormed_spec hwell).2.2.2
    unfold MAX_REQUEST_BYTES at hmax
    have hlen : (s.1.entropy.take n).length = n := by
      rw [List.length_take]
      omega
    have hbytes : d.bytes (callOf handler d.queue.layout head s) = s.1.entropy.take n :=
      Drain.bytes_of_spread hchain hapart (by rw [hused, hlen]) hspread (by omega) (by omega)
    rw [hbytes, hafter]
    exact (List.take_append_drop n _).symm
  · have hnone : d.bytes (callOf handler d.queue.layout head s) = [] := by
      unfold Drain.bytes
      rcases hcase with ⟨hskip, -⟩ | ⟨hretry, -⟩
      · rw [hskip]
      · rw [hretry]
    rw [hnone, hafter]
    rfl

def drainOf (s : VirtioEntropy × Ram) : Drain VirtioEntropy :=
  ⟨s.1.transport.queues 0, s⟩

def filled (bytes : List U8) (s : VirtioEntropy × Ram) : VirtioEntropy × Ram :=
  ({ s.1 with
    entropy := s.1.entropy ++ bytes.take (addEntropy bytes s).1
    entropy_le := by
      have := s.1.entropy_le
      rw [List.length_append, List.length_take]
      simp only [addEntropy, entropyNeeded, ENTROPY_CAPACITY]
      omega }, s.2)

/-- The drain of a register write, if it notifies the queue. -/
def writeDrains (offset val : U64) (s : VirtioEntropy × Ram) : List (Drain VirtioEntropy) :=
  if (s.1.transport.write offset (val.setWidth 32)).1 = .notify 0 then
    [drainOf ({ s.1 with transport := (s.1.transport.write offset (val.setWidth 32)).2 }, s.2)]
  else []

/-- Runs, with the bytes accepted from the host and the drains made so far. -/
inductive Runs : List U8 → List (Drain VirtioEntropy) → VirtioEntropy × Ram → Prop
  | start (untilWrap : Nat) (transport : Transport 1 8) (ram : Ram) :
      Runs [] [] ({ entropy := [], untilWrap, transport, entropy_le := Nat.zero_le _ }, ram)
  /-- The buffer may be moved, to wrap anywhere. -/
  | move {accepted drains s} (h : Runs accepted drains s) (untilWrap : Nat) :
      Runs accepted drains ({ s.1 with untilWrap }, s.2)
  | add {accepted drains s} (h : Runs accepted drains s) (bytes : List U8)
      (hclear : (drainOf (filled bytes s)).Clear handler) :
      Runs (accepted ++ bytes.take (addEntropy bytes s).1) (drains ++ [drainOf (filled bytes s)])
        (addEntropy bytes s).2
  | write {accepted drains s t} (h : Runs accepted drains s) {offset val : U64} {size : Nat}
      (hclear : ∀ d ∈ writeDrains offset val s, d.Clear handler)
      (hwrite : write offset val size s = .ok () t) :
      Runs accepted (drains ++ writeDrains offset val s) t
  /-- The guest and the other devices write RAM as they like. -/
  | memory {accepted drains s} (h : Runs accepted drains s) (ram : Ram) :
      Runs accepted drains (s.1, ram)

/-- What a call does with the request at its head. -/
structure Fair (d : Drain VirtioEntropy) (c : Call VirtioEntropy) : Prop where
  /-- A completed request gets at least one byte and no more than it has room for. -/
  completed : ∀ len, c.outcome = .used len → 1 ≤ len.toNat ∧ len.toNat ≤ totalLen (d.chain c)
  malformed : request d.queue.layout c.head c.before.2 = none → c.outcome = .skip ∧
    c.after = c.before
  /-- Otherwise only a lack of entropy keeps a request from being completed. -/
  waits : ∀ chain, request d.queue.layout c.head c.before.2 = some chain →
    (∃ len, c.outcome = .used len) ∨
      c.outcome = .retry ∧ c.before.1.entropy = [] ∧ c.after = c.before

theorem fair_callOf (d : Drain VirtioEntropy) (head : U16) (s : VirtioEntropy × Ram) :
    Fair d (callOf handler d.queue.layout head s) := by
  have hbefore : (callOf handler d.queue.layout head s).before = s := rfl
  have hhead : (callOf handler d.queue.layout head s).head = head := rfl
  rcases callOf_cases d.queue.layout head s with
    ⟨chain, n, hrequest, hsome, hn, hused, -⟩ | ⟨hafter, hcase⟩
  · obtain ⟨hchain, hwell⟩ := request_spec hrequest
    obtain ⟨-, -, hmin, hmax⟩ := wellFormed_spec hwell
    unfold MAX_REQUEST_BYTES at hmax
    have hpos : 0 < s.1.entropy.length := List.length_pos_iff.2 hsome
    refine ⟨fun len hlen => ?_, fun hnone => ?_, fun _ _ => .inl ⟨_, hused⟩⟩
    · cases hused.symm.trans hlen
      rw [Drain.chain, hbefore, hhead, hchain, Option.getD_some, BitVec.toNat_ofNat,
        Nat.mod_eq_of_lt (by omega)]
      omega
    · exact nomatch hrequest.symm.trans hnone
  · rcases hcase with ⟨hskip, hnone⟩ | ⟨hretry, hempty, chain, hrequest⟩
    · exact ⟨fun len hlen => (nomatch hskip.symm.trans hlen), fun _ => ⟨hskip, hafter⟩,
        fun chain hsome => (nomatch hnone.symm.trans hsome)⟩
    · exact ⟨fun len hlen => (nomatch hretry.symm.trans hlen),
        fun hnone => (nomatch hrequest.symm.trans hnone),
        fun _ _ => .inr ⟨hretry, hempty, hafter⟩⟩

/-- A request waiting at the queue's position is the first one that a refill completes. -/
theorem completed_of_refill {s : VirtioEntropy × Ram} {bytes : List U8} {idx head : U16}
    {chain : List Descriptor} (hbytes : bytes ≠ [])
    (haccepted : Accepted (s.1.transport.queues 0) s.2)
    (hidx : availIdx (s.1.transport.queues 0) s.2 = some idx)
    (hne : (s.1.transport.queues 0).lastAvailIdx ≠ idx)
    (hhead : availEntry (s.1.transport.queues 0) s.2 (s.1.transport.queues 0).lastAvailIdx =
      some head) (hrequest : request (s.1.transport.queues 0).layout head s.2 = some chain)
    (hclear : (drainOf (filled bytes s)).Clear handler) :
    ∃ c cs len, (drainOf (filled bytes s)).calls handler = c :: cs ∧ c.head = head ∧
      c.outcome = .used len := by
  obtain ⟨idx', hidx', hdrained⟩ := hclear.served haccepted
  obtain rfl : idx = idx' := Option.some.inj (hidx.symm.trans hidx')
  have hsome : (filled bytes s).1.entropy ≠ [] := by
    intro hnil
    obtain ⟨hold, hnew⟩ := List.append_eq_nil_iff.1 hnil
    have hlen : 0 < bytes.length := List.length_pos_iff.2 hbytes
    have hnone := congrArg List.length hnew
    simp only [List.length_take, List.length_nil, addEntropy, entropyNeeded, hold,
      ENTROPY_CAPACITY] at hnone
    omega
  obtain ⟨c, cs, hcalls, hc⟩ := hdrained.serves.first hne
  obtain rfl : head = c.head := Option.some.inj (hhead.symm.trans hc.head)
  -- The call was given this head with entropy to hand out.
  have hfair := fair_callOf (drainOf (filled bytes s)) c.head (filled bytes s)
  have hused := (hfair.waits chain hrequest).resolve_right fun h => hsome h.2.1
  obtain ⟨len, hlen⟩ := hused
  exact ⟨c, cs, len, hcalls, rfl, hc.call ▸ hlen⟩

structure Balanced (accepted : List U8) (drains : List (Drain VirtioEntropy))
    (s : VirtioEntropy × Ram) : Prop where
  /-- Each accepted byte has been handed out once, in order, or is still there. -/
  conserved : (drains.flatMap fun d => (d.calls handler).flatMap d.bytes) ++ s.1.entropy = accepted
  fair : ∀ d ∈ drains, ∀ c ∈ d.calls handler, Fair d c
  served : ∀ d ∈ drains, d.Served handler
  bounded : s.1.entropy.length ≤ ENTROPY_CAPACITY

theorem ledger_of_runs {accepted : List U8} {drains : List (Drain VirtioEntropy)}
    {s : VirtioEntropy × Ram} (h : Runs accepted drains s) :
    Ledger handler entropy Drain.bytes accepted [] drains s.1 := by
  have hdrain : ∀ {accepted drains} {s : VirtioEntropy × Ram},
      Ledger handler entropy Drain.bytes accepted [] drains s.1 → (drainOf s).Clear handler →
      Ledger handler entropy Drain.bytes accepted [] (drains ++ [drainOf s]) (processQueue s).1 :=
    fun {_ _ s} h hclear =>
      (Ledger.drain (d := drainOf s) h hclear (entropy_callOf (drainOf s))).congr rfl
  induction h with
  | start untilWrap transport ram => exact ledger_nil rfl
  | move _ untilWrap ih => exact ih.congr rfl
  | @add accepted drains s _ bytes hclear ih =>
    have hfilled : Ledger handler entropy Drain.bytes _ [] drains (filled bytes s).1 :=
      ih.put (show s.1.entropy ++ _ = [] ++ (filled bytes s).1.entropy from rfl)
    exact hdrain hfilled hclear
  | @write accepted drains s t _ offset val size hclear hwrite ih =>
    simp only [VirtioEntropy.write] at hwrite
    unfold writeDrains at hclear ⊢
    split at hwrite
    · cases hwrite
    · split at hwrite
      · next hnotify =>
        rw [if_pos hnotify] at hclear ⊢
        cases hwrite
        exact hdrain (ih.congr rfl) (hclear _ (List.mem_singleton_self _))
      · next hquiet =>
        rw [if_neg hquiet, List.append_nil]
        cases hwrite
        exact ih.congr rfl
  | memory _ ram ih => exact ih

/-- A device whose buffer wraps behind the first byte, for the queue of `sampleRam`. -/
def waitingGuest : VirtioEntropy × Ram :=
  ({ new with
    untilWrap := 1
    transport := { new.transport with queues := fun _ => sampleQueue } }, sampleRam DESC_F_WRITE)

end VirtioEntropy

end EmulateComputer
