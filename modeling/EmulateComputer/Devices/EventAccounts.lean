import EmulateComputer.Devices.Accounts

/-!
# EventAccounts — what becomes of input events

Between resets every queued event is delivered, waits, or was the oldest of a full backlog.
-/

namespace EmulateComputer

open Effect Virtqueue

namespace VirtioInput

variable {kind : InputKind}

def backlog (d : VirtioInput kind) : List (List U8) :=
  d.pending.map InputEvent.toBytes

def sent (d : Drain (VirtioInput kind)) (c : Call (VirtioInput kind)) : List (List U8) :=
  match c.outcome with
  | .used _ => [d.bytes c]
  | _ => []

/-- What one call does with the backlog. -/
structure Delivers (d : Drain (VirtioInput kind)) (c : Call (VirtioInput kind)) : Prop where
  backlog : Spans.Apart (spans (d.chain c)) → c.before.1.backlog = sent d c ++ c.after.1.backlog
  dropped : c.after.1.dropped = c.before.1.dropped
  unusable : (∀ len, c.outcome ≠ .used len) → c.after = c.before

theorem delivers_callOf (d : Drain (VirtioInput kind)) (head : U16) (s : VirtioInput kind × Ram) :
    Delivers d (callOf fillEventBuffer d.queue.layout head s) := by
  have hbefore : (callOf fillEventBuffer d.queue.layout head s).before = s := rfl
  rcases callOf_post (post_fillEventBuffer d.queue.layout head s) with
    ⟨hused, hafter, event, rest, first, others, hpending, hchain, -, hlen, hspread⟩ |
      ⟨hafter, hcase⟩
  · refine ⟨fun hapart => ?_, by rw [hafter]; rfl, fun h => absurd hused (h _)⟩
    have hroom : event.toBytes.length ≤ totalLen [first] := by
      exact hlen
    have hbytes : d.bytes (callOf fillEventBuffer d.queue.layout head s) = event.toBytes := by
      refine Drain.bytes_of_spread hchain hapart ?_ (hspread.append hroom others) ?_ ?_
      · rw [hused, length_toBytes]
        rfl
      · exact hroom.trans (by simp [totalLen])
      · rw [length_toBytes]
        decide
    rw [sent, hused, hbytes, VirtioInput.backlog, VirtioInput.backlog, hafter, hbefore, hpending]
    simp [popPending, hpending]
  · have hnone : sent d (callOf fillEventBuffer d.queue.layout head s) = [] := by
      unfold sent
      rcases hcase with hskip | hretry
      · rw [hskip]
      · rw [hretry]
    exact ⟨fun _ => by rw [hnone, hafter, hbefore]; rfl, by rw [hafter, hbefore],
      fun _ => by rw [hafter, hbefore]⟩

def eventDrains (s : VirtioInput kind × Ram) : List (Drain (VirtioInput kind)) :=
  if s.1.pending.isEmpty then [] else [⟨s.1.transport.queues QUEUE_EVENT, s⟩]

/-- The device after a register write, before any queue is processed. -/
def written (offset val : U64) (s : VirtioInput kind × Ram) : VirtioInput kind × Ram :=
  ({ s.1 with transport := (s.1.transport.write offset (val.setWidth 32)).2 }, s.2)

def writeDrains (offset val : U64) (s : VirtioInput kind × Ram) : List (Drain (VirtioInput kind)) :=
  if offset < CONFIG_BASE ∧ (s.1.transport.write offset (val.setWidth 32)).1 = .notify 0 then
    eventDrains (written offset val s)
  else []

/-- What a new event pushes out: the oldest one of a full backlog. -/
def pushedOut (d : VirtioInput kind) : List InputEvent :=
  if d.pending.length = MAX_PENDING_EVENTS then d.pending.take 1 else []

/-- Runs between resets, from a device whose counter stands at `base`: the events queued, those
lost with the device that lost them, and the drains made so far. -/
inductive Runs (base : U64) : List InputEvent → List (InputEvent × VirtioInput kind) →
    List (Drain (VirtioInput kind)) → VirtioInput kind × Ram → Prop
  | start {d : VirtioInput kind} (hpending : d.pending = []) (hbase : d.dropped = base)
      (ram : Ram) :
      Runs base [] [] [] (d, ram)
  | queueEvent {queued lost drains s} (h : Runs base queued lost drains s) (event : InputEvent) :
      Runs base (queued ++ [event]) (lost ++ s.1.pushedOut.map (·, s.1)) drains
        (s.1.queueEvent event, s.2)
  /-- The second half of `flush`, after its report has been queued. -/
  | process {queued lost drains s} (h : Runs base queued lost drains s)
      (hclear : ∀ d ∈ eventDrains s, d.Clear fillEventBuffer) :
      Runs base queued lost (drains ++ eventDrains s) (processEventQueue s)
  | write {queued lost drains s t} (h : Runs base queued lost drains s) {offset val : U64}
      {size : Nat} (hclear : ∀ d ∈ writeDrains offset val s, d.Clear fillEventBuffer)
      (hreset : offset < CONFIG_BASE → (s.1.transport.write offset (val.setWidth 32)).1 ≠ .reset)
      (hwrite : write offset val size s = .ok () t) :
      Runs base queued lost (drains ++ writeDrains offset val s) t
  /-- The guest and the other devices write RAM as they like. -/
  | memory {queued lost drains s} (h : Runs base queued lost drains s) (ram : Ram) :
      Runs base queued lost drains (s.1, ram)

/-- The accounts of a run: what was delivered and what waits is part of what was queued, in order,
and the lost events are exactly those missing. -/
structure Kept (base : U64) (queued : List InputEvent) (lost : List (InputEvent × VirtioInput kind))
    (drains : List (Drain (VirtioInput kind))) (d : VirtioInput kind) : Prop extends
    Ledger fillEventBuffer backlog sent (queued.map InputEvent.toBytes)
      (lost.map fun p => p.1.toBytes) drains d where
  counter : d.dropped = base + BitVec.ofNat 64 lost.length
  /-- Only the oldest event of a full backlog is lost. -/
  oldest : ∀ p ∈ lost, p.2.pending.length = MAX_PENDING_EVENTS ∧ p.2.pending.head? = some p.1
  unusable : ∀ d ∈ drains, ∀ c ∈ d.calls fillEventBuffer,
    (∀ len, c.outcome ≠ .used len) → c.after = c.before
  bounded : d.pending.length ≤ MAX_PENDING_EVENTS

/-- A new event pushes out at most the oldest one, which is counted. -/
theorem queueEvent_spec (d : VirtioInput kind) (event : InputEvent) :
    d.pending ++ [event] = d.pushedOut ++ (d.queueEvent event).pending ∧
      (d.queueEvent event).dropped = d.dropped + BitVec.ofNat 64 d.pushedOut.length := by
  unfold queueEvent pushedOut
  by_cases hfull : MAX_PENDING_EVENTS ≤ d.pending.length
  · have hlen : d.pending.length = MAX_PENDING_EVENTS := Nat.le_antisymm d.pending_le hfull
    obtain ⟨oldest, rest, hpending⟩ := List.exists_cons_of_length_pos
      (Nat.lt_of_lt_of_le (by decide : 0 < MAX_PENDING_EVENTS) hfull)
    rw [dif_pos hfull, if_pos hlen]
    change d.pending ++ [event] = d.pending.take 1 ++ (d.pending.tail ++ [event]) ∧
      d.dropped + 1 = _
    rw [hpending]
    exact ⟨rfl, rfl⟩
  · rw [dif_neg hfull, if_neg fun h => hfull h.ge]
    exact ⟨rfl, (BitVec.add_zero _).symm⟩

theorem mem_pushedOut {d : VirtioInput kind} {event : InputEvent} (h : event ∈ d.pushedOut) :
    d.pending.length = MAX_PENDING_EVENTS ∧ d.pending.head? = some event := by
  unfold pushedOut at h
  split at h
  · next hfull =>
    cases hpending : d.pending with
    | nil => simp [hpending] at h
    | cons oldest rest => simp_all
  · cases h

variable {base : U64} {queued : List InputEvent} {lost : List (InputEvent × VirtioInput kind)}
  {drains : List (Drain (VirtioInput kind))} {s : VirtioInput kind × Ram} {d d' : VirtioInput kind}

theorem unusable_calls (drain : Drain (VirtioInput kind)) : ∀ c ∈ drain.calls fillEventBuffer,
    (∀ len, c.outcome ≠ .used len) → c.after = c.before :=
  forall_mem_calls fun head s => (delivers_callOf drain head s).unusable

theorem Kept.congr (h : Kept base queued lost drains d)
    (hsame : d'.pending = d.pending ∧ d'.dropped = d.dropped) : Kept base queued lost drains d' :=
  ⟨h.toLedger.congr (congrArg (List.map InputEvent.toBytes) hsame.1), hsame.2.trans h.counter,
    h.oldest, h.unusable, d'.pending_le⟩

theorem Kept.queueEvent (h : Kept base queued lost drains d) (event : InputEvent) :
    Kept base (queued ++ [event]) (lost ++ d.pushedOut.map (·, d)) drains (d.queueEvent event) := by
  obtain ⟨hpending, hdropped⟩ := queueEvent_spec d event
  have hput : d.backlog ++ [event.toBytes] =
      d.pushedOut.map InputEvent.toBytes ++ (d.queueEvent event).backlog := by
    have hmap := congrArg (List.map InputEvent.toBytes) hpending
    rwa [List.map_append, List.map_append] at hmap
  refine ⟨by simpa [Function.comp_def] using h.toLedger.put hput, ?_, ?_, h.unusable, pending_le _⟩
  · rw [hdropped, h.counter, List.length_append, List.length_map, BitVec.ofNat_add,
      BitVec.add_assoc]
  · rw [List.forall_mem_append, List.forall_mem_map]
    exact ⟨h.oldest, fun _ => mem_pushedOut⟩

/-- A drain of the event queue moves events from the backlog to the guest. -/
theorem Kept.process (h : Kept base queued lost drains s.1)
    (hclear : ∀ d ∈ eventDrains s, d.Clear fillEventBuffer) :
    Kept base queued lost (drains ++ eventDrains s) (processEventQueue s).1 := by
  unfold eventDrains processEventQueue at *
  split
  · rwa [List.append_nil]
  · next hsome =>
    rw [if_neg hsome, List.forall_mem_singleton] at hclear
    have hdropped : (drain fillEventBuffer (s.1.transport.queues QUEUE_EVENT) s).2.1.dropped =
        s.1.dropped :=
      calls_rule (P := fun _ t => t.dropped = s.1.dropped) rfl fun _ t ram head ht =>
        (delivers_callOf ⟨s.1.transport.queues QUEUE_EVENT, s⟩ head (t, ram)).dropped.trans ht
    refine ⟨(h.toLedger.drain hclear fun head s hapart => ?_).congr rfl,
      hdropped.trans h.counter, h.oldest, fun d _ => unusable_calls d, pending_le _⟩
    exact (delivers_callOf _ head s).backlog hapart

theorem drainStatusQueue_frame (s : VirtioInput kind × Ram) :
    (drainStatusQueue s).1.pending = s.1.pending ∧
      (drainStatusQueue s).1.dropped = s.1.dropped := by
  have hpost : ∀ layout head (s : VirtioInput kind × Ram),
      Post (statusHandler layout head) s (fun _ t => t = s) fun _ _ => False := by
    intro layout head s
    refine post_get ?_
    cases collectChain s.2 layout head with
    | none | some chain => exact rfl
  have hdrain : (drain statusHandler (s.1.transport.queues QUEUE_STATUS) s).2.1 = s.1 := by
    refine calls_rule (P := fun _ t => t = s.1) rfl fun log t ram head ht => ?_
    exact (congrArg Prod.fst ((callOf_post (hpost _ head (t, ram))).resolve_right id)).trans ht
  constructor
  · change (drain statusHandler (s.1.transport.queues QUEUE_STATUS) s).2.1.pending = _
    rw [hdrain]
  · change (drain statusHandler (s.1.transport.queues QUEUE_STATUS) s).2.1.dropped = _
    rw [hdrain]

/-- Configuration writes touch neither the backlog nor the counter. -/
theorem writeConfig_frame (d : VirtioInput kind) (index : Nat) (val : U64) (size : Nat) :
    (d.writeConfig index val size).pending = d.pending ∧
      (d.writeConfig index val size).dropped = d.dropped := by
  refine List.foldlRecOn (motive := fun d' : VirtioInput kind =>
    d'.pending = d.pending ∧ d'.dropped = d.dropped) _ _ ⟨rfl, rfl⟩ ?_
  intro d' hd' byte _
  split
  · exact hd'
  · split
    · exact hd'
    · exact hd'

def sampleKeyboard : VirtioInput .keyboard :=
  { new .keyboard with
    transport := { (new .keyboard).transport with queues := fun _ => sampleQueue } }

def keyPress : InputEvent :=
  { kind := EV_KEY, code := 30, value := 1 }

end VirtioInput

end EmulateComputer
