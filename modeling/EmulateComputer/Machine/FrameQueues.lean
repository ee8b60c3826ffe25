import EmulateComputer.Machine
import EmulateComputer.Cpu.Frame
import EmulateComputer.Devices.Framing

/-!
# FrameQueues — Ethernet frames between the guest and the host

Frames cross the network device through two bounded queues.  The guest moves them with queue
notifications, the host with `tick_net`, and a reset of the device empties both.  What crosses on
the host's side is logged by the backend itself (`Tapped`), what crosses on the guest's side is read
off the calls that a drain makes (`FrameHistory`).  RAM and the backend are arbitrary at every step,
so whatever the guest and the host do in between is covered.
-/

namespace EmulateComputer

open Effect
open Virtqueue (Call QueueLayout ChainOutcome DESC_F_WRITE callOf calls collectChain sampleQueue
  sampleRam)

namespace VirtioNet

/-! ## Frames that a drain moves -/

/-- A frame that left the inbox: for a chain of the guest, or by a reset of the device. -/
structure Departure where
  frame : List U8
  call : Option (Call VirtioNet)

/-- A call of the receive handler did with the frame what the chain at its head allows. -/
def Departure.Settled (dep : Departure) : Prop :=
  ∀ c, dep.call = some c → ∃ layout chain, collectChain c.before.2 layout c.head = some chain ∧
    Takes c.before.2 chain dep.frame c.outcome c.after.2

/-- A call that uses a chain takes the oldest frame off the inbox. -/
def departure (c : Call VirtioNet) : Option Departure :=
  match c.outcome with
  | .used _ => c.before.1.inbox.head?.map fun frame => ⟨frame, some c⟩
  | .skip => none
  | .retry => none

/-- The frames `deliver_rx` takes off the inbox. -/
def leftBy (s : VirtioNet × Ram) : List Departure :=
  if s.1.inbox.isEmpty then []
  else (calls deliverHandler (s.1.transport.queues QUEUE_RX) s).filterMap departure

/-- The frame that a transmit chain holds. -/
def frameIn (layout : QueueLayout) (head : U16) (ram : Ram) : Option (List U8) := do
  let chain ← Virtqueue.collectChain ram layout head
  if chain.any fun desc => desc.flags &&& DESC_F_WRITE ≠ 0 then none
  else if HDR_LEN ≤ Virtqueue.totalLen chain ∧ Virtqueue.totalLen chain ≤ MAX_CHAIN_BYTES then do
    let bytes ← readSegments ram chain
    let frame := bytes.drop HDR_LEN
    if ¬ frame.isEmpty ∧ frame.length ≤ MAX_FRAME_BYTES then some frame else none
  else none

/-- The frames `process_tx` accepts from the guest. -/
def sentBy (s : VirtioNet × Ram) : List (List U8) :=
  (calls transmitChain (s.1.transport.queues QUEUE_TX) s).filterMap fun c =>
    frameIn (s.1.transport.queues QUEUE_TX).layout c.head c.before.2

/-- What a call of the receive handler does: nothing, or the oldest frame leaves the inbox. -/
def ReceivesOne (layout : QueueLayout) (head : U16) (s : VirtioNet × Ram) (o : ChainOutcome)
    (t : VirtioNet × Ram) : Prop :=
  t.1.outbox = s.1.outbox ∧
    ((t.1.inbox = s.1.inbox ∧ (o = .skip ∨ o = .retry)) ∨
      ∃ frame chain len, s.1.inbox = frame :: t.1.inbox ∧ o = .used len ∧
        collectChain s.2 layout head = some chain ∧ Takes s.2 chain frame o t.2)

theorem receivesOne_deliverHandler (layout : QueueLayout) (head : U16) (s : VirtioNet × Ram) :
    Post (deliverHandler layout head) s (ReceivesOne layout head s)
      (ReceivesOne layout head s) := by
  cases hinbox : s.1.inbox with
  | nil =>
    refine post_get (post_ite (fun _ => ⟨rfl, .inl ⟨rfl, .inr rfl⟩⟩) fun h => absurd ?_ h)
    rw [hinbox]
    rfl
  | cons frame rest =>
    cases hchain : collectChain s.2 layout head with
    | none =>
      refine post_get (post_ite (fun _ => ⟨rfl, .inl ⟨rfl, .inr rfl⟩⟩) fun _ => post_get ?_)
      rw [hchain]
      exact ⟨rfl, .inl ⟨rfl, .inl rfl⟩⟩
    | some chain =>
      refine (post_deliver hchain (by rw [hinbox]; rfl)).mono (fun o t ht => ?_) fun _ _ h => h.elim
      obtain ⟨htail, houtbox, htakes⟩ := ht
      have hcons : s.1.inbox = frame :: t.1.inbox := by rw [htail, hinbox, List.tail_cons]
      obtain ⟨len, hused⟩ : ∃ len, o = .used len := by
        rcases htakes with h | h
        · exact ⟨_, h.2.1⟩
        · exact ⟨_, h.2.1⟩
      exact ⟨houtbox, .inr ⟨frame, chain, len, hcons, hused, hchain, htakes⟩⟩

/-- Every frame that leaves the inbox does so from its front, for a chain of the guest. -/
theorem leftBy_spec (s : VirtioNet × Ram) :
    (leftBy s).map Departure.frame ++ (deliverRx s).1.inbox = s.1.inbox ∧
      (∀ dep ∈ leftBy s, dep.Settled) ∧ (deliverRx s).1.outbox = s.1.outbox := by
  unfold leftBy deliverRx
  split
  · exact ⟨rfl, fun _ h => absurd h List.not_mem_nil, rfl⟩
  · refine Virtqueue.calls_rule (s := s) (q := s.1.transport.queues QUEUE_RX)
      (P := fun log d => (log.filterMap departure).map Departure.frame ++ d.inbox = s.1.inbox ∧
        (∀ dep ∈ log.filterMap departure, dep.Settled) ∧ d.outbox = s.1.outbox)
      ⟨rfl, fun _ h => absurd h List.not_mem_nil, rfl⟩ fun log d ram head hlog => ?_
    have hcall := or_self_iff.1 (Virtqueue.callOf_post (receivesOne_deliverHandler
      (s.1.transport.queues QUEUE_RX).layout head (d, ram)))
    have hbefore : (callOf deliverHandler (s.1.transport.queues QUEUE_RX).layout head
        (d, ram)).before = (d, ram) := rfl
    have hhead : (callOf deliverHandler (s.1.transport.queues QUEUE_RX).layout head
        (d, ram)).head = head := rfl
    generalize callOf deliverHandler (s.1.transport.queues QUEUE_RX).layout head (d, ram) = c at *
    obtain ⟨hrx, hsettled, htx⟩ := hlog
    obtain ⟨houtbox, ⟨hinbox, ho⟩ | ⟨frame, chain, len, hcons, hused, hchain, htakes⟩⟩ := hcall
    · -- Nothing was taken off the inbox.
      have hnone : departure c = none := by
        unfold departure
        rcases ho with ho | ho <;> rw [ho]
      rw [List.filterMap_append, List.filterMap_cons_none hnone, List.filterMap_nil,
        List.append_nil, hinbox]
      exact ⟨hrx, hsettled, houtbox.trans htx⟩
    · have hsome : departure c = some ⟨frame, some c⟩ := by
        unfold departure
        rw [hused, hbefore, hcons]
        rfl
      rw [List.filterMap_append, List.filterMap_cons_some hsome, List.filterMap_nil]
      refine ⟨?_, fun dep hmem => ?_, houtbox.trans htx⟩
      · have hold : (d, ram).1.inbox = d.inbox := rfl
        rw [List.map_append, List.append_assoc, ← hrx, ← hold, hcons]
        rfl
      · rcases List.mem_append.1 hmem with hmem | hmem
        · exact hsettled dep hmem
        · obtain rfl := List.mem_singleton.1 hmem
          intro c' hc'
          cases hc'
          rw [hbefore, hhead]
          exact ⟨_, chain, hchain, htakes⟩

/-- A transmit call appends the chain's frame to the outbox, if it has one. -/
theorem pushes_transmitChain (layout : QueueLayout) (head : U16) (d : VirtioNet) (ram : Ram) :
    Post (transmitChain layout head) (d, ram)
      (fun _ t => t.1 = ((frameIn layout head ram).elim d d.pushOutbox))
      (fun _ t => t.1 = ((frameIn layout head ram).elim d d.pushOutbox)) := by
  refine post_get ?_
  unfold frameIn
  cases Virtqueue.collectChain ram layout head with
  | none => rfl
  | some chain =>
    simp only [Option.bind_eq_bind, Option.bind_some]
    refine post_ite (fun h => ?_) fun h => post_ite (fun h' => ?_) fun h' => ?_
    · rw [if_pos h]
      rfl
    · rw [if_neg h, if_pos h']
      cases readSegments ram chain with
      | none => rfl
      | some bytes =>
        simp only [Option.bind_some]
        refine post_ite (fun hframe => post_modify ?_) fun hframe => ?_
        · rw [if_pos hframe]
          rfl
        · rw [if_neg hframe]
          rfl
    · rw [if_neg h, if_neg h']
      rfl

/-- The latest frames, as many as a queue holds. -/
def latest (frames : List (List U8)) : List (List U8) :=
  frames.drop (frames.length - FRAME_QUEUE_CAPACITY)

theorem latest_of_le {frames : List (List U8)} (h : frames.length ≤ FRAME_QUEUE_CAPACITY) :
    latest frames = frames := by
  unfold latest
  rw [Nat.sub_eq_zero_of_le h, List.drop_zero]

theorem latest_latest_append (frames more : List (List U8)) :
    latest (latest frames ++ more) = latest (frames ++ more) := by
  unfold latest
  rw [← List.drop_append_of_le_length (Nat.sub_le _ _), List.drop_drop]
  generalize FRAME_QUEUE_CAPACITY = capacity
  refine congrArg (List.drop · _) ?_
  simp only [List.length_drop, List.length_append]
  omega

theorem pushFrame_eq {queue : List (List U8)} (frame : List U8)
    (h : queue.length ≤ FRAME_QUEUE_CAPACITY) :
    pushFrame queue frame = latest (queue ++ [frame]) := by
  have hlen : (queue ++ [frame]).length = queue.length + 1 := List.length_append
  by_cases hfull : queue.length = FRAME_QUEUE_CAPACITY
  · rw [pushFrame, if_pos hfull, latest, hlen, hfull, Nat.add_sub_cancel_left,
      List.drop_append_of_le_length (by rw [hfull]; decide), List.drop_one]
  · rw [pushFrame, if_neg hfull, latest_of_le (by omega)]

/-- The outbox holds the latest of the frames sent, in order. -/
theorem outbox_processTx (s : VirtioNet × Ram) :
    (processTx s).1.outbox = latest (s.1.outbox ++ sentBy s) ∧
      (processTx s).1.inbox = s.1.inbox := by
  refine Virtqueue.calls_rule (s := s) (q := s.1.transport.queues QUEUE_TX)
    (P := fun log d => d.outbox = latest (s.1.outbox ++ log.filterMap (fun c =>
        frameIn (s.1.transport.queues QUEUE_TX).layout c.head c.before.2)) ∧
      d.inbox = s.1.inbox) ⟨?_, rfl⟩ fun log d ram head hlog => ?_
  · rw [List.filterMap_nil, List.append_nil, latest_of_le s.1.outbox_le]
  · have hcall := or_self_iff.1 (Virtqueue.callOf_post (pushes_transmitChain
      (s.1.transport.queues QUEUE_TX).layout head d ram))
    have hhead : (callOf transmitChain (s.1.transport.queues QUEUE_TX).layout head
        (d, ram)).head = head := rfl
    have hbefore : (callOf transmitChain (s.1.transport.queues QUEUE_TX).layout head
        (d, ram)).before.2 = ram := rfl
    rw [List.filterMap_append, List.filterMap_cons, List.filterMap_nil, hhead, hbefore, hcall]
    cases frameIn (s.1.transport.queues QUEUE_TX).layout head ram with
    | none =>
      rw [List.append_nil]
      exact hlog
    | some frame =>
      refine ⟨?_, hlog.2⟩
      change pushFrame d.outbox frame = _
      rw [pushFrame_eq frame d.outbox_le, hlog.1, latest_latest_append, List.append_assoc]

/-- `pop_transmitted` takes the oldest frame, if there is one. -/
theorem popTransmitted_cases (d : VirtioNet) :
    (d.outbox = [] ∧ d.popTransmitted = (none, d)) ∨
      ∃ frame d', d.popTransmitted = (some frame, d') ∧ d.outbox = frame :: d'.outbox ∧
        d'.inbox = d.inbox := by
  unfold popTransmitted
  split
  · next h => exact .inl ⟨h, rfl⟩
  · next frame rest h => exact .inr ⟨frame, _, rfl, h, rfl⟩

theorem outbox_receiveFrame (d : VirtioNet) (frame : List U8) :
    (d.receiveFrame frame).outbox = d.outbox := by
  unfold receiveFrame
  split <;> rfl

end VirtioNet

open VirtioNet

/-! ## A backend that logs -/

/-- A backend with the frames it was handed and those taken from it, oldest first. -/
structure Tapped (ν : Type) where
  backend : ν
  handed : List (List U8) := []
  taken : List (List U8) := []

variable {β ν : Type}

section Backend

variable [NetBackend ν]

instance : NetBackend (Tapped ν) where
  transmit tap frame :=
    { tap with backend := NetBackend.transmit tap.backend frame, handed := tap.handed ++ [frame] }
  receive tap :=
    ((NetBackend.receive tap.backend).1,
      { tap with
        backend := (NetBackend.receive tap.backend).2
        taken := tap.taken ++ (NetBackend.receive tap.backend).1.toList })
  poll tap nowMs := { tap with backend := NetBackend.poll tap.backend nowMs }
  nextDeadlineMs tap := NetBackend.nextDeadlineMs tap.backend

end Backend

def VirtioNet.Legal (frame : List U8) : Prop :=
  ¬ (frame.isEmpty ∨ MAX_FRAME_BYTES < frame.length)

instance (frame : List U8) : Decidable (Legal frame) :=
  inferInstanceAs (Decidable (¬ _))

/-- The frames that crossed on the guest's side, oldest first. -/
structure FrameHistory where
  left : List Departure := []
  sent : List (List U8) := []

namespace FrameHistory

/-- What a register store asked for may move frames. -/
def performed (h : FrameHistory) (s : VirtioNet × Ram) : TransportWrite → FrameHistory
  | .notify queue =>
    if queue = 1 then { h with sent := h.sent ++ sentBy s }
    else if queue = 0 then { h with left := h.left ++ leftBy s }
    else h
  | .reset => { h with left := h.left ++ s.1.inbox.map fun frame => ⟨frame, none⟩ }
  | .handled => h
  | .unhandled => h

/-- A guest store to the device; one that is not a word is refused. -/
def wrote (h : FrameHistory) (offset val : U64) (size : Nat) (s : VirtioNet × Ram) : FrameHistory :=
  if size ≠ 4 then h
  else h.performed ((register offset val s.1).2, s.2) (register offset val s.1).1

/-- A network tick delivers before and after it pulls. -/
def ticked [NetBackend ν] (h : FrameHistory) (backend : ν) (bus : Bus β) : FrameHistory :=
  let sent := Machine.handOver backend bus
  let drained := deliverRx (sent.2, bus.ram)
  { h with
    left := h.left ++ leftBy (sent.2, bus.ram) ++
      leftBy ((Machine.pull sent.1 drained.1).2, drained.2) }

end FrameHistory

/-- A device with its history and the backend's log, after any number of guest stores to the device
and network ticks.  RAM and the rest of the bus are arbitrary at each of them, and the backend may
change in between. -/
inductive Carries (β : Type) {ν : Type} [NetBackend ν] :
    VirtioNet → FrameHistory → Tapped ν → Prop
  | start {d : VirtioNet} (backend : ν) (hin : d.inbox = []) (hout : d.outbox = []) :
      Carries β d {} { backend := backend }
  | write {d h} {tap : Tapped ν} (offset val : U64) (size : Nat) (ram : Ram)
      (before : Carries β d h tap) :
      Carries β (VirtioNet.write offset val size (d, ram)).state.1
        (h.wrote offset val size (d, ram)) tap
  | host {d h} {tap : Tapped ν} (backend : ν) (before : Carries β d h tap) :
      Carries β d h { tap with backend := backend }
  | tick {h} {tap : Tapped ν} (bus : Bus β) (before : Carries β bus.virtioNet h tap) :
      Carries β (Machine.exchange tap bus).2.virtioNet (h.ticked tap bus)
        (Machine.exchange tap bus).1

/-- What left the inbox, followed by what waits in it, is what was taken from the backend; what the
backend was handed, followed by what still waits for it, is a part of what was sent. -/
structure InOrder (d : VirtioNet) (h : FrameHistory) (tap : Tapped ν) : Prop where
  rx : h.left.map Departure.frame ++ d.inbox = tap.taken.filter (Legal ·)
  settled : ∀ dep ∈ h.left, dep.Settled
  tx : (tap.handed ++ d.outbox).Sublist h.sent

namespace InOrder

variable {d : VirtioNet} {h : FrameHistory} {tap : Tapped ν}

section

variable (hd : InOrder d h tap)

include hd

/-- Delivering moves frames from the inbox to the guest. -/
theorem deliverRx (ram : Ram) :
    InOrder (deliverRx (d, ram)).1
      { h with left := h.left ++ leftBy (d, ram) } tap := by
  obtain ⟨hleft, hsettled, hout⟩ := leftBy_spec (d, ram)
  refine ⟨?_, fun dep hmem => ?_, by rw [hout]; exact hd.tx⟩
  · rw [List.map_append, List.append_assoc, hleft]
    exact hd.rx
  · exact (List.mem_append.1 hmem).elim (hd.settled dep) (hsettled dep)

theorem processTx (ram : Ram) :
    InOrder (processTx (d, ram)).1
      { h with sent := h.sent ++ sentBy (d, ram) } tap := by
  obtain ⟨hout, hin⟩ := outbox_processTx (d, ram)
  refine ⟨by rw [hin]; exact hd.rx, hd.settled, ?_⟩
  -- Old frames may have been dropped in front; new ones are appended behind.
  rw [hout]
  refine ((List.drop_sublist _ _).append_left tap.handed).trans ?_
  rw [← List.append_assoc]
  exact hd.tx.append_right _

/-- A reset forgets what waits. -/
theorem clearQueues :
    InOrder d.clearQueues
      { h with left := h.left ++ d.inbox.map fun frame => ⟨frame, none⟩ } tap := by
  refine ⟨?_, fun dep hmem => ?_, ?_⟩
  · change List.map Departure.frame _ ++ [] = _
    rw [List.append_nil, List.map_append, List.map_map, ← hd.rx]
    exact congrArg _ (List.map_id' d.inbox)
  · rcases List.mem_append.1 hmem with hmem | hmem
    · exact hd.settled dep hmem
    · obtain ⟨frame, -, rfl⟩ := List.mem_map.1 hmem
      intro c hc
      cases hc
  · exact ((List.nil_sublist d.outbox).append_left tap.handed).trans hd.tx

theorem perform (effect : TransportWrite) (ram : Ram) :
    InOrder (perform effect (d, ram)).1 (h.performed (d, ram) effect) tap := by
  cases effect with
  | notify queue =>
    by_cases hsend : queue = 1
    · subst hsend
      exact hd.processTx ram
    · by_cases hdeliver : queue = 0
      · subst hdeliver
        exact hd.deliverRx ram
      · rw [FrameHistory.performed, if_neg hsend, if_neg hdeliver]
        simpa [VirtioNet.perform, show ¬ queue = 1#32 from hsend, show ¬ queue = 0#32 from hdeliver]
          using hd
  | reset => exact hd.clearQueues
  | handled => exact hd
  | unhandled => exact hd

theorem write (offset val : U64) (size : Nat) (ram : Ram) :
    InOrder (VirtioNet.write offset val size (d, ram)).state.1
      (h.wrote offset val size (d, ram)) tap := by
  unfold VirtioNet.write FrameHistory.wrote
  split
  · exact hd
  · have hd' : InOrder (register offset val d).2 h tap := ⟨hd.rx, hd.settled, hd.tx⟩
    exact hd'.perform _ ram

end

end InOrder

variable [NetBackend ν] {h : FrameHistory} {tap : Tapped ν}

namespace Machine

/-- The first loop of `tick_net` hands the outbox over. -/
theorem transmitAll_spec (backend : ν) (fuel : Nat) (d : VirtioNet)
    (hfuel : d.outbox.length ≤ fuel) :
    (transmitAll backend fuel d).1 = d.outbox.foldl NetBackend.transmit backend ∧
      (transmitAll backend fuel d).2.outbox = [] ∧
      (transmitAll backend fuel d).2.inbox = d.inbox := by
  induction fuel generalizing backend d with
  | zero =>
    have hnil : d.outbox = [] := List.length_eq_zero_iff.1 (Nat.le_zero.1 hfuel)
    exact ⟨by rw [hnil]; rfl, hnil, rfl⟩
  | succ fuel ih =>
    unfold transmitAll
    rcases d.popTransmitted_cases with ⟨hnil, hpop⟩ | ⟨frame, d', hpop, hcons, hinbox⟩
    · simp only [hpop]
      exact ⟨by rw [hnil]; rfl, hnil, trivial⟩
    · simp only [hpop]
      rw [hcons, List.length_cons] at hfuel
      obtain ⟨hbackend, hout, hin⟩ := ih (NetBackend.transmit backend frame) d' (by omega)
      exact ⟨by rw [hbackend, hcons]; rfl, hout, hin.trans hinbox⟩

theorem foldl_transmit (frames : List (List U8)) (tap : Tapped ν) :
    frames.foldl NetBackend.transmit tap =
      { tap with
        backend := frames.foldl NetBackend.transmit tap.backend
        handed := tap.handed ++ frames } := by
  induction frames generalizing tap with
  | nil => simp
  | cons frame frames ih =>
    rw [List.foldl_cons, ih]
    simp [NetBackend.transmit]

variable (tap : Tapped ν)

/-- The second loop of `tick_net` touches neither the outbox nor what was handed over. -/
theorem receiveUpTo_handed (space : Nat) (d : VirtioNet) :
    (receiveUpTo tap space d).1.handed = tap.handed ∧
      (receiveUpTo tap space d).2.outbox = d.outbox := by
  induction space generalizing tap d with
  | zero => exact ⟨rfl, rfl⟩
  | succ space ih =>
    unfold receiveUpTo
    cases hreceive : NetBackend.receive tap with
    | mk answer tap' =>
      obtain rfl : (NetBackend.receive tap).2 = tap' := by rw [hreceive]
      cases answer with
      | none => exact ⟨rfl, rfl⟩
      | some frame =>
        obtain ⟨hhanded, hout⟩ := ih (NetBackend.receive tap).2 (d.receiveFrame frame)
        exact ⟨hhanded, hout.trans (outbox_receiveFrame d frame)⟩

/-- What fits is appended; nothing is pushed out. -/
theorem inOrder_receiveUpTo (space : Nat) (d : VirtioNet)
    (hspace : d.inbox.length + space ≤ FRAME_QUEUE_CAPACITY) (hd : InOrder d h tap) :
    InOrder (receiveUpTo tap space d).2 h (receiveUpTo tap space d).1 := by
  induction space generalizing tap d with
  | zero => exact hd
  | succ space ih =>
    unfold receiveUpTo
    cases hreceive : NetBackend.receive tap with
    | mk answer tap' =>
      obtain rfl : (NetBackend.receive tap).2 = tap' := by rw [hreceive]
      have htaken : (NetBackend.receive tap).2.taken = tap.taken ++ answer.toList := by
        have hanswer : (NetBackend.receive tap).1 = answer := by rw [hreceive]
        rw [← hanswer]
        rfl
      cases answer with
      | none => exact ⟨by rw [htaken, Option.toList_none, List.append_nil]; exact hd.rx,
          hd.settled, hd.tx⟩
      | some frame =>
        have hinbox : (d.receiveFrame frame).inbox =
            d.inbox ++ [frame].filter (Legal ·) := by
          unfold receiveFrame
          by_cases hlegal : Legal frame
          · rw [if_neg hlegal, List.filter_cons_of_pos (by simpa using hlegal)]
            exact congrArg (· ++ [frame]) (if_neg (by omega))
          · rw [if_pos (not_not.1 hlegal), List.filter_cons_of_neg (by simpa using hlegal),
              List.filter_nil, List.append_nil]
        have hshort : ([frame].filter (Legal ·)).length ≤ 1 :=
          List.length_filter_le (Legal ·) [frame]
        refine ih (NetBackend.receive tap).2 (d.receiveFrame frame) ?_ ⟨?_, hd.settled, ?_⟩
        · rw [hinbox, List.length_append]
          omega
        · rw [hinbox, htaken, ← List.append_assoc, hd.rx, List.filter_append]
          rfl
        · rw [outbox_receiveFrame]
          exact hd.tx

/-- The backend is handed the outbox, in order. -/
theorem handOver_spec (bus : Bus β) :
    (handOver tap bus).1.handed = tap.handed ++ bus.virtioNet.outbox ∧
      (handOver tap bus).1.taken = tap.taken ∧ (handOver tap bus).2.outbox = [] ∧
      (handOver tap bus).2.inbox = bus.virtioNet.inbox := by
  obtain ⟨hbackend, hout, hin⟩ :=
    transmitAll_spec tap bus.virtioNet.outbox.length bus.virtioNet le_rfl
  rw [foldl_transmit] at hbackend
  refine ⟨?_, ?_, hout, hin⟩
  · exact congrArg Tapped.handed hbackend
  · exact (congrArg Tapped.taken hbackend :)

theorem exchange_handed (bus : Bus β) :
    (exchange tap bus).1.handed = tap.handed ++ bus.virtioNet.outbox ∧
      (exchange tap bus).2.virtioNet.outbox = [] := by
  obtain ⟨hhanded, -, hout, -⟩ := handOver_spec tap bus
  have hdrained := (leftBy_spec ((handOver tap bus).2, bus.ram)).2.2
  obtain ⟨hkept, hpulled⟩ := receiveUpTo_handed (handOver tap bus).1 _
    (deliverRx ((handOver tap bus).2, bus.ram)).1
  exact ⟨hkept.trans hhanded, (leftBy_spec _).2.2.trans (hpulled.trans (hdrained.trans hout))⟩

end Machine

/-- A tick drains the outbox, delivers, takes what fits and delivers again. -/
theorem InOrder.tick {bus : Bus β} (hd : InOrder bus.virtioNet h tap) :
    InOrder (Machine.exchange tap bus).2.virtioNet (h.ticked tap bus)
      (Machine.exchange tap bus).1 := by
  obtain ⟨hhanded, htaken, hout, hin⟩ := Machine.handOver_spec tap bus
  have hsent : InOrder (Machine.handOver tap bus).2 h (Machine.handOver tap bus).1 :=
    ⟨by rw [hin, htaken]; exact hd.rx, hd.settled,
      by rw [hhanded, hout, List.append_nil]; exact hd.tx⟩
  have hdrained := hsent.deliverRx bus.ram
  exact (Machine.inOrder_receiveUpTo _ _ _ (Nat.add_sub_cancel' (VirtioNet.inbox_le _)).le
    hdrained).deliverRx _

theorem inOrder_of_carries {d : VirtioNet} (hr : Carries β d h tap) : InOrder d h tap := by
  induction hr with
  | start backend hin hout =>
    exact ⟨hin, fun _ h => absurd h List.not_mem_nil, by rw [hout]; exact List.Sublist.refl _⟩
  | write offset val size ram _ ih => exact ih.write offset val size ram
  | host backend _ ih => exact ⟨ih.rx, ih.settled, ih.tx⟩
  | tick bus _ ih => exact ih.tick

/-- A backend that gives back what it is handed, as the device's own tests use it. -/
structure LoopbackBackend where
  queue : List (List U8)

instance : NetBackend LoopbackBackend where
  transmit backend frame := ⟨backend.queue ++ [frame]⟩
  receive backend := (backend.queue.head?, ⟨backend.queue.tail⟩)
  poll backend _ := backend
  nextDeadlineMs _ := none

def VirtioNet.sampleNet : VirtioNet :=
  { new with transport := { new.transport with queues := fun _ => sampleQueue } }

/-- A bus with the device and a writable buffer. -/
def loopbackBus (d : VirtioNet) : Bus Unit :=
  { Bus.new 0 Ram.no_bytes with virtioNet := d, ram := sampleRam DESC_F_WRITE }

end EmulateComputer
