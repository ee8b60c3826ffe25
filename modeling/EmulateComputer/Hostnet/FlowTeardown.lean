import EmulateComputer.Hostnet.NatSteps

/-!
# FlowTeardown — host connections and the guest flows they serve

A host connection is live from the moment the substrate is asked for it until the substrate reports
its end or is told to abort it.  No live connection should be without a flow in the NAT layer's
table: nothing would ever end it.

Reaping aborts the connection of a flow only if the flow is neither dead nor half-closed towards the
substrate.  A flow whose socket could not listen is dead without the substrate knowing, and a flow
whose guest resets it is half-closed by the same turn that reaps it, so both leave a connection
behind.  `Spares` says of a turn that its environment brings about neither.
-/

namespace EmulateComputer

namespace NatBackend

open Hostnet

variable {σ κ : Type}

def Holds (b : NatBackend (Logged σ) κ) (handle : FlowHandle) : Prop :=
  ∃ key flow, b.tcp.lookup key = some flow ∧ flow.sub = handle

/-- Every live host connection has its flow. -/
def NoOrphan (b : NatBackend (Logged σ) κ) : Prop :=
  ∀ handle, b.sub.live handle = true → b.Holds handle

/-- Every live host connection has a flow that is not dead, and the index leads to flows. -/
structure Served (b : NatBackend (Logged σ) κ) : Prop where
  index : Indexed b
  flows : ∀ handle, b.sub.live handle = true →
    ∃ key flow, b.tcp.lookup key = some flow ∧ flow.sub = handle ∧ flow.dead = false

section Served

variable {D : TcpKey → FlowHandle → Prop} {T : TcpKey → Prop} {b b' : NatBackend (Logged σ) κ}

theorem Served.noOrphan (hb : Served b) : NoOrphan b := by
  intro handle hlive
  obtain ⟨key, flow, hflow, hsub, -⟩ := hb.flows handle hlive
  exact ⟨key, flow, hflow, hsub⟩

/-- No flow of a live connection dies. -/
theorem Served.ages (hb : Served b) (h : Ages D T b b')
    (hD : ∀ key flow, b.tcp.lookup key = some flow → b.sub.live flow.sub = true →
      ¬ D key flow.sub) : Served b' := by
  refine ⟨hb.index.ages h, fun handle hlive => ?_⟩
  rw [h.live] at hlive
  obtain ⟨key, flow, hflow, rfl, hdead⟩ := hb.flows handle hlive
  obtain ⟨flow', hflow', hages⟩ := h.flows.forth hflow
  refine ⟨key, flow', hflow', hages.sub, Bool.eq_false_of_not_eq_true fun hdead' => ?_⟩
  rcases hages.dead hdead' with hwas | hwhy
  · rw [hdead] at hwas
    cases hwas
  · exact hD key flow hflow hlive hwhy

/-- Nothing dies for no reason. -/
theorem Served.quiet (hb : Served b) (h : Ages (fun _ _ => False) (fun _ => False) b b') :
    Served b' :=
  hb.ages h fun _ _ _ _ => id

variable [SocketSubstrate σ]

theorem Served.opens {key : TcpKey} {flow : TcpFlow} {dst : Ipv4} {port : U16} (hb : Served b)
    (h : Opens b b' key flow dst port) : Served b' := by
  have hself : b'.tcp.lookup key = some flow := by rw [h.tcp]; exact AList.lookup_insert _
  have hold : ∀ {k old}, b.tcp.lookup k = some old → b'.tcp.lookup k = some old := by
    intro k old hk
    have hne : k ≠ key := by
      rintro rfl
      exact nomatch h.new.symm.trans hk
    rw [h.tcp]
    exact (AList.lookup_insert_ne hne).trans hk
  constructor
  · intro handle k hk
    rw [h.handles, Table.lookup_insert] at hk
    split at hk
    · next heq =>
      cases hk
      exact ⟨flow, hself, heq.symm⟩
    · obtain ⟨old, hlookup, hsub⟩ := hb.index handle k hk
      exact ⟨old, hold hlookup, hsub⟩
  · intro handle hlive
    rw [h.sub, Logged.live_tcpConnect, ← h.connected] at hlive
    rcases Bool.or_eq_true_iff.1 hlive with heq | hlive
    · exact ⟨key, flow, hself, of_decide_eq_true heq, h.alive⟩
    · obtain ⟨k, old, hlookup, hsub, hdead⟩ := hb.flows handle hlive
      exact ⟨k, old, hold hlookup, hsub, hdead⟩

theorem Served.handleFrame [SmoltcpWire] (hb : Served b) (frame : List U8) :
    Served (b.handleFrame frame) := by
  unfold NatBackend.handleFrame
  cases SmoltcpWire.ethernet frame with
  | none => exact hb
  | some eth =>
    have hlearned := hb.quiet (ages_learn b (SmoltcpWire.isUnicast eth.srcAddr) eth.srcAddr)
    dsimp only
    cases eth.ethertype with
    | arp => exact hlearned.quiet (ages_handleArp _ _)
    | ipv4 =>
      rcases handles_handleIpv4 (if SmoltcpWire.isUnicast eth.srcAddr then
        { b with guestMac := some eth.srcAddr } else b) eth.payload with
        hages | ⟨key, flow, dst, port, hopens⟩
      · exact hlearned.quiet hages
      · exact hlearned.opens hopens
    | other => exact hlearned

/-- What a poll of the substrate reports can only end connections. -/
theorem Served.polled (hb : Served b) (nowMs : U64) :
    Served { b with sub := (SocketSubstrate.poll b.sub nowMs).2 } :=
  ⟨hb.index, fun handle hlive => hb.flows handle (Logged.live_of_poll hlive)⟩

end Served

/-! ## A turn up to the reaping of finished flows -/

section Turn

variable [TcpStack κ] [SocketSubstrate σ] [SmoltcpWire] (b : NatBackend (Logged σ) κ)

/-- Why a flow may die in a turn: the substrate has ended its connection, or the stack does not
listen. -/
def Dies (κ : Type) [TcpStack κ] (live : FlowHandle → Bool) (key : TcpKey) (sub : FlowHandle) :
    Prop :=
  live sub = false ∨ Refuses κ key

theorem ages_drainSubstrate {T : TcpKey → Prop} (hb : Served b) :
    Ages (Dies κ (SocketSubstrate.poll b.sub b.nowMs).2.live) T
      { b with sub := (SocketSubstrate.poll b.sub b.nowMs).2 } b.drainSubstrate := by
  have hevents : ∀ (events : List SubstrateEvent) (b : NatBackend (Logged σ) κ)
      (live : FlowHandle → Bool),
      Indexed b → (∀ handle error, .tcpError handle error ∈ events → live handle = false) →
        Ages (Dies κ live) T b (events.foldl onSubstrate b) := by
    intro events
    induction events with
    | nil => exact fun b _ _ _ => .refl b
    | cons event events ih =>
      intro b live hindex hended
      have hevent : Ages (Dies κ live) T b (b.onSubstrate event) :=
        ages_onSubstrate b hindex event (fun _ _ => .inr) fun handle error _ heq =>
          .inl (hended handle error (by rw [heq]; exact List.mem_cons_self))
      exact hevent.trans (ih _ live (hindex.ages hevent) fun handle error hmem =>
        hended handle error (List.mem_cons_of_mem _ hmem))
  exact hevents _ _ _ (hb.polled b.nowMs).index fun handle error hmem =>
    Logged.live_of_failed hmem

/-- The state in which a turn has moved the interface's packets and heard the substrate's events. -/
def heard (b : NatBackend (Logged σ) κ) : NatBackend (Logged σ) κ :=
  b.drainDeviceTx.drainSubstrate.pollInterface

/-- The stack says that the flow's socket is closed when the turn looks for finished flows. -/
def FoundClosed (b : NatBackend (Logged σ) κ) (key : TcpKey) : Prop :=
  ∃ flow handle, b.heard.pumpFlows.tcp.lookup key = some flow ∧ flow.sock = some handle ∧
    TcpStack.state b.heard.pumpFlows.stack handle = .closed

/-- What the environment does in a turn to the flows whose connection it has not ended: the stack
does not refuse to listen for them, and it says of none of their sockets that it is closed after the
flow was half-closed in an earlier turn, or after it said in this one that the guest is finished and
has left nothing to read. -/
def Spares (b : NatBackend (Logged σ) κ) : Prop :=
  ∀ key flow, b.tcp.lookup key = some flow →
    (SocketSubstrate.poll b.sub b.nowMs).2.live flow.sub = true →
    ¬ Refuses κ key ∧
      (b.FoundClosed key → flow.toldSubClosed = false ∧ ¬ b.heard.FoundFinished key)

end Turn

/-! ## Reaping -/

section Reap

variable [TcpStack κ] [SocketSubstrate σ]
variable {b : NatBackend (Logged σ) κ} {key : TcpKey} {flow : TcpFlow} {handle : FlowHandle}

theorem lookup_reapFlow (b : NatBackend (Logged σ) κ) (key k : TcpKey) :
    (b.reapFlow key).tcp.lookup k = if k = key then none else b.tcp.lookup k := by
  unfold reapFlow
  cases hflow : b.tcp.lookup key with
  | none =>
    dsimp only
    split
    · next heq => rw [heq, hflow]
    · rfl
  | some flow =>
    dsimp only
    rw [← Table.lookup_erase]
    split <;> cases flow.sock <;> rfl

/-- What reaping a flow does to the record. -/
theorem live_reapFlow (hflow : b.tcp.lookup key = some flow) (handle : FlowHandle) :
    (b.reapFlow key).sub.live handle =
      if flow.dead = false ∧ flow.toldSubClosed = false then
        decide (flow.sub ≠ handle) && b.sub.live handle
      else b.sub.live handle := by
  unfold reapFlow
  rw [hflow]
  dsimp only
  split
  · next h =>
    rw [if_pos (by simpa using h)]
    cases flow.sock <;> exact Logged.live_tcpAbort _ _ _
  · next h =>
    rw [if_neg (by simpa using h)]
    cases flow.sock <;> rfl

theorem live_of_reapFlow (h : (b.reapFlow key).sub.live handle = true) :
    b.sub.live handle = true := by
  cases hflow : b.tcp.lookup key with
  | none =>
    unfold reapFlow at h
    rwa [hflow] at h
  | some flow =>
    rw [live_reapFlow hflow] at h
    split at h
    · exact (Bool.and_eq_true_iff.1 h).2
    · exact h

theorem lookup_handles_reapFlow {k : TcpKey}
    (h : (b.reapFlow key).tcpByHandle.lookup handle = some k) :
    (∀ flow, b.tcp.lookup key = some flow → flow.sub ≠ handle) ∧
      b.tcpByHandle.lookup handle = some k := by
  unfold NatBackend.reapFlow at h
  cases hflow : b.tcp.lookup key with
  | none =>
    rw [hflow] at h
    exact ⟨(fun _ h => nomatch h), h⟩
  | some flow =>
    have hkept : (b.tcpByHandle.erase flow.sub).lookup handle = some k := by
      rw [hflow] at h
      dsimp only at h
      split at h <;> cases hsock : flow.sock <;> rw [hsock] at h <;> exact h
    obtain ⟨hne, hk⟩ := Table.lookup_erase_eq_some.1 hkept
    exact ⟨fun f hf => by cases hf; exact hne.symm, hk⟩

theorem Served.reapFlow (hb : Served b)
    (hspared : ∀ flow, b.tcp.lookup key = some flow → b.sub.live flow.sub = true →
      flow.dead = false → flow.toldSubClosed = false) : Served (b.reapFlow key) := by
  constructor
  · intro handle k hk
    obtain ⟨hne, hk⟩ := lookup_handles_reapFlow hk
    obtain ⟨flow, hflow, hsub⟩ := hb.index handle k hk
    refine ⟨flow, ?_, hsub⟩
    rw [lookup_reapFlow, if_neg, hflow]
    rintro rfl
    exact hne flow hflow hsub
  · intro handle hlive
    have hbefore := live_of_reapFlow hlive
    obtain ⟨k, flow, hflow, rfl, hdead⟩ := hb.flows handle hbefore
    have hne : k ≠ key := by
      rintro rfl
      -- The connection of the flow that goes is aborted.
      rw [live_reapFlow hflow, if_pos ⟨hdead, hspared flow hflow hbefore hdead⟩] at hlive
      simp at hlive
    exact ⟨k, flow, by rw [lookup_reapFlow, if_neg hne, hflow], rfl, hdead⟩

theorem Served.reapFlows (keys : List TcpKey) (hb : Served b)
    (hspared : ∀ key ∈ keys, ∀ flow, b.tcp.lookup key = some flow →
      b.sub.live flow.sub = true → flow.dead = false → flow.toldSubClosed = false) :
    Served (keys.foldl NatBackend.reapFlow b) := by
  induction keys generalizing b with
  | nil => exact hb
  | cons key keys ih =>
    refine ih (hb.reapFlow (hspared key List.mem_cons_self)) fun k hk flow hflow hlive => ?_
    rw [lookup_reapFlow] at hflow
    split at hflow
    · exact absurd hflow (by simp)
    · exact hspared k (List.mem_cons_of_mem _ hk) flow hflow (live_of_reapFlow hlive)

end Reap

/-! ## Runs -/

section Runs

variable [SmoltcpWire] [TcpStack κ] [SocketSubstrate σ]

/-- The states of a backend whose calls all meet a condition on the state before them. -/
inductive Reaches (ok : NatBackend (Logged σ) κ → Call → Prop) :
    NatBackend (Logged σ) κ → Prop
  | start (sub : σ) (stack : κ) : Reaches ok (new ⟨sub, []⟩ stack)
  | call {b : NatBackend (Logged σ) κ} (c : Call) :
      Reaches ok b → ok b c → Reaches ok (b.call c)

/-- The turn of a call, if it makes one, spares the flows of live connections. -/
def Clean (b : NatBackend (Logged σ) κ) : Call → Prop
  | .transmit frame => frame.length ≤ MTU + 14 → (b.handleFrame frame).Spares
  | .receive => True
  | .poll nowMs => { b with nowMs }.Spares

variable {b : NatBackend (Logged σ) κ}

theorem Served.pump (hb : Served b) (hspares : b.Spares) : Served b.pump := by
  have hdrained := hb.quiet (ages_drainDeviceTx b)
  obtain ⟨hsub, hnow⟩ := sub_drainDeviceTx b
  have hheard := (ages_drainSubstrate (T := b.heard.FoundFinished) b.drainDeviceTx hdrained).trans
    (ages_pollInterface _)
  have hscanned := hheard.trans (ages_pumpFlows b.heard fun _ => id)
  rw [hsub, hnow] at hscanned
  -- A flow the turn finds, with what it was before the turn.
  have hbefore : ∀ {key flow}, b.drainDeviceTx.tcp.lookup key = some flow →
      ∃ old, b.tcp.lookup key = some old ∧ flow.sub = old.sub ∧
        (flow.toldSubClosed = true → old.toldSubClosed = true) := by
    intro key flow hflow
    obtain ⟨old, hold, hages⟩ :=
      (ages_drainDeviceTx (D := fun _ _ => False) (T := fun _ => False) b).flows.back hflow
    exact ⟨old, hold, hages.sub, fun h => (hages.told h).resolve_right id⟩
  have hpolled := hdrained.polled b.drainDeviceTx.nowMs
  rw [hsub, hnow] at hpolled
  have hserved : Served b.heard.pumpFlows := by
    refine hpolled.ages hscanned fun key flow hflow hlive hdies => ?_
    obtain ⟨old, hold, hhandle, -⟩ := hbefore hflow
    rcases hdies with hended | hrefuses
    · exact absurd hlive (by rw [hended]; simp)
    · exact (hspares key old hold (hhandle ▸ hlive)).1 hrefuses
  have hreaped : Served (b.heard.pumpFlows.finishedFlows.foldl NatBackend.reapFlow
      b.heard.pumpFlows) := by
    refine hserved.reapFlows _ fun key hkey flow hflow hlive hdead => ?_
    obtain ⟨⟨k, f⟩, hmem, rfl⟩ := List.mem_map.1 hkey
    obtain ⟨hmem, hfinished⟩ := List.mem_filter.1 hmem
    obtain rfl := Option.some.inj ((Table.mem_entries_iff.1 hmem).symm.trans hflow)
    obtain ⟨mid, hmid, hages⟩ := hscanned.flows.back hflow
    obtain ⟨old, hold, hhandle, htold⟩ := hbefore hmid
    have hclosed : b.FoundClosed k := by
      unfold finished at hfinished
      cases hsock : f.sock with
      | none =>
        rw [hsock, hdead] at hfinished
        cases hfinished
      | some handle =>
        rw [hsock] at hfinished
        exact ⟨f, handle, hflow, hsock, of_decide_eq_true hfinished⟩
    rw [hscanned.live, hages.sub, hhandle] at hlive
    obtain ⟨hfresh, hunfinished⟩ := (hspares k old hold hlive).2 hclosed
    refine Bool.eq_false_of_not_eq_true fun h => ?_
    rcases hages.told h with hwas | hnow
    · rw [htold hwas] at hfresh
      cases hfresh
    · exact hunfinished hnow
  exact ((hreaped.quiet (ages_pollInterface _)).quiet (ages_drainDeviceTx _)).quiet
    (ages_scheduleNext _)

theorem Served.call (hb : Served b) {c : Call} (hclean : b.Clean c) : Served (b.call c) := by
  cases c with
  | transmit frame =>
    show Served (b.transmit frame)
    unfold NatBackend.transmit
    split
    · exact hb
    · next hlen => exact (hb.handleFrame frame).pump (hclean (Nat.not_lt.1 hlen))
  | receive => exact hb.quiet (.other rfl rfl rfl)
  | poll nowMs =>
    have hstart : Served { b with nowMs } := hb.quiet (.other rfl rfl rfl)
    exact hstart.pump hclean

end Runs

/-! ## Flows that leave their connection behind -/

section Puppet

/-- A library whose packets are all the same SYN. -/
@[reducible]
def synWire : SmoltcpWire where
  isUnicast _ := true
  ethernet _ := some ⟨GATEWAY_MAC, .ipv4, []⟩
  arp _ := none
  ipv4 _ := some ⟨GUEST_IP, ⟨93, 184, 216, 34⟩, .tcp, false, 0, 0, []⟩
  icmpEchoRequest _ := none
  udp _ := none
  dhcp _ := none
  tcp _ := some ⟨40000, 80, true, false, false, false, 7, 0, []⟩
  ethFrame _ _ _ _ := []
  arpPacket _ := []
  icmpEchoReply _ _ _ := []
  udpDatagram _ _ _ _ _ := []
  dhcpPacket _ := none
  tcpSegment _ _ _ := []

/-- Sockets that the guest resets at the fifth poll of the interface, with so much left to read. -/
structure Puppet (listens : Bool) (unread : Nat) where
  polls : Nat

instance {listens : Bool} {unread : Nat} : TcpStack (Puppet listens unread) where
  listen k _ _ := (if listens then some 0 else none, k)
  poll k _ device := (⟨k.polls + 1⟩, device)
  pollDelay _ _ := none
  state k _ := if k.polls < 5 then .established else .closed
  canRecv _ _ := false
  recvQueue _ _ := unread
  recvBuffer _ _ := none
  consume k _ _ := k
  canSend _ _ := false
  maySend _ _ := true
  sendSlice k _ _ := (none, k)
  close k _ := k
  abort k _ := k
  remove k _ := k

/-- A substrate that reports what it was told to. -/
structure Scripted where
  batches : List (List SubstrateEvent)

instance : SocketSubstrate Scripted where
  tcpConnect s _ _ := (1, s)
  tcpSend s _ _ := (0, s)
  tcpClose s _ := s
  tcpAbort s _ := s
  dnsResolve s _ := (0, s)
  poll s _ := (s.batches.headD [], ⟨s.batches.tail⟩)
  nextDeadlineMs _ := none

/-- A connection is opened and reported, and one more turn passes. -/
def threeCalls (listens : Bool) (unread : Nat) :
    NatBackend (Logged Scripted) (Puppet listens unread) :=
  letI := synWire
  (((new ⟨⟨[[], [.tcpConnected 1]]⟩, []⟩ ⟨0⟩).call (.transmit [])).call (.poll 0)).call (.poll 1)

end Puppet

end NatBackend

end EmulateComputer
