import EmulateComputer.Hostnet.NatBackend

/-!
# NatSteps — what the operations of the NAT layer can do

For the teardown of flows three things matter: which host connections are live, the handle index,
and of each flow its handle and its two marks, `dead` and `toldSubClosed`.  An operation `Ages`
them: it leaves the handles alone and sets a mark only for a reason.  The reasons are parameters, so
that most operations have none.

Three things are more than ageing: asking the substrate for its events, opening a flow, and the
reaping of finished flows.
-/

namespace EmulateComputer

/-! ## A substrate that keeps a record -/

/-- A call the NAT layer made on its substrate, with the answer, or an event it was given. -/
inductive SubstrateRecord
  | tcpConnect (flow : FlowHandle)
  | tcpSend (flow : FlowHandle) (accepted : Nat)
  | tcpClose (flow : FlowHandle)
  | tcpAbort (flow : FlowHandle)
  | dnsResolve (flow : FlowHandle)
  | reported (event : SubstrateEvent)
  deriving DecidableEq

/-- Any substrate, with the record of everything that passed between it and the NAT layer. -/
structure Logged (σ : Type) where
  inner : σ
  log : List SubstrateRecord

namespace Logged

open SocketSubstrate

instance {σ : Type} [SocketSubstrate σ] : SocketSubstrate (Logged σ) where
  tcpConnect s dst port :=
    let (flow, inner) := tcpConnect s.inner dst port
    (flow, ⟨inner, s.log ++ [.tcpConnect flow]⟩)
  tcpSend s flow data :=
    let (accepted, inner) := tcpSend s.inner flow data
    (accepted, ⟨inner, s.log ++ [.tcpSend flow accepted]⟩)
  tcpClose s flow := ⟨tcpClose s.inner flow, s.log ++ [.tcpClose flow]⟩
  tcpAbort s flow := ⟨tcpAbort s.inner flow, s.log ++ [.tcpAbort flow]⟩
  dnsResolve s name :=
    let (flow, inner) := dnsResolve s.inner name
    (flow, ⟨inner, s.log ++ [.dnsResolve flow]⟩)
  poll s nowMs :=
    let (events, inner) := poll s.inner nowMs
    (events, ⟨inner, s.log ++ events.map .reported⟩)
  nextDeadlineMs s := nextDeadlineMs s.inner

def liveAfter (flow : FlowHandle) (live : Bool) : SubstrateRecord → Bool
  | .tcpConnect f => f = flow || live
  | .tcpAbort f | .reported (.tcpClosed f) | .reported (.tcpError f _) => f ≠ flow && live
  | _ => live

/-- The substrate was asked for a connection and neither reported its end nor was told to abort
it. -/
def live {σ : Type} (s : Logged σ) (flow : FlowHandle) : Bool :=
  s.log.foldl (liveAfter flow) false

variable {σ : Type} [SocketSubstrate σ] (s : Logged σ) (flow : FlowHandle) {nowMs : U64}

@[simp]
theorem live_tcpConnect (dst : Ipv4) (port : U16) :
    (tcpConnect s dst port).2.live flow =
      (decide ((tcpConnect s dst port).1 = flow) || s.live flow) :=
  List.foldl_append

@[simp]
theorem live_tcpSend (f : FlowHandle) (data : List U8) :
    (tcpSend s f data).2.live flow = s.live flow :=
  List.foldl_append

@[simp]
theorem live_tcpClose (f : FlowHandle) : (tcpClose s f).live flow = s.live flow :=
  List.foldl_append

@[simp]
theorem live_tcpAbort (f : FlowHandle) :
    (tcpAbort s f).live flow = (decide (f ≠ flow) && s.live flow) :=
  List.foldl_append

@[simp]
theorem live_dnsResolve (name : String) : (dnsResolve s name).2.live flow = s.live flow :=
  List.foldl_append

/-- A report brings no connection to life. -/
theorem live_of_reports (events : List SubstrateEvent) (before : Bool)
    (h : (events.map SubstrateRecord.reported).foldl (liveAfter flow) before = true) :
    before = true := by
  induction events generalizing before with
  | nil => exact h
  | cons e events ih =>
    have hnext := ih _ h
    cases e <;> simp_all [liveAfter]

theorem live_of_poll {s : Logged σ} {flow : FlowHandle}
    (h : (poll s nowMs).2.live flow = true) : s.live flow = true := by
  have happend : (poll s nowMs).2.live flow =
      ((poll s.inner nowMs).1.map SubstrateRecord.reported).foldl (liveAfter flow)
        (s.live flow) := List.foldl_append
  exact live_of_reports flow _ _ (happend.symm.trans h)

/-- A reported failure ends its connection. -/
theorem live_of_failed {s : Logged σ} {flow : FlowHandle} {error : FlowError}
    (h : .tcpError flow error ∈ (poll s nowMs).1) : (poll s nowMs).2.live flow = false := by
  obtain ⟨before, after, hevents⟩ := List.append_of_mem h
  have hinner : (poll s.inner nowMs).1 = before ++ .tcpError flow error :: after :=
    hevents
  refine Bool.eq_false_of_not_eq_true fun hlive => ?_
  have happend : (poll s nowMs).2.live flow =
      ((poll s.inner nowMs).1.map SubstrateRecord.reported).foldl (liveAfter flow)
        (s.live flow) := List.foldl_append
  rw [happend, hinner, List.map_append, List.map_cons, List.foldl_append, List.foldl_cons] at hlive
  have hnot := live_of_reports flow after _ hlive
  simp [liveAfter] at hnot

end Logged

/-- A flow keeps its handle; it dies when `D` holds, and the substrate is told of its end when `T`
holds. -/
structure TcpFlow.Ages (D T : Prop) (flow flow' : TcpFlow) : Prop where
  sub : flow'.sub = flow.sub
  dead : flow'.dead = true → flow.dead = true ∨ D
  told : flow'.toldSubClosed = true → flow.toldSubClosed = true ∨ T

namespace NatBackend

open Hostnet

variable {σ κ : Type} {f : TcpFlow → TcpFlow}

structure Ages (D : TcpKey → FlowHandle → Prop) (T : TcpKey → Prop)
    (b b' : NatBackend (Logged σ) κ) : Prop where
  live : ∀ handle, b'.sub.live handle = b.sub.live handle
  handles : b'.tcpByHandle = b.tcpByHandle
  flows : Table.Rel (fun key flow flow' => flow.Ages (D key flow.sub) (T key) flow') b.tcp b'.tcp

section Ages

variable {D : TcpKey → FlowHandle → Prop} {T : TcpKey → Prop} {b b' b'' : NatBackend (Logged σ) κ}
  {key : TcpKey}

theorem Ages.still (hlive : ∀ handle, b'.sub.live handle = b.sub.live handle)
    (htcp : b'.tcp = b.tcp) (hby : b'.tcpByHandle = b.tcpByHandle) : Ages D T b b' where
  live := hlive
  handles := hby
  flows := by
    rw [htcp]
    exact .refl (fun _ _ => ⟨rfl, .inl, .inl⟩) _

theorem Ages.other (hsub : b'.sub = b.sub) (htcp : b'.tcp = b.tcp)
    (hby : b'.tcpByHandle = b.tcpByHandle) : Ages D T b b' :=
  .still (fun handle => by rw [hsub]) htcp hby

theorem Ages.refl (b : NatBackend (Logged σ) κ) : Ages D T b b :=
  .other rfl rfl rfl

theorem Ages.trans (h : Ages D T b b') (h' : Ages D T b' b'') : Ages D T b b'' where
  live handle := (h'.live handle).trans (h.live handle)
  handles := h'.handles.trans h.handles
  flows := by
    refine .trans (fun key _ _ _ hages hages' => ?_) h.flows h'.flows
    refine ⟨hages'.sub.trans hages.sub, fun hdead => ?_, fun htold => ?_⟩
    · rcases hages'.dead hdead with hdead | hwhy
      · exact hages.dead hdead
      · exact .inr (hages.sub ▸ hwhy)
    · exact (hages'.told htold).elim hages.told .inr

theorem Ages.modify (hlive : ∀ handle, b'.sub.live handle = b.sub.live handle)
    (htcp : b'.tcp = b.tcp.modify key f) (hby : b'.tcpByHandle = b.tcpByHandle)
    (hf : ∀ flow, b.tcp.lookup key = some flow → flow.Ages (D key flow.sub) (T key) (f flow)) :
    Ages D T b b' where
  live := hlive
  handles := hby
  flows := by
    rw [htcp]
    exact .modify (fun _ _ => ⟨rfl, .inl, .inl⟩) hf

theorem Ages.touch (hsub : b'.sub = b.sub)
    (htcp : b'.tcp = b.tcp.modify key f) (hby : b'.tcpByHandle = b.tcpByHandle)
    (hf : ∀ flow, (f flow).sub = flow.sub ∧ (f flow).dead = flow.dead ∧
      (f flow).toldSubClosed = flow.toldSubClosed) : Ages D T b b' := by
  refine .modify (fun handle => by rw [hsub]) htcp hby fun flow _ => ?_
  obtain ⟨hhandle, hdead, htold⟩ := hf flow
  exact ⟨hhandle, fun h => .inl (hdead ▸ h), fun h => .inl (htold ▸ h)⟩

theorem Ages.foldl {α : Type} {f : NatBackend (Logged σ) κ → α → NatBackend (Logged σ) κ}
    (hf : ∀ b a, Ages D T b (f b a)) (l : List α) (b : NatBackend (Logged σ) κ) :
    Ages D T b (l.foldl f b) := by
  induction l generalizing b with
  | nil => exact .refl b
  | cons a l ih => exact (hf b a).trans (ih (f b a))

end Ages

variable {D : TcpKey → FlowHandle → Prop} {T : TcpKey → Prop}

/-! ## Frames of the guest -/

section Guest

variable (b : NatBackend (Logged σ) κ)

theorem ages_pushToGuest (frame : List U8) : Ages D T b (b.pushToGuest frame) := by
  unfold pushToGuest
  split <;> exact .other rfl rfl rfl

/-- Learning the guest's address. -/
theorem ages_learn (p : Bool) (mac : Mac) :
    Ages D T b (if p then { b with guestMac := some mac } else b) := by
  split
  · exact .other rfl rfl rfl
  · exact .refl b

variable [SmoltcpWire]

theorem ages_emitIpToGuest (packet : List U8) : Ages D T b (b.emitIpToGuest packet) :=
  ages_pushToGuest b _

theorem ages_drainDeviceTx : Ages D T b b.drainDeviceTx := by
  have hcut : Ages D T b { b with device := { b.device with
      tx := b.device.tx.drop (TO_GUEST_QUEUE_LIMIT - b.toGuest.length) } } := .other rfl rfl rfl
  exact hcut.trans (Ages.foldl (fun b packet => ages_emitIpToGuest b packet) _ _)

theorem sub_drainDeviceTx : b.drainDeviceTx.sub = b.sub ∧ b.drainDeviceTx.nowMs = b.nowMs := by
  have hpackets : ∀ (packets : List (List U8)) (b : NatBackend (Logged σ) κ),
      (packets.foldl emitIpToGuest b).sub = b.sub ∧
        (packets.foldl emitIpToGuest b).nowMs = b.nowMs := by
    intro packets
    induction packets with
    | nil => exact fun b => ⟨rfl, rfl⟩
    | cons packet packets ih =>
      intro b
      have hone : (b.emitIpToGuest packet).sub = b.sub ∧
          (b.emitIpToGuest packet).nowMs = b.nowMs := by
        unfold emitIpToGuest pushToGuest
        split <;> exact ⟨rfl, rfl⟩
      exact ⟨(ih _).1.trans hone.1, (ih _).2.trans hone.2⟩
  exact hpackets _ _

theorem ages_answerDns (handle : FlowHandle) (reply : Dns.Query → List U8) :
    Ages D T b (b.answerDns handle reply) := by
  unfold answerDns
  cases b.dnsPending.lookup handle with
  | none => exact .refl b
  | some p =>
    have hdone : Ages D T b { b with dnsPending := b.dnsPending.erase handle } :=
      .other rfl rfl rfl
    exact hdone.trans (ages_emitIpToGuest _ _)

theorem ages_handleArp (payload : List U8) : Ages D T b (b.handleArp payload) := by
  unfold handleArp
  cases SmoltcpWire.arp payload with
  | none => exact .refl b
  | some pkt =>
    dsimp only
    split
    · exact .refl b
    · split
      · exact ages_learn b _ _
      · exact (ages_learn b _ _).trans (ages_pushToGuest _ _)

theorem ages_handleIcmp (src dst : Ipv4) (body : List U8) :
    Ages D T b (b.handleIcmp src dst body) := by
  unfold handleIcmp
  split
  · exact .refl b
  · cases SmoltcpWire.icmpEchoRequest body with
    | none => exact .refl b
    | some echo => exact ages_emitIpToGuest b _

theorem ages_handleDhcp (payload : List U8) : Ages D T b (b.handleDhcp payload) := by
  unfold handleDhcp
  cases SmoltcpWire.dhcp payload with
  | none => exact .refl b
  | some req =>
    dsimp only
    cases dhcpReplyType req with
    | none => exact .refl b
    | some messageType =>
      dsimp only
      split
      · exact .refl b
      · exact ages_pushToGuest b _

variable [SocketSubstrate σ]

theorem ages_handleDns (guestIp : Ipv4) (guestPort : U16) (serverIp : Ipv4) (body : List U8) :
    Ages D T b (b.handleDns guestIp guestPort serverIp body) := by
  unfold handleDns
  cases Dns.parseQuery body with
  | none => exact .refl b
  | some query =>
    dsimp only
    split
    · exact ages_emitIpToGuest b _
    · split
      · exact .still (fun handle => Logged.live_dnsResolve _ _ _) rfl rfl
      · split <;> exact ages_emitIpToGuest b _

theorem ages_handleUdp (src dst : Ipv4) (body : List U8) :
    Ages D T b (b.handleUdp src dst body) := by
  unfold handleUdp
  cases SmoltcpWire.udp body with
  | none => exact .refl b
  | some pkt =>
    dsimp only
    split
    · exact ages_handleDhcp b _
    · split
      · exact ages_handleDns b _ _ _ _
      · exact .refl b

/-- A flow is opened for a connection of the substrate. -/
structure Opens (b b' : NatBackend (Logged σ) κ) (key : TcpKey) (flow : TcpFlow) (dst : Ipv4)
    (port : U16) : Prop where
  new : b.tcp.lookup key = none
  alive : flow.dead = false
  connected : flow.sub = (SocketSubstrate.tcpConnect b.sub dst port).1
  sub : b'.sub = (SocketSubstrate.tcpConnect b.sub dst port).2
  tcp : b'.tcp = b.tcp.insert key flow
  handles : b'.tcpByHandle = b.tcpByHandle.insert flow.sub key

/-- A frame ages the flows or opens one. -/
def Handles (D : TcpKey → FlowHandle → Prop) (T : TcpKey → Prop) (b b' : NatBackend (Logged σ) κ) :
    Prop :=
  Ages D T b b' ∨ ∃ key flow dst port, Opens b b' key flow dst port

theorem handles_handleTcp (src dst : Ipv4) (body ipPacket : List U8) :
    Handles D T b (b.handleTcp src dst body ipPacket) := by
  unfold handleTcp
  cases SmoltcpWire.tcp body with
  | none => exact .inl (.refl b)
  | some pkt =>
    dsimp only
    split
    · exact .inl (.refl b)
    · cases hkey : b.tcp.lookup { guestPort := pkt.srcPort, dst, dstPort := pkt.dstPort } with
      | some flow =>
        dsimp only
        split
        · split
          · exact .inl (.touch rfl rfl rfl fun _ => ⟨rfl, rfl, rfl⟩)
          · exact .inl (.refl b)
        · exact .inl (.other rfl rfl rfl)
      | none =>
        dsimp only
        split
        · split
          · exact .inl (ages_emitIpToGuest b _)
          · exact .inl (.refl b)
        · exact .inr ⟨_, _, _, _, hkey, rfl, rfl, rfl, rfl, rfl⟩

theorem handles_handleIpv4 (payload : List U8) : Handles D T b (b.handleIpv4 payload) := by
  unfold handleIpv4
  cases SmoltcpWire.ipv4 payload with
  | none => exact .inl (.refl b)
  | some pkt =>
    dsimp only
    split
    · exact .inl (.refl b)
    · cases pkt.nextHeader with
      | udp => exact .inl (ages_handleUdp b _ _ _)
      | icmp => exact .inl (ages_handleIcmp b _ _ _)
      | tcp => exact handles_handleTcp b _ _ _ _
      | other => exact .inl (.refl b)

end Guest

/-! ## A turn up to the reaping of finished flows -/

section Turn

variable [TcpStack κ] (b : NatBackend (Logged σ) κ)

/-- The stack may refuse to listen on the flow's destination. -/
def Refuses (κ : Type) [TcpStack κ] (key : TcpKey) : Prop :=
  ∃ stack : κ, (TcpStack.listen stack key.dst key.dstPort).1 = none

theorem ages_openSocket (key : TcpKey) (hD : ∀ sub, Refuses κ key → D key sub) :
    Ages D T b (b.openSocket key) := by
  unfold openSocket
  cases b.tcp.lookup key with
  | none => exact .refl b
  | some flow =>
    dsimp only
    split
    · exact .refl b
    · cases flow.pendingSyn with
      | none => exact .refl b
      | some syn =>
        have htake : Ages D T b
            { b with tcp := b.tcp.modify key fun flow => { flow with pendingSyn := none } } :=
          .touch rfl rfl rfl fun _ => ⟨rfl, rfl, rfl⟩
        refine htake.trans ?_
        rcases hlisten : TcpStack.listen b.stack key.dst key.dstPort with ⟨_ | handle, stack⟩
        · have hrefused : Refuses κ key := ⟨b.stack, by rw [hlisten]⟩
          exact .modify (fun _ => rfl) rfl rfl fun _ _ =>
            ⟨rfl, fun _ => .inr (hD _ hrefused), .inl⟩
        · exact .touch rfl rfl rfl fun _ => ⟨rfl, rfl, rfl⟩

theorem ages_pollInterface : Ages D T b b.pollInterface :=
  .other rfl rfl rfl

theorem ages_sendDown (key : TcpKey) (handle : SocketHandle) (toGuest : List U8) :
    Ages D T b (b.sendDown key handle toGuest) := by
  unfold sendDown
  split
  · exact .touch rfl rfl rfl fun _ => ⟨rfl, rfl, rfl⟩
  · exact .refl b

theorem ages_closeSocket (key : TcpKey) (handle : SocketHandle) :
    Ages D T b (b.closeSocket key handle) := by
  unfold closeSocket
  cases b.tcp.lookup key with
  | none => exact .refl b
  | some flow =>
    dsimp only
    split
    · exact .other rfl rfl rfl
    · exact .refl b

omit [TcpStack κ] in
theorem ages_onFlow (handle : FlowHandle)
    (hf : ∀ flow, (f flow).sub = flow.sub ∧ (f flow).dead = flow.dead ∧
      (f flow).toldSubClosed = flow.toldSubClosed) : Ages D T b (b.onFlow handle f) := by
  unfold onFlow
  cases b.tcpByHandle.lookup handle with
  | none => exact .refl b
  | some key => exact .touch rfl rfl rfl hf

section Substrate

variable [SocketSubstrate σ]

theorem ages_sendUp (turns : Nat) (handle : SocketHandle) (sub : FlowHandle) :
    Ages D T b (sendUp turns b handle sub) := by
  induction turns generalizing b with
  | zero => exact .refl b
  | succ turns ih =>
    unfold sendUp
    split
    · cases TcpStack.recvBuffer b.stack handle with
      | none => exact .refl b
      | some buf =>
        have hsend : Ages D T b
            { b with
              sub := (SocketSubstrate.tcpSend b.sub sub buf).2
              stack := TcpStack.consume b.stack handle
                (SocketSubstrate.tcpSend b.sub sub buf).1 } :=
          .still (fun _ => Logged.live_tcpSend _ _ _ _) rfl rfl
        dsimp only
        split
        · exact hsend
        · exact hsend.trans (ih _)
    · exact .refl b

/-- The substrate is told of the guest's end when the stack says that the guest is finished and has
left nothing to read. -/
theorem ages_pumpFlow (key : TcpKey) (hT : ∀ flow handle, b.tcp.lookup key = some flow →
      flow.sock = some handle →
      guestFinished (TcpStack.state (b.moveBytes key handle flow).stack handle) = true →
      TcpStack.recvQueue (b.moveBytes key handle flow).stack handle = 0 → T key) :
    Ages D T b (b.pumpFlow key) := by
  unfold pumpFlow
  cases hflow : b.tcp.lookup key with
  | none => exact .refl b
  | some flow =>
    dsimp only
    cases hsock : flow.sock with
    | none => exact .refl b
    | some handle =>
      dsimp only
      split
      · exact .refl b
      · have hmove : Ages D T b (b.moveBytes key handle flow) :=
          (ages_sendUp b _ handle flow.sub).trans (ages_sendDown _ key handle flow.toGuest)
        refine (hmove.trans ?_).trans (ages_closeSocket _ key handle)
        unfold tellClosed
        split
        · next hend =>
          simp only [Bool.and_eq_true, decide_eq_true_eq] at hend
          exact .modify (fun _ => Logged.live_tcpClose _ _ _) rfl rfl fun _ _ =>
            ⟨rfl, .inl, fun _ => .inr (hT flow handle hflow hsock hend.1.1 hend.1.2)⟩
        · exact .refl _

/-- When the turn comes to the flow and has moved its bytes, the stack says that the guest is
finished and that nothing is left to read. -/
def FoundFinished (b : NatBackend (Logged σ) κ) (key : TcpKey) : Prop :=
  ∃ before after flow handle, b.tcp.keys = before ++ key :: after ∧
    (before.foldl pumpFlow b).tcp.lookup key = some flow ∧ flow.sock = some handle ∧
    guestFinished (TcpStack.state
      ((before.foldl pumpFlow b).moveBytes key handle flow).stack handle) = true ∧
    TcpStack.recvQueue ((before.foldl pumpFlow b).moveBytes key handle flow).stack handle = 0

theorem ages_pumpFlows (hT : ∀ key, b.FoundFinished key → T key) : Ages D T b b.pumpFlows := by
  have hkeys : ∀ before after, b.tcp.keys = before ++ after →
      Ages D T (before.foldl pumpFlow b) (after.foldl pumpFlow (before.foldl pumpFlow b)) := by
    intro before after
    induction after generalizing before with
    | nil => exact fun _ => .refl _
    | cons key after ih =>
      intro heq
      have hflow := ages_pumpFlow (D := D) (T := T) (before.foldl pumpFlow b) key
        fun flow handle hflow hsock hend hempty =>
          hT key ⟨before, after, flow, handle, heq, hflow, hsock, hend, hempty⟩
      have hrest := ih (before ++ [key]) (by rw [heq, List.append_assoc]; rfl)
      rw [List.foldl_append] at hrest
      exact hflow.trans hrest
  exact hkeys [] _ rfl

end Substrate

variable [SocketSubstrate σ]

theorem ages_scheduleNext : Ages D T b b.scheduleNext :=
  .other rfl rfl rfl

variable [SmoltcpWire]

theorem ages_abortTcp (key : TcpKey) (hD : ∀ flow, b.tcp.lookup key = some flow → D key flow.sub) :
    Ages D T b (b.abortTcp key false) := by
  unfold abortTcp
  cases hflow : b.tcp.lookup key with
  | none => exact .refl b
  | some flow =>
    have hmark : Ages D T b
        { b with tcp := b.tcp.modify key fun flow => { flow with dead := true } } :=
      .modify (fun _ => rfl) rfl rfl fun flow hflow => ⟨rfl, fun _ => .inr (hD flow hflow), .inl⟩
    refine hmark.trans ?_
    dsimp only
    cases flow.sock with
    | some handle => exact .other rfl rfl rfl
    | none =>
      dsimp only
      split
      · unfold resetPendingFlow
        split
        · exact .refl _
        · exact ages_emitIpToGuest _ _
      · exact .refl _

/-- The index leads from a handle to its flow. -/
def Indexed (b : NatBackend (Logged σ) κ) : Prop :=
  ∀ handle key, b.tcpByHandle.lookup handle = some key →
    ∃ flow, b.tcp.lookup key = some flow ∧ flow.sub = handle

omit [TcpStack κ] [SocketSubstrate σ] [SmoltcpWire] in
theorem Indexed.ages {b b' : NatBackend (Logged σ) κ} (hb : Indexed b) (h : Ages D T b b') :
    Indexed b' := by
  intro handle key hkey
  rw [h.handles] at hkey
  obtain ⟨flow, hflow, hsub⟩ := hb handle key hkey
  obtain ⟨flow', hflow', hages⟩ := h.flows.forth hflow
  exact ⟨flow', hflow', hages.sub.trans hsub⟩

/-- A flow dies of the failure that was reported for it, or of a stack that does not listen. -/
theorem ages_onSubstrate (hb : Indexed b) (event : SubstrateEvent)
    (hrefused : ∀ key sub, Refuses κ key → D key sub)
    (hfailed : ∀ handle error key, event = .tcpError handle error → D key handle) :
    Ages D T b (b.onSubstrate event) := by
  cases event with
  | tcpConnected h =>
    simp only [onSubstrate]
    cases b.tcpByHandle.lookup h with
    | none => exact .refl b
    | some key => exact ages_openSocket b key (hrefused key)
  | tcpData h data | tcpClosed h => exact ages_onFlow b h fun _ => ⟨rfl, rfl, rfl⟩
  | tcpError h error =>
    simp only [onSubstrate]
    cases hkey : b.tcpByHandle.lookup h with
    | none => exact .refl b
    | some key =>
      obtain ⟨flow, hflow, rfl⟩ := hb h key hkey
      refine ages_abortTcp b key fun flow' hflow' => ?_
      obtain rfl := Option.some.inj (hflow.symm.trans hflow')
      exact hfailed _ error key rfl
  | dnsResolved h addrs | dnsFailed h error =>
    simp only [onSubstrate]
    exact ages_answerDns b h _

end Turn

/-! ## The calls of the network device -/

section Calls

variable [SmoltcpWire] [TcpStack κ] [SocketSubstrate σ]

inductive Call
  | transmit (frame : List U8)
  | receive
  | poll (nowMs : U64)

def call (b : NatBackend σ κ) : Call → NatBackend σ κ
  | .transmit frame => b.transmit frame
  | .receive => b.receive.2
  | .poll nowMs => b.poll nowMs

end Calls

end NatBackend

end EmulateComputer
