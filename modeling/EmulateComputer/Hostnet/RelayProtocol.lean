import EmulateComputer.Hostnet.RelaySession

/-!
# RelayProtocol — the event protocol of the relay client

Whatever a transport reports, and in whatever order the NAT layer calls, the events the polls
return for one handle tell one story: a TCP flow connects, delivers data and ends, or fails at
once; a name lookup has one result.  A connection that is lost is a debt to its caller, which the
next poll pays unless the caller gave the handle up; and a poll leaves two tables that describe the
same live connections.
-/

namespace EmulateComputer

namespace RelayClient

open SubstrateEvent

namespace Session

variable {τ : Type} [RelayTransport τ] {s : Session τ}

/-! ## The end of a connection -/

/-- The transport lets the client know during a call that the connection of a handle is gone: it
cannot be opened, it is reported closed or failed, or it takes no frame any more. -/
inductive GoneBy (s : Session τ) : Call → FlowHandle → Prop
  | connect (dst : Ipv4) (port : U16)
      (hopen : (RelayTransport.connect s.client.transport s.client.url).1 = none) :
      GoneBy s (.tcpConnect dst port) s.client.nextHandle
  | resolve (name : String)
      (hopen : (RelayTransport.connect s.client.transport s.client.url).1 = none) :
      GoneBy s (.dnsResolve name) s.client.nextHandle
  | reported {handle : FlowHandle} {flow : Flow} {event : TransportEvent} {nowMs : U64}
      (hflow : s.client.flows.lookup handle = some flow)
      (hmem : event ∈ (RelayTransport.poll s.client.transport nowMs).1)
      (hevent : event = .closed flow.conn ∨ event = .error flow.conn) :
      GoneBy s (.poll nowMs) handle
  | command {handle : FlowHandle} {flow flow' : Flow} {nowMs : U64}
      {before after : List TransportEvent} {c : RelayClient τ}
      (hflow : s.client.flows.lookup handle = some flow)
      (hbatch : (RelayTransport.poll s.client.transport nowMs).1 =
        before ++ .opened flow.conn :: after)
      (hbefore : c = before.foldl onTransport
        { s.client with
          transport := (RelayTransport.poll s.client.transport nowMs).2, lastPollMs := nowMs })
      (hpending : c.flows.lookup handle = some flow') (hstate : flow'.state = .connecting)
      (hsend : (RelayTransport.sendText c.transport flow.conn flow'.command).1 = false) :
      GoneBy s (.poll nowMs) handle
  | send {handle : FlowHandle} {flow : Flow} {data : List U8} {accepted : Nat}
      (hflow : s.client.flows.lookup handle = some flow) (hstate : flow.state = .opened)
      (hroom : accepted = min data.length
        (SEND_CAP_BYTES - RelayTransport.bufferedAmount s.client.transport flow.conn))
      (hpos : accepted ≠ 0)
      (hsend : (RelayTransport.sendBinary s.client.transport flow.conn
        (data.take accepted)).1 = false) :
      GoneBy s (.tcpSend handle data) handle
  | fin {handle : FlowHandle} {flow : Flow}
      (hflow : s.client.flows.lookup handle = some flow) (hstate : flow.state = .opened)
      (hsend : (RelayTransport.sendText s.client.transport flow.conn "FIN").1 = false) :
      GoneBy s (.tcpClose handle) handle

theorem ended_connect {kind : FlowKind} {command : String} (hs : s.Tracks)
    (hopen : (RelayTransport.connect s.client.transport s.client.url).1 = none) :
    Ended (s.connect kind command).client s.client.nextHandle := by
  have hempty := hs.lookup_eq_none (hs.handles s.client.nextHandle le_rfl)
  unfold Session.connect RelayClient.connect
  rcases hconnect : RelayTransport.connect s.client.transport s.client.url with
    ⟨_ | conn, transport⟩
  · intro flow hflow
    exact absurd (hempty.symm.trans hflow) (by simp)
  · rw [hconnect] at hopen
    exact absurd hopen (by simp)

variable {handle : FlowHandle} {flow : Flow} {nowMs : U64} {c : RelayClient τ}

theorem ended_poll (h : Ended (digested s.client nowMs) handle) :
    Ended (s.call (.poll nowMs)).client handle := by
  intro flow hflow
  have hlookup := (lookup_foldl_reap (digested s.client nowMs).deadFlows
    { digested s.client nowMs with events := [] } handle).symm.trans hflow
  split at hlookup
  · exact absurd hlookup (by simp)
  · exact h flow hlookup

/-- After a poll no flow awaits reaping. -/
theorem ne_dead_of_poll (c : RelayClient τ) (nowMs : U64)
    (hflow : (c.poll nowMs).2.flows.lookup handle = some flow) : flow.state ≠ .dead := by
  rw [poll_eq, lookup_foldl_reap] at hflow
  split at hflow
  · exact absurd hflow (by simp)
  · next hmem => exact fun hdead => hmem (mem_deadFlows.2 ⟨flow, hflow, hdead⟩)

/-- An event that ends the connection it is about. -/
theorem ended_of_event {event : TransportEvent} (hconn : c.byConn.lookup event.conn = some handle)
    (hevent : event = .closed event.conn ∨ event = .error event.conn) :
    Ended (c.onTransport event) handle := by
  unfold onTransport
  rw [hconn]
  rcases hevent with hevent | hevent <;> rw [hevent] <;> exact ended_gone c handle

/-- The command of a pending connection cannot be sent. -/
theorem ended_of_command {conn : ConnId} (hconn : c.byConn.lookup conn = some handle)
    (hflow : c.flows.lookup handle = some flow) (hstate : flow.state = .connecting)
    (hsend : (RelayTransport.sendText c.transport conn flow.command).1 = false) :
    Ended (c.onTransport (.opened conn)) handle := by
  unfold onTransport
  simp only [TransportEvent.conn, hconn, hflow, if_pos hstate]
  split
  · next hsent => exact absurd hsend (by simp [hsent])
  · exact ended_gone _ handle

theorem ended_of_send {data : List U8} {accepted : Nat} (hflow : c.flows.lookup handle = some flow)
    (hstate : flow.state = .opened)
    (hroom : accepted = min data.length
      (SEND_CAP_BYTES - RelayTransport.bufferedAmount c.transport flow.conn)) (hpos : accepted ≠ 0)
    (hsend : (RelayTransport.sendBinary c.transport flow.conn (data.take accepted)).1 = false) :
    Ended (c.tcpSend handle data).2 handle := by
  have hdata : data ≠ [] := by
    rintro rfl
    exact hpos (by simp [hroom])
  unfold tcpSend
  simp only [hflow, hstate, hdata, ne_eq, not_true_eq_false, or_self, if_false, ← hroom, hpos]
  split
  · next hsent => exact absurd hsend (by simp [hsent])
  · exact ended_gone _ handle

theorem ended_of_fin (hflow : c.flows.lookup handle = some flow) (hstate : flow.state = .opened)
    (hsend : (RelayTransport.sendText c.transport flow.conn "FIN").1 = false) :
    Ended (c.tcpClose handle) handle := by
  unfold tcpClose
  simp only [hflow, hstate]
  split
  · next hsent => exact absurd hsend (by simp [hsent])
  · exact ended_gone _ handle

section

variable (hs : s.Tracks) {e : SubstrateEvent}

include hs

theorem Tracks.byConn_digest (hflow : s.client.flows.lookup handle = some flow)
    (nowMs : U64) (before : List TransportEvent) :
    (before.foldl onTransport { s.client with
      transport := (RelayTransport.poll s.client.transport nowMs).2
      lastPollMs := nowMs }).byConn.lookup flow.conn = some handle := by
  rw [RelayClient.byConn_digest]
  exact (hs.index handle flow.conn).2 ⟨flow, hflow, rfl⟩

theorem GoneBy.ended {c : Call} (h : s.GoneBy c handle) : Ended (s.call c).client handle := by
  cases h with
  | connect dst port hopen | resolve name hopen => exact ended_connect hs hopen
  | @reported handle flow event nowMs hflow hmem hevent =>
    obtain ⟨before, after, hbatch⟩ := List.append_of_mem hmem
    have hconn : event.conn = flow.conn := by rcases hevent with rfl | rfl <;> rfl
    rw [← hconn] at hevent
    apply ended_poll
    unfold digested
    rw [hbatch, List.foldl_append, List.foldl_cons]
    refine Ended.digest (ended_of_event ?_ hevent) after
    rw [hconn]
    exact hs.byConn_digest hflow nowMs before
  | @command handle flow flow' nowMs before after c hflow hbatch hbefore hpending hstate hsend =>
    apply ended_poll
    unfold digested
    rw [hbatch, List.foldl_append, List.foldl_cons, ← hbefore]
    refine Ended.digest (ended_of_command ?_ hpending hstate hsend) after
    rw [hbefore]
    exact hs.byConn_digest hflow nowMs before
  | send hflow hstate hroom hpos hsend => exact ended_of_send hflow hstate hroom hpos hsend
  | fin hflow hstate hsend => exact ended_of_fin hflow hstate hsend

theorem GoneBy.owed {c : Call} (h : s.GoneBy c handle)
    (hkept : s.aborted handle = false) : (s.call c).Owed handle := by
  have hended := h.ended hs
  have hheld : ∀ {flow}, s.client.flows.lookup handle = some flow → (s.kinds handle).isSome :=
    fun hflow => by rw [(hs.flows handle _ hflow).1]; rfl
  have hnew : ∀ kind command, ((s.connect kind command).kinds s.client.nextHandle).isSome :=
    fun kind command => by rw [kinds_connect, Function.update_self]; rfl
  cases h with
  | connect dst port hopen | resolve name hopen => exact ⟨hnew _ _, hkept, hended⟩
  | reported hflow _ _ | command hflow _ _ _ _ _ | send hflow _ _ _ _ | fin hflow _ _ =>
    exact ⟨hheld hflow, hkept, hended⟩

theorem Owed.connect (h : s.Owed handle) (kind : FlowKind) (command : String) :
    (s.connect kind command).Owed handle := by
  have hne : handle ≠ s.client.nextHandle := by
    rintro rfl
    exact absurd h.held (by simp [hs.handles _ le_rfl])
  refine ⟨?_, h.kept, fun flow hflow => ?_⟩
  · rw [kinds_connect, Function.update_of_ne hne]
    exact h.held
  · rw [lookup_connect s kind command hne] at hflow
    exact h.ended flow hflow

/-- What is owed stays owed until the caller gives the handle up. -/
theorem Owed.call (h : s.Owed handle) {c : Call} (hc : c ≠ .tcpAbort handle) :
    (s.call c).Owed handle := by
  cases c with
  | tcpConnect dst port => exact h.connect hs .tcp _
  | dnsResolve name => exact h.connect hs .dns _
  | tcpSend flow data =>
    exact ⟨h.held, h.kept, h.ended.advance (advance_tcpSend s.client flow data)⟩
  | tcpClose flow => exact ⟨h.held, h.kept, h.ended.advance (advance_tcpClose s.client flow)⟩
  | tcpAbort flow =>
    have hne : handle ≠ flow := fun heq => hc (by rw [heq])
    refine ⟨h.held, ?_, fun f hf => ?_⟩
    · simp [Session.call, hne, h.kept]
    · have hf' : (s.client.tcpAbort flow).flows.lookup handle = some f := hf
      rw [lookup_tcpAbort, if_neg hne] at hf'
      exact h.ended f hf'
  | poll nowMs =>
    have hstart : Ended { s.client with
        transport := (RelayTransport.poll s.client.transport nowMs).2
        lastPollMs := nowMs } handle := h.ended
    exact ⟨h.held, h.kept, ended_poll (hstart.digest _)⟩

/-- A poll returns the end of every story that has come to its end. -/
theorem Owed.settled (h : (s.call (.poll nowMs)).Owed handle) :
    (s.call (.poll nowMs)).Settled handle := by
  have hs' := hs.poll nowMs
  obtain ⟨kind, hkind⟩ := Option.isSome_iff_exists.1 h.held
  have htold := hs'.told handle kind hkind h.kept
  have hnone : (s.call (.poll nowMs)).client.flows.lookup handle = none := by
    cases hflow : (s.call (.poll nowMs)).client.flows.lookup handle with
    | none => rfl
    | some flow => exact absurd (h.ended flow hflow) (ne_dead_of_poll s.client nowMs hflow)
  have hempty : (s.call (.poll nowMs)).client.events = [] :=
    events_foldl_reap _ { digested s.client nowMs with events := [] }
  rw [hnone, hempty, List.append_nil] at htold
  obtain ⟨before, last, hstory, hterminal, -⟩ := Complete.eq_concat htold
  have hlast : last ∈ about handle (s.call (.poll nowMs)).returned := by rw [hstory]; simp
  exact ⟨last, (mem_about.1 hlast).1, (mem_about.1 hlast).2, hterminal⟩

/-! ## The protocol -/

/-- The event protocol of a client, at one moment of its life. -/
structure EventProtocol (s : Session τ) : Prop where
  /-- Events are returned for handles that were given out only. -/
  known : ∀ e ∈ s.returned, (s.kinds e.eventFlow).isSome
  /-- What has been returned for a handle is the beginning of a whole story. -/
  story : ∀ h kind, s.kinds h = some kind →
    ∃ full, Complete h kind full ∧ about h s.returned <+: full
  /-- The next poll returns nothing for a handle whose terminal event was returned. -/
  afterTerminal : ∀ nowMs, ∀ e ∈ (s.client.poll nowMs).1, ¬ s.Settled e.eventFlow
  /-- Nor for a handle that was given up. -/
  afterAbort : ∀ nowMs, ∀ e ∈ (s.client.poll nowMs).1, s.aborted e.eventFlow = false
  /-- Once the transport lets a connection go, its handle is owed a terminal event, -/
  gone : ∀ c h, s.GoneBy c h → s.aborted h = false → (s.call c).Owed h
  /-- stays so until it is given up, -/
  kept : ∀ c h, s.Owed h → c ≠ .tcpAbort h → (s.call c).Owed h
  /-- and has been paid by the end of every poll. -/
  paid : ∀ nowMs h, (s.call (.poll nowMs)).Owed h → (s.call (.poll nowMs)).Settled h
  /-- A poll leaves two tables that are each other's inverse and hold no dead flow. -/
  tables : ∀ nowMs, Indexed (s.client.poll nowMs).2 ∧
    ∀ h flow, (s.client.poll nowMs).2.flows.lookup h = some flow → flow.state ≠ .dead

theorem Tracks.not_settled (he : e ∈ (s.client.poll nowMs).1) : ¬ s.Settled e.eventFlow := by
  rintro ⟨last, hlast, hflow, hterminal⟩
  obtain ⟨kind, hkind⟩ := Option.isSome_iff_exists.1 (hs.returned last hlast)
  rw [hflow] at hkind
  -- What this poll returns comes after the terminal event in the story of the handle.
  obtain ⟨full, hfull, hpre⟩ := (hs.poll nowMs).story hkind
  rw [show (s.call (.poll nowMs)).returned = s.returned ++ (s.client.poll nowMs).1 from rfl,
    about_append] at hpre
  have hnil := hfull.eq_nil_of_terminal hpre ⟨last, mem_about.2 ⟨hlast, hflow⟩, hterminal⟩
  exact absurd (mem_about.2 ⟨he, rfl⟩) (by rw [hnil]; simp)

theorem Tracks.not_aborted (he : e ∈ (s.client.poll nowMs).1) : s.aborted e.eventFlow = false :=
  ((hs.digested nowMs).queued e he).2

end

/-- Every client keeps the event protocol, over every transport and along every run. -/
theorem eventProtocol_of_reaches (h : Reaches s) : s.EventProtocol where
  known := h.tracks.returned
  story _ _ hkind := h.tracks.story hkind
  afterTerminal _ _ he := h.tracks.not_settled he
  afterAbort _ _ he := h.tracks.not_aborted he
  gone _ _ hgone hkept := hgone.owed h.tracks hkept
  kept _ _ howed hc := howed.call h.tracks hc
  paid _ _ howed := howed.settled h.tracks
  tables nowMs := ⟨(h.tracks.poll nowMs).index, fun _ _ hflow => ne_dead_of_poll _ nowMs hflow⟩

end Session

/-! ## Runs over a scripted transport -/

/-- A transport that opens the connections and reports the events it was told to. -/
structure Script where
  conns : List ConnId
  batches : List (List TransportEvent)

instance : RelayTransport Script where
  connect t _ := (t.conns.head?, { t with conns := t.conns.tail })
  sendText t _ _ := (true, t)
  sendBinary t _ _ := (true, t)
  bufferedAmount _ _ := 0
  close t _ := t
  poll t _ := (t.batches.headD [], { t with batches := t.batches.tail })

namespace Session

/-- One flow that connects, delivers a byte and ends, and whose connection is then closed. -/
def scripted : Session Script :=
  (((start ⟨[1], [[.opened 1, .text 1 "OK", .binary 1 [7]], [.text 1 "EOF\n", .closed 1]]⟩
    "ws://127.0.0.1:7654").call (.tcpConnect ⟨93, 184, 216, 34⟩ 80)).call (.poll 0)).call (.poll 5)

theorem eventProtocol_scripted :
    scripted.returned = [tcpConnected 1, tcpData 1 [7], tcpClosed 1] ∧ scripted.EventProtocol := by
  refine ⟨by decide, eventProtocol_of_reaches ?_⟩
  refine .call _ (.call _ (.call _ (.start _ _) ?_) trivial) trivial
  intro conn _ h flow hflow
  exact absurd hflow (by simp [start, RelayClient.new])

/-- As `Admits`, but the connection may be that of a dead flow which no poll has reaped yet. -/
def AdmitsLive {τ : Type} [RelayTransport τ] (s : Session τ) : Call → Prop
  | .tcpConnect _ _ | .dnsResolve _ =>
    ∀ conn, (RelayTransport.connect s.client.transport s.client.url).1 = some conn →
      ∀ h flow, s.client.flows.lookup h = some flow → flow.state ≠ .dead → flow.conn ≠ conn
  | _ => True

inductive ReachesLive {τ : Type} [RelayTransport τ] : Session τ → Prop
  | start (transport : τ) (url : String) : ReachesLive (start transport url)
  | call {s : Session τ} (c : Call) : ReachesLive s → s.AdmitsLive c → ReachesLive (s.call c)

/-- A connection that is given up before it is open leaves a dead flow. -/
def givenUp : Session Script :=
  ((start ⟨[7, 7], [[], [.closed 7]]⟩ "ws://127.0.0.1:7654").call
    (.tcpConnect ⟨93, 184, 216, 34⟩ 80)).call (.tcpClose 1)

/-- The transport uses the id of the dead flow again. -/
def reused : Session Script :=
  givenUp.call (.tcpConnect ⟨93, 184, 216, 34⟩ 80)

theorem reachesLive_reused : ReachesLive reused := by
  refine .call _ (.call _ (.call _ (.start _ _) fun _ _ _ _ h => nomatch h) trivial) ?_
  intro conn _ h flow hflow hlive
  have hmem : h ∈ givenUp.client.flows.keys := AList.lookup_isSome.1 (by rw [hflow]; rfl)
  obtain rfl : h = 1 := List.mem_singleton.1 hmem
  have hdead : (givenUp.client.flows.lookup 1).map Flow.state = some .dead := by decide
  rw [hflow] at hdead
  exact absurd (Option.some.inj hdead) hlive

/-- Reaping the dead flow drops the index entry of the new one: the tables disagree, and the poll
that reports the end of its connection returns nothing for it. -/
theorem not_eventProtocol_reused :
    ReachesLive reused ∧ ¬ reused.EventProtocol ∧ (reused.call (.poll 0)).GoneBy (.poll 5) 2 ∧
      ((reused.call (.poll 0)).call (.poll 5)).returned = [tcpError 1 .unreachable] := by
  have hconn : ((reused.call (.poll 0)).client.flows.lookup 2).map Flow.conn = some 7 := by decide
  obtain ⟨flow, hflow, hseven⟩ := Option.map_eq_some_iff.1 hconn
  refine ⟨reachesLive_reused, fun h => ?_, .reported hflow List.mem_cons_self ?_, by decide⟩
  · have hindex := ((h.tables 0).1 2 7).2 ⟨flow, hflow, hseven⟩
    exact absurd hindex (by decide)
  · rw [hseven]
    exact .inl rfl

end Session

end RelayClient

end EmulateComputer
