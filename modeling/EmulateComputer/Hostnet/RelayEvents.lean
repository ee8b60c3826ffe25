import EmulateComputer.Hostnet.RelayClient

/-!
# RelayEvents — what one operation of the relay client can report

`Moves` lists every event the client can queue together with the change of state it goes with;
`Told` says what has been reported by the time a flow is in a given state.  Digesting a transport
event, sending and half-closing are each an `Advance`: at most one flow moves, with its event.
Flows come and go only through `connect`, `reap` and `tcpAbort`, which keep the connection index
the inverse of the flow table.
-/

namespace EmulateComputer

namespace RelayClient

open SubstrateEvent

/-! ## Stories -/

section Stories

/-- The whole life of a handle, as its caller sees it. -/
def Complete (handle : FlowHandle) : FlowKind → List SubstrateEvent → Prop
  | .tcp, events =>
    (∃ error, events = [tcpError handle error]) ∨
      ∃ (data : List (List U8)) (last : SubstrateEvent),
        (last = tcpClosed handle ∨ ∃ error, last = tcpError handle error) ∧
          events = tcpConnected handle :: data.map (tcpData handle) ++ [last]
  | .dns, events =>
    (∃ addrs, events = [dnsResolved handle addrs]) ∨ ∃ error, events = [dnsFailed handle error]

/-- What has been reported by the time the flow is in a state; `none` when it is gone. -/
def Told (handle : FlowHandle) (kind : FlowKind) :
    Option FlowState → List SubstrateEvent → Prop
  | some .connecting, events => events = []
  | some .opened, events =>
    kind = .tcp ∧
      ∃ data : List (List U8), events = tcpConnected handle :: data.map (tcpData handle)
  | some .dead, events | none, events => Complete handle kind events

/-- The events the client queues, each with the state it leaves and the state it enters.  The last
one cannot happen: a name lookup is never open. -/
inductive Moves (handle : FlowHandle) : FlowKind → FlowState → SubstrateEvent → FlowState → Prop
  | connected : Moves handle .tcp .connecting (tcpConnected handle) .opened
  | data (data) : Moves handle .tcp .opened (tcpData handle data) .opened
  | closed : Moves handle .tcp .opened (tcpClosed handle) .dead
  | refused (error) : Moves handle .tcp .connecting (tcpError handle error) .dead
  | reset (error) : Moves handle .tcp .opened (tcpError handle error) .dead
  | resolved (addrs) : Moves handle .dns .connecting (dnsResolved handle addrs) .dead
  | failed (error) : Moves handle .dns .connecting (dnsFailed handle error) .dead
  | stray (error) : Moves handle .dns .opened (tcpError handle error) .dead

variable {handle : FlowHandle} {kind : FlowKind} {state state' : FlowState}
  {event : SubstrateEvent} {events : List SubstrateEvent}

theorem Moves.eventFlow (h : Moves handle kind state event state') : event.eventFlow = handle := by
  cases h <;> rfl

theorem Moves.ne_dead (h : Moves handle kind state event state') : state ≠ .dead := by
  cases h <;> simp

theorem Told.move (ht : Told handle kind (some state) events)
    (h : Moves handle kind state event state') :
    Told handle kind (some state') (events ++ [event]) := by
  cases h with
  | connected =>
    obtain rfl := ht
    exact ⟨rfl, [], rfl⟩
  | data data =>
    obtain ⟨_, before, rfl⟩ := ht
    exact ⟨rfl, before ++ [data], by simp⟩
  | closed =>
    obtain ⟨_, data, rfl⟩ := ht
    exact .inr ⟨data, _, .inl rfl, rfl⟩
  | refused error =>
    obtain rfl := ht
    exact .inl ⟨error, rfl⟩
  | reset error =>
    obtain ⟨_, data, rfl⟩ := ht
    exact .inr ⟨data, _, .inr ⟨error, rfl⟩, rfl⟩
  | resolved addrs =>
    obtain rfl := ht
    exact .inl ⟨addrs, rfl⟩
  | failed error =>
    obtain rfl := ht
    exact .inr ⟨error, rfl⟩
  | stray error => exact absurd ht.1 (by simp)

/-- Every story that has begun can be brought to an end. -/
theorem Told.extends {state : Option FlowState} (ht : Told handle kind state events) :
    ∃ full, Complete handle kind full ∧ events <+: full := by
  match state, ht with
  | some .connecting, ht =>
    obtain rfl := ht
    cases kind with
    | tcp => exact ⟨[tcpError handle .reset], .inl ⟨.reset, rfl⟩, List.nil_prefix⟩
    | dns => exact ⟨[dnsFailed handle .servFail], .inr ⟨.servFail, rfl⟩, List.nil_prefix⟩
  | some .opened, ht =>
    obtain ⟨rfl, data, rfl⟩ := ht
    exact ⟨_, .inr ⟨data, tcpClosed handle, .inl rfl, rfl⟩, List.prefix_append _ _⟩
  | some .dead, ht => exact ⟨events, ht, List.prefix_rfl⟩
  | none, ht => exact ⟨events, ht, List.prefix_rfl⟩

/-- A whole story ends in the only terminal event in it. -/
theorem Complete.eq_concat (h : Complete handle kind events) :
    ∃ before last, events = before ++ [last] ∧ last.IsTerminal ∧ ∀ e ∈ before, ¬ e.IsTerminal := by
  cases kind with
  | tcp =>
    rcases h with ⟨error, rfl⟩ | ⟨data, last, hlast, rfl⟩
    · exact ⟨[], _, rfl, trivial, by simp⟩
    · refine ⟨_, last, rfl, ?_, ?_⟩
      · rcases hlast with rfl | ⟨error, rfl⟩ <;> trivial
      · simp [IsTerminal]
  | dns =>
    rcases h with ⟨addrs, rfl⟩ | ⟨error, rfl⟩
    · exact ⟨[], _, rfl, trivial, by simp⟩
    · exact ⟨[], _, rfl, trivial, by simp⟩

/-- Nothing follows a terminal event in the beginning of a whole story. -/
theorem Complete.eq_nil_of_terminal {full before after : List SubstrateEvent}
    (h : Complete handle kind full) (hpre : before ++ after <+: full)
    (hterminal : ∃ e ∈ before, e.IsTerminal) : after = [] := by
  obtain ⟨early, last, rfl, -, hearly⟩ := h.eq_concat
  obtain ⟨e, he, hend⟩ := hterminal
  by_contra hne
  have hbefore : before <+: early := by
    rcases List.prefix_concat_iff.1 hpre with heq | hpre
    · rw [← List.dropLast_append_getLast hne, ← List.append_assoc] at heq
      exact ⟨_, (List.append_inj' heq rfl).1⟩
    · exact (List.prefix_append before after).trans hpre
  exact hearly e (hbefore.subset he) hend

end Stories

/-! ## What one operation can do -/

section Advance

variable {τ : Type}

/-- At most one flow moves, with its event; no flow comes or goes. -/
def Advance (c c' : RelayClient τ) : Prop :=
  c'.byConn = c.byConn ∧ c'.nextHandle = c.nextHandle ∧
    (c'.flows = c.flows ∧ c'.events = c.events ∨
      ∃ handle flow state event, c.flows.lookup handle = some flow ∧
        Moves handle flow.kind flow.state event state ∧
        (∀ h, c'.flows.lookup h =
          if h = handle then some { flow with state } else c.flows.lookup h) ∧
        c'.events = c.events ++ [event])

theorem Advance.of_eq {c c' : RelayClient τ} (hbyConn : c'.byConn = c.byConn)
    (hnext : c'.nextHandle = c.nextHandle) (hflows : c'.flows = c.flows)
    (hevents : c'.events = c.events) : Advance c c' :=
  ⟨hbyConn, hnext, .inl ⟨hflows, hevents⟩⟩

variable (c : RelayClient τ)

theorem Advance.refl : Advance c c :=
  .of_eq rfl rfl rfl rfl

theorem advance_advance {c : RelayClient τ} {handle : FlowHandle} {flow : Flow}
    {state : FlowState} {event : SubstrateEvent} (hflow : c.flows.lookup handle = some flow)
    (h : Moves handle flow.kind flow.state event state) :
    Advance c (c.advance handle state event) := by
  exact ⟨rfl, rfl, .inr ⟨handle, flow, state, event, hflow, h,
    Table.lookup_modify_of_lookup hflow, rfl⟩⟩

theorem advance_gone (handle : FlowHandle) : Advance c (c.gone handle) := by
  unfold gone
  cases hflow : c.flows.lookup handle with
  | none => exact .refl c
  | some flow =>
    obtain ⟨conn, kind, state, command⟩ := flow
    cases state with
    | dead => exact .refl c
    | connecting =>
      cases kind with
      | tcp => exact advance_advance hflow (.refused _)
      | dns => exact advance_advance hflow (.failed _)
    | opened =>
      cases kind with
      | tcp => exact advance_advance hflow (.reset _)
      | dns => exact advance_advance hflow (.stray _)

theorem moves_dnsAnswer (handle : FlowHandle) (text : List Char) :
    Moves handle .dns .connecting (dnsAnswer handle text) .dead := by
  unfold dnsAnswer
  cases Text.stripPrefix "IP " text with
  | none => exact .failed _
  | some list =>
    dsimp only
    split
    · exact .failed _
    · exact .resolved _

theorem advance_onText (handle : FlowHandle) (text : List Char) :
    Advance c (c.onText handle text) := by
  unfold onText
  cases hflow : c.flows.lookup handle with
  | none => exact .refl c
  | some flow =>
    obtain ⟨conn, kind, state, command⟩ := flow
    cases state with
    | dead => exact .refl c
    | connecting =>
      cases kind with
      | tcp =>
        dsimp only
        split
        · exact advance_advance hflow .connected
        · exact advance_advance hflow (.refused _)
      | dns => exact advance_advance hflow (moves_dnsAnswer handle text)
    | opened =>
      cases kind with
      | tcp =>
        dsimp only
        split
        · exact advance_advance hflow .closed
        · exact .refl c
      | dns => exact .refl c

variable [RelayTransport τ]

theorem advance_onTransport (event : TransportEvent) : Advance c (c.onTransport event) := by
  unfold onTransport
  cases c.byConn.lookup event.conn with
  | none => exact .refl c
  | some handle =>
    cases event with
    | opened conn =>
      dsimp only
      cases hflow : c.flows.lookup handle with
      | none => exact .refl c
      | some flow =>
        dsimp only
        split
        · rcases RelayTransport.sendText c.transport conn flow.command with
            ⟨_ | _, transport⟩
          · exact advance_gone { c with transport } handle
          · exact .of_eq rfl rfl rfl rfl
        · exact .refl c
    | text conn text => exact advance_onText c handle _
    | binary conn data =>
      dsimp only
      cases hflow : c.flows.lookup handle with
      | none => exact .refl c
      | some flow =>
        dsimp only
        split
        · next hopen =>
          obtain ⟨hstate, hkind, _⟩ := hopen
          have hmove : Moves handle flow.kind flow.state (tcpData handle data)
              flow.state := by
            rw [hstate, hkind]
            exact .data data
          refine ⟨rfl, rfl, .inr ⟨handle, flow, _, _, hflow, hmove, fun h => ?_, rfl⟩⟩
          split
          · next heq => rw [heq, hflow]
          · rfl
        · exact .refl c
    | closed conn | error conn => exact advance_gone c handle

theorem advance_tcpSend (flow : FlowHandle) (data : List U8) :
    Advance c (c.tcpSend flow data).2 := by
  unfold tcpSend
  cases c.flows.lookup flow with
  | none => exact .refl c
  | some entry =>
    dsimp only
    split
    · exact .refl c
    · split
      · exact .refl c
      · rcases RelayTransport.sendBinary c.transport entry.conn _ with ⟨_ | _, transport⟩
        · exact advance_gone { c with transport } flow
        · exact .of_eq rfl rfl rfl rfl

theorem advance_tcpClose (flow : FlowHandle) : Advance c (c.tcpClose flow) := by
  unfold tcpClose
  cases c.flows.lookup flow with
  | none => exact .refl c
  | some entry =>
    obtain ⟨conn, kind, state, command⟩ := entry
    cases state with
    | dead => exact .refl c
    | connecting =>
      exact advance_gone { c with transport := RelayTransport.close c.transport conn } flow
    | opened =>
      dsimp only
      rcases RelayTransport.sendText c.transport conn "FIN" with ⟨_ | _, transport⟩
      · exact advance_gone { c with transport } flow
      · exact .of_eq rfl rfl rfl rfl

end Advance

/-! ## Connections that have ended -/

section Ended

variable {τ : Type}

/-- No live connection stands behind a handle. -/
def Ended (c : RelayClient τ) (handle : FlowHandle) : Prop :=
  ∀ flow, c.flows.lookup handle = some flow → flow.state = .dead

theorem Ended.advance {c c' : RelayClient τ} {handle : FlowHandle} (hc : Ended c handle)
    (h : Advance c c') : Ended c' handle := by
  obtain ⟨-, -, ⟨hflows, -⟩ | ⟨moved, flow, state, event, hflow, hmove, hflows, -⟩⟩ := h
  · unfold Ended
    rw [hflows]
    exact hc
  · intro f hf
    rw [hflows] at hf
    split at hf
    · next heq =>
      subst heq
      exact absurd (hc flow hflow) hmove.ne_dead
    · exact hc f hf

theorem ended_gone (c : RelayClient τ) (handle : FlowHandle) : Ended (c.gone handle) handle := by
  intro f hf
  unfold gone at hf
  cases hflow : c.flows.lookup handle with
  | none =>
    rw [hflow] at hf
    exact absurd (hflow.symm.trans hf) (by simp)
  | some flow =>
    obtain ⟨conn, kind, state, command⟩ := flow
    rw [hflow] at hf
    cases state with
    | dead =>
      rw [← Option.some.inj (hflow.symm.trans hf)]
    | connecting =>
      cases kind <;>
      · simp only [advance, Table.lookup_modify, hflow, if_pos, Option.map_some] at hf
        rw [← Option.some.inj hf]
    | opened =>
      simp only [advance, Table.lookup_modify, hflow, if_pos, Option.map_some] at hf
      rw [← Option.some.inj hf]

variable [RelayTransport τ]

theorem Ended.digest {c : RelayClient τ} {handle : FlowHandle} (hc : Ended c handle)
    (batch : List TransportEvent) : Ended (batch.foldl onTransport c) handle := by
  induction batch generalizing c with
  | nil => exact hc
  | cons event batch ih => exact ih (hc.advance (advance_onTransport c event))

theorem byConn_digest (c : RelayClient τ) (batch : List TransportEvent) :
    (batch.foldl onTransport c).byConn = c.byConn := by
  induction batch generalizing c with
  | nil => rfl
  | cons event batch ih => exact (ih _).trans (advance_onTransport c event).1

end Ended

/-! ## The two tables -/

section Tables

variable {τ : Type} {c : RelayClient τ} {handle : FlowHandle}

/-- The connection index is the inverse of the flow table. -/
def Indexed (c : RelayClient τ) : Prop :=
  ∀ handle conn, c.byConn.lookup conn = some handle ↔
    ∃ flow, c.flows.lookup handle = some flow ∧ flow.conn = conn

theorem Indexed.advance {c' : RelayClient τ} (hc : Indexed c) (h : Advance c c') : Indexed c' := by
  obtain ⟨hbyConn, -, hsame | ⟨moved, flow, state, event, hflow, -, hflows, -⟩⟩ := h
  · intro handle conn
    rw [hbyConn, hsame.1]
    exact hc handle conn
  · intro handle conn
    rw [hbyConn, hflows]
    split
    · next heq =>
      rw [heq, hc moved conn, hflow]
      simp
    · exact hc handle conn

theorem Indexed.insert (hc : Indexed c) (flow : Flow) (transport : τ)
    (hnew : c.flows.lookup handle = none)
    (hfresh : ∀ h f, c.flows.lookup h = some f → f.conn ≠ flow.conn) :
    Indexed { c with
      transport, nextHandle := handle + 1, byConn := c.byConn.insert flow.conn handle,
      flows := c.flows.insert handle flow } := by
  intro h conn
  simp only [Table.lookup_insert]
  by_cases hconn : conn = flow.conn
  · rw [if_pos hconn]
    by_cases hh : h = handle
    · simp [hh, hconn]
    · rw [if_neg hh]
      constructor
      · exact fun heq => absurd (Option.some.inj heq).symm hh
      · rintro ⟨f, hf, hfconn⟩
        exact absurd (hfconn.trans hconn) (hfresh h f hf)
  · rw [if_neg hconn, hc h conn]
    by_cases hh : h = handle
    · rw [if_pos hh, hh, hnew]
      simp [Ne.symm hconn]
    · rw [if_neg hh]

theorem mem_deadFlows :
    handle ∈ c.deadFlows ↔ ∃ flow, c.flows.lookup handle = some flow ∧ flow.state = .dead := by
  unfold deadFlows
  simp only [List.mem_map, List.mem_filter, decide_eq_true_eq]
  constructor
  · rintro ⟨⟨h, flow⟩, ⟨hmem, hdead⟩, rfl⟩
    exact ⟨flow, Table.mem_entries_iff.1 hmem, hdead⟩
  · rintro ⟨flow, hflow, hdead⟩
    exact ⟨⟨handle, flow⟩, ⟨Table.mem_entries_iff.2 hflow, hdead⟩, rfl⟩

variable [RelayTransport τ]

theorem lookup_reap (c : RelayClient τ) (handle h : FlowHandle) :
    (c.reap handle).flows.lookup h = if h = handle then none else c.flows.lookup h := by
  unfold reap
  cases hflow : c.flows.lookup handle with
  | none =>
    dsimp only
    split
    · next heq => rw [heq, hflow]
    · rfl
  | some flow => exact Table.lookup_erase c.flows handle h

theorem events_reap (c : RelayClient τ) (handle : FlowHandle) :
    (c.reap handle).events = c.events := by
  unfold reap
  cases c.flows.lookup handle <;> rfl

theorem nextHandle_reap (c : RelayClient τ) (handle : FlowHandle) :
    (c.reap handle).nextHandle = c.nextHandle := by
  unfold reap
  cases c.flows.lookup handle <;> rfl

theorem Indexed.reap (hc : Indexed c) (handle : FlowHandle) : Indexed (c.reap handle) := by
  intro h conn
  rw [lookup_reap]
  unfold RelayClient.reap
  cases hflow : c.flows.lookup handle with
  | none =>
    rw [hc h conn]
    split
    · next heq => rw [heq, hflow]
    · rfl
  | some flow =>
    rw [Table.lookup_erase]
    by_cases hconn : conn = flow.conn
    · -- The only flow on this connection is the one that goes.
      rw [if_pos hconn]
      constructor
      · exact fun heq => absurd heq (by simp)
      · rintro ⟨f, hf, hfconn⟩
        split at hf
        · exact absurd hf (by simp)
        · next hne =>
          have hother := (hc h conn).2 ⟨f, hf, hfconn⟩
          have hthis := (hc handle conn).2 ⟨flow, hflow, hconn.symm⟩
          exact absurd (Option.some.inj (hother.symm.trans hthis)) hne
    · rw [if_neg hconn, hc h conn]
      split
      · next heq =>
        rw [heq, hflow]
        simp [Ne.symm hconn]
      · rfl

theorem lookup_foldl_reap (handles : List FlowHandle) (c : RelayClient τ) (h : FlowHandle) :
    (handles.foldl reap c).flows.lookup h =
      if h ∈ handles then none else c.flows.lookup h := by
  induction handles generalizing c with
  | nil => simp
  | cons handle handles ih =>
    rw [List.foldl_cons, ih, lookup_reap]
    by_cases hmem : h ∈ handles
    · simp [hmem]
    · by_cases heq : h = handle <;> simp [hmem, heq]

theorem lookup_tcpAbort (c : RelayClient τ) (flow h : FlowHandle) :
    (c.tcpAbort flow).flows.lookup h = if h = flow then none else c.flows.lookup h := by
  unfold tcpAbort
  rw [lookup_reap, Table.lookup_modify]
  split <;> rfl

theorem events_tcpAbort (c : RelayClient τ) (flow : FlowHandle) :
    (c.tcpAbort flow).events = c.events.filter fun event => event.eventFlow ≠ flow := by
  unfold tcpAbort
  dsimp only
  rw [events_reap]

theorem nextHandle_tcpAbort (c : RelayClient τ) (flow : FlowHandle) :
    (c.tcpAbort flow).nextHandle = c.nextHandle := by
  unfold tcpAbort
  rw [nextHandle_reap]

theorem Indexed.tcpAbort (hc : Indexed c) (flow : FlowHandle) : Indexed (c.tcpAbort flow) := by
  -- Marking the flow dead does not change its connection.
  have hmarked : Indexed { c with
      flows := c.flows.modify flow fun entry => { entry with state := .dead } } := by
    intro h conn
    rw [Table.lookup_modify, hc h conn]
    split
    · simp
    · rfl
  exact hmarked.reap flow

theorem events_foldl_reap (handles : List FlowHandle) (c : RelayClient τ) :
    (handles.foldl RelayClient.reap c).events = c.events := by
  induction handles generalizing c with
  | nil => rfl
  | cons handle handles ih => exact (ih _).trans (events_reap c handle)

end Tables

end RelayClient

end EmulateComputer
