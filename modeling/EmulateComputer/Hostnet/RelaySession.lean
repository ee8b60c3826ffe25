import EmulateComputer.Hostnet.RelayEvents

/-!
# RelaySession — the relay client along every run

A `Session` is a client together with what has passed between it and its caller.  `Tracks` relates
the two: what was returned for a handle and what is queued for it are, put together, `Told` for the
state its flow is in.  Every call keeps it, over any transport, as long as a connection the
transport opens is none of those in use.
-/

namespace EmulateComputer

open Function (update update_self update_of_ne)

namespace RelayClient

open SubstrateEvent

variable {τ : Type}

/-! ## Sessions -/

inductive Call
  | tcpConnect (dst : Ipv4) (port : U16)
  | dnsResolve (name : String)
  | tcpSend (flow : FlowHandle) (data : List U8)
  | tcpClose (flow : FlowHandle)
  | tcpAbort (flow : FlowHandle)
  | poll (nowMs : U64)

/-- A client and what has passed between it and its caller so far: which handles were given out
and for what, the events polls returned, and the handles the caller gave up. -/
structure Session (τ : Type) where
  client : RelayClient τ
  kinds : FlowHandle → Option FlowKind
  returned : List SubstrateEvent
  aborted : FlowHandle → Bool

namespace Session

def start (transport : τ) (url : String) : Session τ :=
  { client := .new transport url, kinds := fun _ => none, returned := []
    aborted := fun _ => false }

/-- The end of a handle's story has been returned. -/
def Settled (s : Session τ) (handle : FlowHandle) : Prop :=
  ∃ e ∈ s.returned, e.eventFlow = handle ∧ e.IsTerminal

/-- A handle the caller holds has no live connection behind it any more. -/
structure Owed (s : Session τ) (handle : FlowHandle) : Prop where
  held : (s.kinds handle).isSome
  kept : s.aborted handle = false
  ended : Ended s.client handle

/-- What relates a client to its past. -/
structure Tracks (s : Session τ) : Prop where
  handles : ∀ h, s.client.nextHandle ≤ h → s.kinds h = none
  aborted : ∀ h, s.aborted h = true → (s.kinds h).isSome
  returned : ∀ e ∈ s.returned, (s.kinds e.eventFlow).isSome
  queued : ∀ e ∈ s.client.events, (s.kinds e.eventFlow).isSome ∧ s.aborted e.eventFlow = false
  flows : ∀ h flow, s.client.flows.lookup h = some flow →
    s.kinds h = some flow.kind ∧ s.aborted h = false
  index : Indexed s.client
  told : ∀ h kind, s.kinds h = some kind → s.aborted h = false →
    Told h kind ((s.client.flows.lookup h).map (·.state))
      (about h (s.returned ++ s.client.events))
  given : ∀ h kind, s.kinds h = some kind → s.aborted h = true →
    ∃ full, Complete h kind full ∧ about h s.returned <+: full

theorem tracks_start (transport : τ) (url : String) : (start transport url).Tracks where
  handles _ _ := rfl
  aborted _ h := absurd h (by simp [start])
  returned _ h := absurd h (by simp [start])
  queued _ h := absurd h (by simp [start, RelayClient.new])
  flows _ _ h := absurd h (by simp [start, RelayClient.new])
  index _ _ := by simp [start, RelayClient.new]
  told _ _ h _ := absurd h (by simp [start])
  given _ _ h _ := absurd h (by simp [start])

variable {s : Session τ}

section

variable (hs : s.Tracks)

include hs

variable {h : FlowHandle} {c : RelayClient τ} {kind : FlowKind}

/-- Nothing has been said about a handle that was not given out. -/
theorem Tracks.about_eq_nil (hnone : s.kinds h = none) :
    about h (s.returned ++ s.client.events) = [] := by
  rw [SubstrateEvent.about_eq_nil]
  rintro e he rfl
  rcases List.mem_append.1 he with he | he
  · exact absurd (hs.returned e he) (by simp [hnone])
  · exact absurd (hs.queued e he).1 (by simp [hnone])

theorem Tracks.lookup_eq_none (hnone : s.kinds h = none) : s.client.flows.lookup h = none := by
  cases hflow : s.client.flows.lookup h with
  | none => rfl
  | some flow => exact absurd (hs.flows h flow hflow).1 (by simp [hnone])

theorem Tracks.story (hkind : s.kinds h = some kind) :
    ∃ full, Complete h kind full ∧ about h s.returned <+: full := by
  by_cases habort : s.aborted h = true
  · exact hs.given h kind hkind habort
  · obtain ⟨full, hfull, hpre⟩ := (hs.told h kind hkind (by simpa using habort)).extends
    rw [about_append] at hpre
    exact ⟨full, hfull, (List.prefix_append _ _).trans hpre⟩

theorem Tracks.advance (hadv : Advance s.client c) : Tracks { s with client := c } := by
  have hindex := hs.index.advance hadv
  obtain ⟨-, hnext,
    ⟨hflows, hevents⟩ | ⟨moved, flow, state, event, hflow, hmove, hflows, hevents⟩⟩ := hadv
  · exact
      { hs with
        handles := fun h hle => hs.handles h (hnext ▸ hle)
        queued := by simpa only [hevents] using hs.queued
        flows := by simpa only [hflows] using hs.flows
        index := hindex
        told := by simpa only [hflows, hevents] using hs.told }
  · obtain ⟨hkind, habort⟩ := hs.flows moved flow hflow
    refine { hs with
      handles := fun h hle => hs.handles h (hnext ▸ hle), queued := ?_, flows := ?_,
      index := hindex, told := ?_ }
    · intro e he
      rw [hevents] at he
      rcases List.mem_append.1 he with he | he
      · exact hs.queued e he
      · rw [List.mem_singleton.1 he, hmove.eventFlow, hkind]
        exact ⟨rfl, habort⟩
    · intro h f hf
      rw [hflows] at hf
      split at hf
      · next heq =>
        obtain rfl := Option.some.inj hf
        rw [heq]
        exact ⟨hkind, habort⟩
      · exact hs.flows h f hf
    · intro h kind hk hab
      rw [hflows, hevents, ← List.append_assoc, about_append]
      split
      · next heq =>
        subst heq
        obtain rfl := Option.some.inj (hk.symm.trans hkind)
        have htold := hs.told h flow.kind hk hab
        rw [hflow] at htold
        have hself : about h [event] = [event] := by
          rw [← hmove.eventFlow]
          exact about_singleton_self event
        rw [hself]
        exact htold.move hmove
      · next hne =>
        rw [about_singleton_ne (by rw [hmove.eventFlow]; exact Ne.symm hne), List.append_nil]
        exact hs.told h kind hk hab

theorem Tracks.allot (new : List SubstrateEvent) (hnext : c.nextHandle = s.client.nextHandle + 1)
    (hevents : c.events = s.client.events ++ new) (hindex : Indexed c)
    (hnew : ∀ e ∈ new, e.eventFlow = s.client.nextHandle)
    (hflows : ∀ h, h ≠ s.client.nextHandle → c.flows.lookup h = s.client.flows.lookup h)
    (hkind : ∀ flow, c.flows.lookup s.client.nextHandle = some flow → flow.kind = kind)
    (htold : Told s.client.nextHandle kind
      ((c.flows.lookup s.client.nextHandle).map (·.state)) new) :
    Tracks { s with
      client := c, kinds := update s.kinds s.client.nextHandle (some kind) } := by
  have hnone := hs.handles s.client.nextHandle le_rfl
  have hheld : ∀ h, (s.kinds h).isSome → h ≠ s.client.nextHandle := by
    rintro h hsome rfl
    exact absurd hsome (by simp [hnone])
  have hkinds : ∀ h, (s.kinds h).isSome →
      (update s.kinds s.client.nextHandle (some kind) h).isSome := fun h hsome => by
    rwa [update_of_ne (hheld h hsome)]
  have habort : s.aborted s.client.nextHandle = false := by
    by_contra hab
    exact hheld _ (hs.aborted _ (by simpa using hab)) rfl
  have hall : about s.client.nextHandle new = new := by
    rw [about, List.filter_eq_self]
    exact fun e he => by simp [hnew e he]
  refine
    { handles := fun h hle => ?_, aborted := fun h hab => hkinds h (hs.aborted h hab),
      returned := fun e he => hkinds _ (hs.returned e he), queued := fun e he => ?_,
      flows := fun h flow hflow => ?_, index := hindex, told := fun h k hk hab => ?_,
      given := fun h k hk hab => ?_ }
  · rw [hnext] at hle
    have hlt : s.client.nextHandle < h := hle
    dsimp only
    rw [update_of_ne hlt.ne']
    exact hs.handles h hlt.le
  · rw [hevents] at he
    rcases List.mem_append.1 he with he | he
    · exact ⟨hkinds _ (hs.queued e he).1, (hs.queued e he).2⟩
    · dsimp only
      rw [hnew e he, update_self]
      exact ⟨rfl, habort⟩
  · dsimp only at hflow ⊢
    by_cases heq : h = s.client.nextHandle
    · subst heq
      rw [update_self, hkind flow hflow]
      exact ⟨rfl, habort⟩
    · rw [update_of_ne heq]
      rw [hflows h heq] at hflow
      exact hs.flows h flow hflow
  · dsimp only at hk hab ⊢
    rw [hevents, ← List.append_assoc, about_append]
    by_cases heq : h = s.client.nextHandle
    · subst heq
      rw [update_self] at hk
      obtain rfl := Option.some.inj hk
      rw [hs.about_eq_nil hnone, List.nil_append, hall]
      exact htold
    · rw [update_of_ne heq] at hk
      have hother : about h new = [] :=
        SubstrateEvent.about_eq_nil.2 fun e he => by rw [hnew e he]; exact Ne.symm heq
      rw [hother, List.append_nil, hflows h heq]
      exact hs.told h k hk hab
  · dsimp only at hk hab ⊢
    by_cases heq : h = s.client.nextHandle
    · rw [heq, habort] at hab
      exact absurd hab (by simp)
    · rw [update_of_ne heq] at hk
      exact hs.given h k hk hab

theorem Tracks.drain :
    Tracks { s with
      client := { s.client with events := [] }, returned := s.returned ++ s.client.events } :=
  { hs with
    returned e he := by
      rcases List.mem_append.1 he with he | he
      · exact hs.returned e he
      · exact (hs.queued e he).1
    queued _ he := absurd he (by simp)
    told h kind hk hab := by simpa using hs.told h kind hk hab
    given h kind hk hab := by
      -- Nothing is queued for a handle the caller gave up.
      have hnil : about h s.client.events = [] := SubstrateEvent.about_eq_nil.2 fun e he heq => by
        rw [← heq, (hs.queued e he).2] at hab
        exact absurd hab (by simp)
      rw [about_append, hnil, List.append_nil]
      exact hs.given h kind hk hab }

end

variable [RelayTransport τ]

/-- The flow of a story that has been told leaves the tables. -/
theorem Tracks.reap (hs : s.Tracks) {handle : FlowHandle}
    (hdead : ∀ flow, s.client.flows.lookup handle = some flow → flow.state = .dead) :
    Tracks { s with client := s.client.reap handle } := by
  refine
    { hs with
      handles := fun h hle => hs.handles h (nextHandle_reap s.client handle ▸ hle)
      queued := by simpa only [events_reap] using hs.queued
      flows := fun h flow hflow => ?_, index := hs.index.reap handle
      told := fun h kind hk hab => ?_ }
  · rw [lookup_reap] at hflow
    split at hflow
    · exact absurd hflow (by simp)
    · exact hs.flows h flow hflow
  · have htold := hs.told h kind hk hab
    rw [lookup_reap, events_reap]
    split
    · next heq =>
      subst heq
      cases hflow : s.client.flows.lookup h with
      | none => rwa [hflow] at htold
      | some flow =>
        rw [hflow, Option.map_some, hdead flow hflow] at htold
        exact htold
    · exact htold

def connect (s : Session τ) (kind : FlowKind) (command : String) : Session τ :=
  { s with
    client := (s.client.connect kind command).2
    kinds := update s.kinds (s.client.connect kind command).1 (some kind) }

def call (s : Session τ) : Call → Session τ
  | .tcpConnect dst port =>
    { s with
      client := (s.client.tcpConnect dst port).2
      kinds := update s.kinds (s.client.tcpConnect dst port).1 (some .tcp) }
  | .dnsResolve name =>
    { s with
      client := (s.client.dnsResolve name).2
      kinds := update s.kinds (s.client.dnsResolve name).1 (some .dns) }
  | .tcpSend flow data => { s with client := (s.client.tcpSend flow data).2 }
  | .tcpClose flow => { s with client := s.client.tcpClose flow }
  | .tcpAbort flow =>
    { s with
      client := s.client.tcpAbort flow
      aborted := fun h => s.aborted h || (h = flow && (s.kinds h).isSome) }
  | .poll nowMs =>
    { s with
      client := (s.client.poll nowMs).2
      returned := s.returned ++ (s.client.poll nowMs).1 }

/-- A connection the transport opens is none of those in the flow table, dead flows included. -/
def Admits (s : Session τ) : Call → Prop
  | .tcpConnect _ _ | .dnsResolve _ =>
    ∀ conn, (RelayTransport.connect s.client.transport s.client.url).1 = some conn →
      ∀ h flow, s.client.flows.lookup h = some flow → flow.conn ≠ conn
  | _ => True

/-- The sessions a client can get into. -/
inductive Reaches : Session τ → Prop
  | start (transport : τ) (url : String) : Reaches (start transport url)
  | call {s : Session τ} (c : Call) : Reaches s → s.Admits c → Reaches (s.call c)

theorem kinds_connect (s : Session τ) (kind : FlowKind) (command : String) :
    (s.connect kind command).kinds = update s.kinds s.client.nextHandle (some kind) := by
  have hfst : (s.client.connect kind command).1 = s.client.nextHandle := by
    unfold RelayClient.connect
    rcases RelayTransport.connect s.client.transport s.client.url with ⟨_ | conn, transport⟩ <;> rfl
  rw [Session.connect, hfst]

theorem lookup_connect (s : Session τ) (kind : FlowKind) (command : String) {h : FlowHandle}
    (hne : h ≠ s.client.nextHandle) :
    (s.connect kind command).client.flows.lookup h = s.client.flows.lookup h := by
  unfold Session.connect RelayClient.connect
  rcases RelayTransport.connect s.client.transport s.client.url with ⟨_ | conn, transport⟩
  · rfl
  · exact AList.lookup_insert_ne hne

theorem Tracks.connect (hs : s.Tracks) (kind : FlowKind) (command : String)
    (hfresh : ∀ conn, (RelayTransport.connect s.client.transport s.client.url).1 = some conn →
      ∀ h flow, s.client.flows.lookup h = some flow → flow.conn ≠ conn) :
    (s.connect kind command).Tracks := by
  have hempty := hs.lookup_eq_none (hs.handles s.client.nextHandle le_rfl)
  unfold Session.connect RelayClient.connect
  rcases hopen : RelayTransport.connect s.client.transport s.client.url with ⟨_ | conn, transport⟩
  · -- The attempt failed outright: the story is told in one event.
    refine hs.allot _ rfl rfl hs.index ?_ (fun _ _ => rfl) (fun flow hflow => ?_) ?_
    · cases kind <;> simp [eventFlow]
    · exact absurd hflow (by simp [hempty])
    · rw [hempty]
      cases kind with
      | tcp => exact .inl ⟨_, rfl⟩
      | dns => exact .inr ⟨_, rfl⟩
  · refine hs.allot [] rfl (by simp)
      (hs.index.insert { conn, kind, state := .connecting, command } transport hempty
        (hfresh conn (by rw [hopen]))) (by simp)
      (fun h hne => ?_) (fun flow hflow => ?_) ?_
    · exact AList.lookup_insert_ne hne
    · rw [AList.lookup_insert] at hflow
      rw [← Option.some.inj hflow]
    · rw [AList.lookup_insert]
      rfl

theorem Tracks.abort (hs : s.Tracks) (flow : FlowHandle) : (s.call (.tcpAbort flow)).Tracks := by
  have hother : ∀ h, h ≠ flow →
      (s.aborted h || (decide (h = flow) && (s.kinds h).isSome)) = s.aborted h := fun h hne => by
    simp [hne]
  refine
    { handles := fun h hle => hs.handles h (nextHandle_tcpAbort s.client flow ▸ hle)
      aborted := fun h hab => ?_, returned := hs.returned, queued := fun e he => ?_
      flows := fun h f hf => ?_, index := hs.index.tcpAbort flow
      told := fun h kind hk hab => ?_, given := fun h kind hk _ => hs.story hk }
  · rcases Bool.or_eq_true_iff.1 hab with hab | hab
    · exact hs.aborted h hab
    · exact (Bool.and_eq_true_iff.1 hab).2
  · have hmem : e ∈ (s.client.tcpAbort flow).events := he
    rw [events_tcpAbort, List.mem_filter, decide_eq_true_eq] at hmem
    obtain ⟨hmem, hne⟩ := hmem
    exact ⟨(hs.queued e hmem).1, (hother _ hne).trans (hs.queued e hmem).2⟩
  · have hf' : (s.client.tcpAbort flow).flows.lookup h = some f := hf
    rw [lookup_tcpAbort] at hf'
    split at hf'
    · exact absurd hf' (by simp)
    · next hne => exact ⟨(hs.flows h f hf').1, (hother h hne).trans (hs.flows h f hf').2⟩
  · have hne : h ≠ flow := by
      rintro rfl
      have hheld : s.kinds h = some kind := hk
      exact absurd hab (by simp [Session.call, hheld])
    have hab' : s.aborted h = false := (hother h hne).symm.trans hab
    have hkeep : about h (s.client.tcpAbort flow).events = about h s.client.events := by
      rw [events_tcpAbort, about, about, List.filter_filter]
      refine List.filter_congr fun e _ => ?_
      by_cases heq : e.eventFlow = h <;> simp [heq, hne]
    have htold := hs.told h kind hk hab'
    rw [about_append] at htold
    show Told h kind (((s.client.tcpAbort flow).flows.lookup h).map (·.state))
      (about h (s.returned ++ (s.client.tcpAbort flow).events))
    rw [lookup_tcpAbort, if_neg hne, about_append, hkeep]
    exact htold

theorem Tracks.digest (hs : s.Tracks) (batch : List TransportEvent) :
    Tracks { s with client := batch.foldl onTransport s.client } := by
  induction batch generalizing s with
  | nil => exact hs
  | cons event batch ih => exact ih (hs.advance (advance_onTransport s.client event))

theorem Tracks.reapAll (hs : s.Tracks) (handles : List FlowHandle)
    (hdead : ∀ h ∈ handles, ∀ flow, s.client.flows.lookup h = some flow → flow.state = .dead) :
    Tracks { s with client := handles.foldl RelayClient.reap s.client } := by
  induction handles generalizing s with
  | nil => exact hs
  | cons handle handles ih =>
    refine ih (hs.reap (hdead handle List.mem_cons_self)) fun h hmem flow hflow => ?_
    rw [lookup_reap] at hflow
    split at hflow
    · exact absurd hflow (by simp)
    · exact hdead h (List.mem_cons_of_mem _ hmem) flow hflow

/-- The client once a poll has looked at every event of the transport. -/
def digested (c : RelayClient τ) (nowMs : U64) : RelayClient τ :=
  (RelayTransport.poll c.transport nowMs).1.foldl onTransport
    { c with transport := (RelayTransport.poll c.transport nowMs).2, lastPollMs := nowMs }

theorem poll_eq (c : RelayClient τ) (nowMs : U64) :
    c.poll nowMs = ((digested c nowMs).events,
      (digested c nowMs).deadFlows.foldl RelayClient.reap { digested c nowMs with events := [] }) :=
  rfl

theorem Tracks.digested (hs : s.Tracks) (nowMs : U64) :
    Tracks { s with client := digested s.client nowMs } := by
  have hstart : Tracks { s with
      client := { s.client with
        transport := (RelayTransport.poll s.client.transport nowMs).2, lastPollMs := nowMs } } :=
    hs.advance (.of_eq rfl rfl rfl rfl)
  exact hstart.digest _

theorem Tracks.poll (hs : s.Tracks) (nowMs : U64) : (s.call (.poll nowMs)).Tracks := by
  exact (hs.digested nowMs).drain.reapAll _ fun h hmem flow hflow => by
    obtain ⟨flow', hflow', hstate⟩ := mem_deadFlows.1 hmem
    rwa [← Option.some.inj (hflow'.symm.trans hflow)]

theorem Tracks.call (hs : s.Tracks) (c : Call) (hadmits : s.Admits c) : (s.call c).Tracks := by
  cases c with
  | tcpConnect dst port => exact hs.connect .tcp _ hadmits
  | dnsResolve name => exact hs.connect .dns _ hadmits
  | tcpSend flow data => exact hs.advance (advance_tcpSend s.client flow data)
  | tcpClose flow => exact hs.advance (advance_tcpClose s.client flow)
  | tcpAbort flow => exact hs.abort flow
  | poll nowMs => exact hs.poll nowMs

theorem Reaches.tracks (h : Reaches s) : s.Tracks := by
  induction h with
  | start transport url => exact tracks_start transport url
  | call c _ hadmits ih => exact ih.call c hadmits

end Session

end RelayClient

end EmulateComputer
