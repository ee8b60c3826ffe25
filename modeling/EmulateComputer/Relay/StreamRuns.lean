import EmulateComputer.Relay.FlowStreams

/-!
# StreamRuns — the bytes of the flows in every run

`FlowStreams` follows the bytes through the handlers of one flow.  Here the rest of an event is
walked: the frame of a client, which may carry bytes for a flow, the making and attaching of flows,
and the idle sweep.

The sweep is the one event after which `EOF` may have been sent too early: it does not look at the
queue.  `Drained` says that it need not.
-/

namespace EmulateComputer

open Function (update update_self update_of_ne)

namespace Relay

variable {ω L τ : Type} {strict : Prop} {f : Nat} {Q Q' : Flow.Books → Prop} {r r' : Relay ω L τ}

/-! ## The client's frames -/

/-- Bytes for the flow of a channel, as the history notes them. -/
def paid (key : Nat × Nat) (f : Nat) (data : List U8) (r : Relay ω L τ) : Relay ω L τ :=
  ({ r with payload := update r.payload key (r.payload key ++ data) } :
    Relay ω L τ).setFlow f fun flow => { flow with received := flow.received ++ data }

theorem StreamsAt.paidFlow {key : Nat × Nat} {data : List U8} (h : StreamsAt strict f Q r)
    (hbonds : Bonds r) (hdata : r.data key = some f)
    (hown : (r.heap f).state ≠ .closed →
      Q' { (r.heap f).books with received := (r.heap f).received ++ data }) :
    StreamsAt strict f Q' (r.paid key f data) := by
  obtain ⟨fw, tail, hledger, htail, hwrote, hup, hhanded, hdown⟩ := h.past f
  refine h.put rfl hown ⟨fw, tail, hledger, htail, hwrote, hup.trans (List.prefix_append _ _),
    hhanded, hdown⟩ (h.shut f) (fun hs => h.eofs hs f) (fun key' f' hdata' => ?_) h.single
    fun key' f' hf' => ?_
  · change (update r.heap f _ f').received <:+ update r.payload key (r.payload key ++ data) key'
    by_cases heq : f' = f
    · -- The flow has one channel, whose payload grows by the same bytes.
      subst heq
      obtain rfl : key' = key := h.single key' key f' hdata' hdata
      rw [update_self, update_self]
      obtain ⟨earlier, hearlier⟩ := h.paid key' f' hdata'
      exact ⟨earlier, by rw [← hearlier, List.append_assoc]⟩
    · have hkey : key' ≠ key := by
        rintro rfl
        exact heq (Option.some.inj (hdata'.symm.trans hdata))
      rw [update_of_ne heq, update_of_ne hkey]
      exact h.paid key' f' hdata'
  · have hne : f' ≠ f := by
      rintro rfl
      exact (hbonds.unattached key' f' hf').2 key hdata
    exact (congrArg Flow.received (update_of_ne hne _ _)).trans (h.fresh key' f' hf')

/-- The parts of the state that say which flow belongs to which channel, with fewer admissions that
have made a flow. -/
theorem StreamsAt.admissions (h : StreamsAt strict f Q r) (hheap : r'.heap = r.heap)
    (hdata : r'.data = r.data) (hpayload : r'.payload = r.payload)
    (hadmits : ∀ key f', r'.Admits key f' → r.Admits key f') : StreamsAt strict f Q r' := by
  have hfresh : ∀ key f', r'.Admits key f' → (r'.heap f').received = [] := by
    rw [hheap]
    exact fun key f' hf' => h.fresh key f' (hadmits key f' hf')
  cases r'
  obtain rfl := hheap
  obtain rfl := hdata
  obtain rfl := hpayload
  exact { h with fresh := hfresh }

theorem StreamsAt.erase (h : StreamsAt strict f Q r) (key : Nat × Nat) :
    StreamsAt strict f Q { r with admissions := r.admissions.erase key } := by
  refine h.admissions rfl rfl rfl ?_
  rintro key' f' ⟨a, ha, hphase⟩
  exact ⟨a, (Table.lookup_erase_eq_some.1 ha).2, hphase⟩

/-- What is known once the history has noted a frame: it carries nothing for a live flow, or a flow
has the bytes coming in. -/
inductive Noted (strict : Prop) (k : Nat) (frame : Frame) (r : Relay ω L τ) : Prop
  | idle (streams : Streams strict r)
      (dead : ∀ bytes id data f, frame = .binary bytes → Mux.decodeData bytes = .ok (id, data) →
        r.data (k, id) = some f → (r.heap f).state = .closed)
  | carries (bytes : List U8) (id : Nat) (data : List U8) (f : Nat) (frame : frame = .binary bytes)
      (decode : Mux.decodeData bytes = .ok (id, data)) (flow : r.data (k, id) = some f)
      (live : (r.heap f).state ≠ .closed)
      (streams : StreamsAt strict f (Flow.Books.Doing { inUp := data }) r)

theorem Streams.noted (hbonds : Bonds r) (h : Streams strict r) (k : Nat) (frame : Frame) :
    Noted strict k frame (r.notePayload k frame) := by
  unfold Relay.notePayload
  cases frame with
  | text text => exact .idle h nofun
  | binary bytes =>
    dsimp only
    cases hdecode : Mux.decodeData bytes with
    | error error =>
      refine .idle h fun bytes' id data f heq hdecode' _ => ?_
      cases heq
      rw [hdecode] at hdecode'
      cases hdecode'
    | ok decoded =>
      obtain ⟨id, data⟩ := decoded
      dsimp only
      split
      · -- The channel is not known, so it is not that of a live flow.
        next hunknown =>
          refine .idle h fun bytes' id' data' f heq hdecode' hdata => ?_
          cases heq
          rw [hdecode] at hdecode'
          cases hdecode'
          by_contra hlive
          rcases (hbonds.tidyPeer k).bound id ⟨f, hdata, hlive⟩ with halive | hclosed
          · obtain ⟨ch, hch, -⟩ := halive
            rw [hch] at hunknown
            cases hunknown
          · rw [hbonds.hooks k] at hclosed
            cases hclosed
      · cases hdata : r.data (k, id) with
        | none =>
          refine .idle ?_ fun bytes' id' data' f heq hdecode' hdata' => ?_
          · refine { h with paid := fun key f' hdata' => ?_ }
            have hkey : key ≠ (k, id) := by
              rintro rfl
              exact absurd (hdata.symm.trans hdata') nofun
            dsimp only
            rw [update_of_ne hkey]
            exact h.paid key f' hdata'
          · cases heq
            rw [hdecode] at hdecode'
            cases hdecode'
            exact absurd (hdata.symm.trans hdata') nofun
        | some f =>
          have h := h.refocus f
          change Noted strict k _ (r.paid (k, id) f data)
          have hstate : ((r.paid (k, id) f data).heap f).state = (r.heap f).state := by
            rw [paid, heap_setFlow_self]
          by_cases hc : (r.heap f).state = .closed
          · have hpaid : StreamsAt strict f Flow.Books.Settled (r.paid (k, id) f data) :=
              h.paidFlow hbonds hdata fun hlive => absurd hc hlive
            refine .idle (hpaid.refocus 0) fun bytes' id' data' f' heq hdecode' hdata' => ?_
            cases heq
            rw [hdecode] at hdecode'
            cases hdecode'
            have hsame : f' = f := Option.some.inj (hdata'.symm.trans hdata)
            rw [hsame, hstate]
            exact hc
          · refine .carries bytes id data f rfl hdecode hdata (by rw [hstate]; exact hc) ?_
            refine h.paidFlow hbonds hdata fun hlive => ?_
            have hsettled := h.own hlive
            obtain ⟨fw, hfw⟩ := hsettled.present
            refine ⟨⟨fw, { hfw with received := ?_ }⟩, hsettled.charging, nofun⟩
            have hold : (r.heap f).received = up (r.heap f).taken ++ [] := hfw.received
            rw [List.append_nil] at hold
            exact congrArg (· ++ data) hold

section Frames

variable [WireSocket ω] [Limits L] [TcpHost τ]

/-- The session hears a frame that carries nothing for a live flow. -/
theorem Streams.hearIdle {k : Nat} {frame : Frame} (hbonds : Bonds r) (h : Streams strict r)
    (hdead : ∀ bytes id data f, frame = .binary bytes → Mux.decodeData bytes = .ok (id, data) →
      r.data (k, id) = some f → (r.heap f).state = .closed) (now : Nat) :
    Streams strict (((r.peers k).message frame).hooks.foldl (onHook k now)
      (r.setPeer k { (r.peers k).message frame with hooks := [] })) := by
  have hears := hbonds.hears k frame
  generalize (r.peers k).message frame = q at hears ⊢
  have hset : Streams strict (r.setPeer k { q with hooks := [] }) :=
    ending_streams.peer [] k _ h
  cases hears with
  | quiet hquiet _ =>
    rw [foldl_onHook_of_quiet k now _ _ hquiet]
    exact ending_streams.heedAll [] k _ hset
  | opened id command hhooks _ _ hfresh _ =>
    rw [hhooks]
    refine StreamsAt.admissions (r := r.setPeer k { q with hooks := [] }) hset rfl rfl rfl ?_
    rintro key f' ⟨a, ha, hphase⟩
    rcases Table.lookup_insert_eq_some.1 ha with ⟨-, rfl⟩ | ⟨-, ha⟩
    · cases hphase
    · exact ⟨a, ha, hphase⟩
  | message id msg hhooks _ hpayload =>
    rw [hhooks]
    change Streams strict (onHook k now _ (.message id msg))
    unfold onHook
    dsimp only
    cases hdata : (r.setPeer k { q with hooks := [] }).data (k, id) with
    | none => exact hset
    | some f =>
      cases msg with
      | text text => exact hset.messageText f text now
      | binary data =>
        obtain ⟨bytes, hframe, hdecode⟩ := hpayload data rfl
        have hc : ((r.setPeer k { q with hooks := [] }).heap f).state = .closed :=
          hdead bytes id data f hframe hdecode hdata
        dsimp only
        unfold Relay.message
        rw [if_pos hc]
        exact hset

/-- The session hears bytes for a live flow: they reach the flow, or finish it. -/
theorem StreamsAt.hearBytes {k id : Nat} {bytes data : List U8} (hbonds : Bonds r)
    (h : StreamsAt strict f (Flow.Books.Doing { inUp := data }) r)
    (hdecode : Mux.decodeData bytes = .ok (id, data)) (hdata : r.data (k, id) = some f)
    (hlive : (r.heap f).state ≠ .closed) (now : Nat) :
    StreamsAt strict f Flow.Books.Settled (((r.peers k).message (.binary bytes)).hooks.foldl
      (onHook k now) (r.setPeer k { (r.peers k).message (.binary bytes) with hooks := [] })) := by
  have halive : (r.peers k).Alive id := by
    refine ((hbonds.tidyPeer k).bound id ⟨f, hdata, hlive⟩).resolve_right fun hclosed => ?_
    rw [hbonds.hooks k] at hclosed
    cases hclosed
  have hhooks := MultiplexPeer.hooks_message_of_alive (hbonds.tidyPeer k) (hbonds.hooks k) halive
    hdecode
  have hears := hbonds.hears k (.binary bytes)
  generalize (r.peers k).message (.binary bytes) = q at hhooks hears ⊢
  have hset : StreamsAt strict f (Flow.Books.Doing { inUp := data })
      (r.setPeer k { q with hooks := [] }) :=
    ending_streams.peer [] k _ h
  cases hears with
  | quiet hquiet _ =>
    have hclosed : .closed id ∈ q.hooks := by
      refine hhooks.resolve_left fun hmessage => ?_
      exact hquiet (.message id (.binary data)) (by rw [hmessage]; exact List.mem_singleton_self _)
    rw [foldl_onHook_of_quiet k now _ _ hquiet]
    have hheeded : StreamsAt strict f (Flow.Books.Doing { inUp := data })
        (q.hooks.foldl (heed k) (r.setPeer k { q with hooks := [] })) :=
      ending_streams.heedAll [] k _ hset
    exact hheeded.imp fun hlive =>
      absurd (closed_heedAll q.hooks (r.setPeer k { q with hooks := [] }) hclosed hdata) hlive
  | opened id' command hopened _ _ _ _ =>
    rw [hopened] at hhooks
    simp at hhooks
  | message id' msg hmessage hbonds _ =>
    rw [hmessage] at hhooks ⊢
    have hsame : id' = id ∧ msg = .binary data := by simpa using hhooks
    obtain ⟨rfl, rfl⟩ := hsame
    change StreamsAt strict f _ (onHook k now _ (.message id' (.binary data)))
    unfold onHook
    dsimp only
    have hflow : (r.setPeer k { q with hooks := [] }).data (k, id') = some f := hdata
    rw [hflow]
    have hat : (r.setPeer k { q with hooks := [] }).Attached f := by
      rw [Attached, hbonds.bound (k, id') f hdata hlive]
      exact Option.some_ne_none _
    exact hset.messageBinary ⟨hbonds, hat⟩ hlive now

theorem Streams.wire (hbonds : Bonds r) (h : Streams strict r) (k : Nat) (frame : Frame)
    (now : Nat) : Streams strict (r.wire k frame now) := by
  have hnoted := h.noted hbonds k frame
  have hbonds := hbonds.notePayload k frame
  cases hnoted with
  | idle hstreams hdead => exact hstreams.hearIdle hbonds hdead now
  | carries bytes id data f hframe hdecode hdata hlive hstreams =>
    subst hframe
    exact (hstreams.hearBytes hbonds hdecode hdata hlive now).refocus 0

end Frames

/-! ## Making and attaching flows -/

theorem Flow.Books.settled_new (ip : String) (now : Nat) : (Flow.new ip now).books.Settled :=
  ⟨⟨[], rfl, rfl, rfl, rfl, rfl, rfl⟩, nofun, nofun⟩

/-- A new flow, whose admission is the only one to know it. -/
theorem Streams.makeFlow (h : Streams strict r) (hbonds : Bonds r) (key : Nat × Nat)
    (command : List Char) (ip : String) (now : Nat) :
    Streams strict ({ r.makeFlow ip now with
      admissions := r.admissions.insert key ⟨command, ip, .admitted r.nextFlow⟩ } :
        Relay ω L τ) := by
  have hself : (r.makeFlow ip now).heap r.nextFlow = .new ip now := update_self _ _ _
  have hother : ∀ f, f ≠ r.nextFlow → (r.makeFlow ip now).heap f = r.heap f := fun f hne =>
    update_of_ne hne _ _
  have hsettled := Flow.Books.settled_new ip now
  have h := h.refocus r.nextFlow
  refine StreamsAt.refocus (f := r.nextFlow) ?_ 0
  refine h.put rfl (fun _ => hsettled) hsettled.past (fun _ => rfl) (fun _ => nofun)
    (fun key' f hdata => ?_) h.single fun key' f hf => ?_ <;> dsimp only
  · rw [hother f (Nat.ne_of_lt (hbonds.madeData key' f hdata))]
    exact h.paid key' f hdata
  · by_cases heq : f = r.nextFlow
    · rw [heq, hself]
      rfl
    · rw [hother f heq]
      obtain ⟨a, ha, hphase⟩ := hf
      rcases Table.lookup_insert_eq_some.1 ha with ⟨-, rfl⟩ | ⟨-, ha⟩
      · exact absurd (AdmissionPhase.admitted.inj hphase) (Ne.symm heq)
      · exact h.fresh key' f ⟨a, ha, hphase⟩

/-- A channel gets the flow its admission has made. -/
theorem Streams.linked {key : Nat × Nat} (h : Streams strict r) (hbonds : Bonds r)
    (hf : r.Admits key f) : Streams strict (r.linked key f) := by
  have hdata : (r.linked key f).data = update r.data key (some f) := rfl
  refine ⟨h.own, h.others, h.past, h.shut, h.eofs, fun key' f' hdata' => ?_,
    fun key' key'' f' hdata' hdata'' => ?_, fun key' f' hf' => ?_⟩
  · rw [hdata] at hdata'
    by_cases heq : key' = key
    · subst heq
      rw [update_self] at hdata'
      cases hdata'
      have hnone : ((r.linked key' f).heap f).received = [] := h.fresh key' f hf
      rw [hnone]
      exact List.nil_suffix
    · rw [update_of_ne heq] at hdata'
      exact h.paid key' f' hdata'
  · -- No other channel has the flow.
    have hunattached := (hbonds.unattached key f hf).2
    rw [hdata] at hdata' hdata''
    by_cases heq : key' = key
    · by_cases heq' : key'' = key
      · rw [heq, heq']
      · rw [heq, update_self] at hdata'
        rw [update_of_ne heq', ← hdata'] at hdata''
        exact absurd hdata'' (hunattached key'')
    · rw [update_of_ne heq] at hdata'
      by_cases heq' : key'' = key
      · rw [heq', update_self, ← hdata'] at hdata''
        exact absurd hdata''.symm (hunattached key')
      · rw [update_of_ne heq'] at hdata''
        exact h.single key' key'' f' hdata' hdata''
  · exact h.fresh key' f' (hbonds.admits_linked hf hf').1

/-! ## The idle sweep -/

/-- Of the flows the sweep is about to end after a FIN, none has bytes of the TCP peer that wait for
their quota verdict. -/
def Drained (now : Nat) (r : Relay ω L τ) : Prop :=
  ∀ f ∈ r.flows, r.quietAfterFin now (r.heap f) → ∀ chunk ∈ (r.heap f).pending, chunk.upload = true

instance (now : Nat) (r : Relay ω L τ) : Decidable (r.Drained now) :=
  List.decidableBAll _ _

/-- A flow has finished, or what the sweep looks at is as it was. -/
structure Flow.Rests (a b : Flow) : Prop where
  live : b.state ≠ .closed → b.state = a.state ∧ b.lastActive = a.lastActive ∧ b.finAt = a.finAt ∧
    b.pending = a.pending

variable {now : Nat}

theorem Drained.rests (h : r.Drained now) (hcfg : r'.cfg = r.cfg)
    (hflows : ∀ f ∈ r'.flows, f ∈ r.flows) (hrests : ∀ f, Flow.Rests (r.heap f) (r'.heap f)) :
    r'.Drained now := by
  rintro f hf ⟨hactive, hfin, hopen, hquiet⟩
  have hlive : (r'.heap f).state ≠ .closed := by
    rw [hopen]
    exact nofun
  obtain ⟨hstate, hlast, hfinAt, hpending⟩ := (hrests f).live hlive
  rw [hcfg, hlast] at hactive hquiet
  rw [hfinAt] at hfin
  rw [hstate] at hopen
  rw [hpending]
  exact h f (hflows f hf) ⟨hactive, hfin, hopen, hquiet⟩

theorem Drained.setFlow {g : Flow → Flow} (h : r.Drained now) (f : Nat)
    (hg : Flow.Rests (r.heap f) (g (r.heap f))) : (r.setFlow f g).Drained now := by
  exact h.rests rfl (fun _ hf => hf) ((Function.forall_update_iff r.heap fun f' =>
    Flow.Rests (r.heap f')).2 ⟨hg, fun _ _ => ⟨fun _ => ⟨rfl, rfl, rfl, rfl⟩⟩⟩)

theorem Drained.shut (h : r.Drained now) (f : Nat) (why : String) : (r.shut f why).Drained now := by
  exact h.rests rfl (fun _ hf => hf) (forall_shut (fun f' => Flow.Rests (r.heap f'))
    ⟨fun hlive => absurd rfl hlive⟩ fun _ _ => ⟨fun _ => ⟨rfl, rfl, rfl, rfl⟩⟩)

theorem Drained.leave [Limits L] (h : r.Drained now) (f : Nat) : (r.leave f).Drained now :=
  h.rests rfl (fun _ hf => List.mem_of_mem_erase hf) fun _ => ⟨fun _ => ⟨rfl, rfl, rfl, rfl⟩⟩

theorem ending_drained [Limits L] (now : Nat) :
    Ending (ω := ω) (L := L) (τ := τ) fun _ => Drained now where
  peer := fun _ _ _ h => h
  pause := by
    intro r _ f paused h
    rw [pauseFlow_eq]
    refine h.setFlow f ⟨fun _ => ?_⟩
    unfold Flow.pressed
    split_ifs <;> exact ⟨rfl, rfl, rfl, rfl⟩
  shut := fun why h _ => h.shut _ why
  leave := fun h => h.leave _

section Runs

variable [WireSocket ω] [Limits L]

theorem Streams.admitFlow (h : Streams strict r) (hbonds : Bonds r) (k id : Nat)
    (outcome : Except Unit (Option Refusal)) (now : Nat) :
    Streams strict (r.admitFlow k id outcome now) := by
  have haway : Streams strict (r.turnAway k id) :=
    ending_streams.callPeer [] k _ (ending_streams.callPeer [] k _ (h.erase (k, id)))
  unfold Relay.admitFlow
  split
  · next command ip answer ha =>
    split
    · exact haway
    · exact haway
    · dsimp only
      split
      · refine h.admissions rfl rfl rfl ?_
        rintro key f' ⟨a, ha', hphase⟩
        rcases Table.lookup_insert_eq_some.1 ha' with ⟨-, rfl⟩ | ⟨-, ha'⟩
        · cases hphase
        · exact ⟨a, ha', hphase⟩
      · have hnoted : Streams strict ({ r with admitted := r.admitted ++ [ip] } :
            Relay ω L τ) := h.admissions rfl rfl rfl fun _ _ hf => hf
        exact hnoted.makeFlow (hbonds.ledger r.limits (r.admitted ++ [ip])) (k, id) command ip now
  · exact h

theorem Streams.sweepIdle (h : Streams strict r) (hdrained : strict → r.Drained now) :
    Streams strict (r.sweepIdle now) := by
  refine (sweepIdle_rule (P := fun r => Streams strict r ∧ (strict → r.Drained now)) now ?_ ?_
    ⟨h, hdrained⟩).1
  · exact fun r f why h => ⟨ending_streams.finish [] f why h.1,
      fun hs => (ending_drained now).finish [] f why (h.2 hs)⟩
  · intro r f hf hquiet h
    have hlive : (r.heap f).state ≠ .closed := by
      rw [hquiet.2.2.1]
      exact nofun
    refine ⟨((h.1.refocus f).sendEof hlive fun hs => h.2 hs f hf hquiet).refocus 0, fun hs => ?_⟩
    exact (ending_drained now).callChannel [] f _
      ((h.2 hs).setFlow f ⟨fun _ => ⟨rfl, rfl, rfl, rfl⟩⟩)

variable [TcpHost τ]

theorem steps_streams (strict : Prop) : Steps (Streams (ω := ω) (L := L) (τ := τ) strict) where
  callPeer := fun _ => ending_streams.callPeer []
  finish := fun _ => ending_streams.finish []
  sessions := fun _ _ h => h.keepBooks rfl fun _ => rfl
  upgrade := by
    intro r ip ws h
    unfold Relay.upgrade
    split
    · exact h
    · exact h.keepBooks rfl fun _ => rfl
  wire := fun _ k frame now hbonds h => h.wire hbonds k frame now
  admitFlow := fun _ k id outcome now hbonds h => h.admitFlow hbonds k id outcome now
  forget := fun _ key _ _ _ h => h.erase key
  linked := fun _ _ _ hbonds hf h => h.linked hbonds hf
  bind := fun _ _ _ h => h.setFlow rfl
  tcpData := fun _ _ chunk now hbonds hat h => h.tcpData ⟨hbonds, hat⟩ chunk now
  rules := rules_flowing strict

/-! ## Every run -/

/-- An idle sweep comes when the flows it ends are drained. -/
def DrainedSweep (r : Relay ω L τ) : Event ω → Prop
  | .sweepIdle now => r.Drained now
  | _ => True

instance decidableDrainedSweep (r : Relay ω L τ) : ∀ event, Decidable (r.DrainedSweep event)
  | .sweepIdle now => inferInstanceAs (Decidable (r.Drained now))
  | .upgrade _ _ | .wire _ _ _ | .drain _ | .gone _ | .admission _ _ _ _ | .slotReturned _ _ _
  | .attach _ _ | .resolved _ _ | .tcpOpen _ | .tcpData _ _ _ | .tcpDrain _ | .tcpEnd _
  | .tcpError _ _ | .connectFailed _ _ | .verdict _ _ | .quotaTimeout _ | .stop => .isTrue trivial

theorem streams_run (cfg : RelayConfig) (ipaddr : IpAddr) (limits : L) (tcp : τ)
    (events : List (Event ω)) (hstrict : strict →
      Throughout DrainedSweep events (new cfg ipaddr limits tcp : Relay ω L τ)) :
    Streams strict ((new cfg ipaddr limits tcp : Relay ω L τ).run events) := by
  have hstart : Streams strict (new cfg ipaddr limits tcp : Relay ω L τ) :=
    ⟨fun hlive => absurd rfl hlive, fun _ _ hlive => absurd rfl hlive,
      fun _ => ⟨[], [], rfl, ⟨⟨[], true⟩, List.nil_prefix⟩, List.nil_prefix, List.nil_prefix,
        List.nil_prefix, List.nil_prefix⟩,
      fun _ _ => rfl, fun _ _ => nofun, fun _ _ => nofun, fun _ _ _ => nofun, fun _ _ _ => rfl⟩
  by_cases hs : strict
  · refine (steps_streams strict).run (C := DrainedSweep) ?_ events _
      (bonds_new cfg ipaddr limits tcp) hstart (hstrict hs)
    exact fun r now hdrained _ _ h => h.sweepIdle fun _ => hdrained
  · refine (steps_streams strict).run (C := fun _ _ => True) ?_ events _
      (bonds_new cfg ipaddr limits tcp) hstart (throughout_true events _)
    exact fun r now _ _ _ h => h.sweepIdle fun hs' => absurd hs' hs

/-- In every run, a flow that has not finished and its channel belong together: the session is in
the relay's list and open, the channel lives, and no other flow is attached to it. -/
theorem flows_served (cfg : RelayConfig) (ipaddr : IpAddr) (limits : L) (tcp : τ)
    (events : List (Event ω)) (r : Relay ω L τ) (hrun : r = (new cfg ipaddr limits tcp).run events)
    (key : Nat × Nat) (hws : (r.heap f).ws = some key) (hlive : (r.heap f).state ≠ .closed) :
    key.1 ∈ r.sessions ∧ (r.peers key.1).closed = false ∧ (r.peers key.1).Alive key.2 ∧
      ∀ f', (r.heap f').ws = some key → f' = f := by
  have hbonds : Bonds r := by
    rw [hrun]
    exact List.foldlRecOn (motive := Bonds) events _ (bonds_new cfg ipaddr limits tcp)
      fun _ h event _ => h.step event
  have hdata := hbonds.channel f key hws
  have htidy := hbonds.tidy key.1
  -- No hook is owed between events, so the channel has not been closed.
  have halive : (r.peers key.1).Alive key.2 :=
    (htidy.bound key.2 ⟨f, hdata, hlive⟩).resolve_right List.not_mem_nil
  have hopen : (r.peers key.1).closed ≠ true := fun hclosed => by
    obtain ⟨ch, hch, hdead, -⟩ := halive
    exact absurd (htidy.halted hclosed key.2 ch hch) (by simp [hdead])
  have hknown : key.1 < r.nextPeer := by
    by_contra hle
    rw [(hbonds.strange key (Nat.le_of_not_lt hle)).1] at hdata
    cases hdata
  refine ⟨?_, by simpa using hopen, halive, fun f' hws' => ?_⟩
  · by_contra hgone
    exact hopen (htidy.stopped ⟨hknown, hgone⟩)
  · exact Option.some.inj ((hbonds.channel f' key hws').symm.trans hdata)

end Runs

/-- The client sends a byte before its flow has been made and one after. -/
def hastyClient : List (Event Wire) :=
  [.upgrade "ip" ⟨[], []⟩, .wire 0 (.text "1 CONNECT host:80") 0,
    .wire 0 (.binary [0, 0, 0, 1, 65]) 0,
    .admission 0 1 (.ok none) 0, .attach 0 1, .resolved 0 [], .tcpOpen 0,
    .wire 0 (.binary [0, 0, 0, 1, 66]) 0]

def hastyRelay : Relay Wire ChargeScript TcpScript :=
  (new ⟨true, [], 100, 4, 100, 1⟩ ⟨fun _ => true, fun _ => "unicast", id⟩ ⟨[]⟩ ⟨[]⟩).run hastyClient

theorem flows_served_hastyClient :
    (0 : Nat) ∈ hastyRelay.sessions ∧ (hastyRelay.peers 0).Alive 1 := by
  have hserved := flows_served _ _ _ _ hastyClient hastyRelay rfl (f := 0) (0, 1)
    (by decide +kernel) (by decide +kernel)
  exact ⟨hserved.1, hserved.2.2.1⟩

/-- The client has sent FIN and the TCP peer a byte, which the store judges by `answers`; then
nothing happens until the sweep. -/
def quietSweep : List (Event Wire) :=
  [.upgrade "ip" ⟨[], []⟩, .wire 0 (.text "1 CONNECT host:80") 0, .admission 0 1 (.ok none) 0,
    .attach 0 1, .resolved 0 [], .tcpOpen 0, .wire 0 (.text "1 FIN") 1, .tcpData 0 [65] 1,
    .sweepIdle 9]

abbrev quietRelay (answers : List ChargeAnswer) : Relay Wire ChargeScript TcpScript :=
  new ⟨true, [], 100, 4, 100, 1⟩ ⟨fun _ => true, fun _ => "unicast", id⟩ ⟨answers⟩ ⟨[]⟩

end Relay

end EmulateComputer
