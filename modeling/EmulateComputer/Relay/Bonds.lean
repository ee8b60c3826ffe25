import EmulateComputer.Relay.FlowRules
import EmulateComputer.Relay.PeerLife

/-!
# Bonds — flows, channels and admissions belong together

A flow that has not finished and the channel it is attached to know each other, and the channel
serves it; a channel whose admission is pending is untouched; and a flow made by an admission that
has not gone on yet is attached to nothing, so that only the shutdown of the relay can finish it.

The hooks a session has called and the relay has not heeded are part of the statement, as `owed`:
the invariant holds at every moment of a call, and between events nothing is owed.
-/

namespace EmulateComputer

open Function (update update_self update_of_ne forall_update_iff)

open MultiplexPeer (Roles Tidy Gone)

namespace Relay

variable {ω L τ : Type}

/-- What the relay relies on about the channels of session `k`. -/
def roles (r : Relay ω L τ) (k : Nat) : Roles where
  bound id := ∃ f, r.data (k, id) = some f ∧ (r.heap f).state ≠ .closed
  waiting id := ∃ a, r.admissions.lookup (k, id) = some a
  ended _ := False
  said _ := False
  stopped := k < r.nextPeer ∧ k ∉ r.sessions
  seen id := r.data (k, id) ≠ none

/-- A flow for which no event is due. -/
structure Flow.Idle (flow : Flow) : Prop where
  task : flow.task = none
  dialled : flow.dialled = false
  charging : flow.charging = false
  quotaTimer : flow.quotaTimer = false

/-- An admission that has made flow `f` and not gone on yet. -/
def Admits (r : Relay ω L τ) (key : Nat × Nat) (f : Nat) : Prop :=
  ∃ a, r.admissions.lookup key = some a ∧ a.phase = .admitted f

structure BondsAt (owed : Nat → List HookCall) (r : Relay ω L τ) : Prop where
  tidy : ∀ k, Tidy (r.roles k) { r.peers k with hooks := owed k }
  hooks : ∀ k, (r.peers k).hooks = []
  channel : ∀ f key, (r.heap f).ws = some key → r.data key = some f
  bound : ∀ key f, r.data key = some f → (r.heap f).state ≠ .closed → (r.heap f).ws = some key
  waiting : ∀ key a, r.admissions.lookup key = some a → r.data key = none
  unattached : ∀ key f, r.Admits key f → (r.heap f).ws = none ∧ ∀ key', r.data key' ≠ some f
  cancelled : ∀ key f, r.Admits key f → (r.heap f).state = .closed → (r.peers key.1).Gone key.2
  distinct : ∀ key key' f, r.Admits key f → r.Admits key' f → key = key'
  idle : ∀ f, (r.heap f).ws = none → (r.heap f).Idle
  made : ∀ f, r.nextFlow ≤ f → (r.heap f).ws = none ∧ (r.heap f).state = .closed
  madeData : ∀ key f, r.data key = some f → f < r.nextFlow
  madeAdmits : ∀ key f, r.Admits key f → f < r.nextFlow
  strange : ∀ key, r.nextPeer ≤ key.1 → r.data key = none ∧ r.admissions.lookup key = none

abbrev Bonds (r : Relay ω L τ) : Prop :=
  BondsAt (fun _ => []) r

variable {r r' : Relay ω L τ} {owed : Nat → List HookCall} {f : Nat}

/-! ## Changes of the flows -/

/-- The parts of the state the invariant looks at, apart from the flows. -/
def frame (r : Relay ω L τ) :=
  (r.peers, r.data, r.admissions, r.nextFlow, r.nextPeer, r.sessions)

section

variable (h : BondsAt owed r) {key : Nat × Nat} {a : Admission}

include h

theorem BondsAt.data_ne (ha : r.admissions.lookup key = some a) (f : Nat) :
    r.data key ≠ some f := by
  rw [h.waiting key a ha]
  exact nofun

theorem BondsAt.peer_lt (ha : r.admissions.lookup key = some a) : key.1 < r.nextPeer := by
  by_contra hle
  have hnone := (h.strange key (Nat.le_of_not_lt hle)).2
  rw [ha] at hnone
  cases hnone

/-- Flows may change, and they may finish, as long as the admissions are not concerned. -/
theorem BondsAt.flows (hframe : r'.frame = r.frame) (hws : ∀ f, (r'.heap f).ws = (r.heap f).ws)
    (hclosed : ∀ f, (r.heap f).state = .closed → (r'.heap f).state = .closed)
    (hcancelled : ∀ key f, r.Admits key f → (r'.heap f).state = .closed →
      (r.heap f).state = .closed ∨ (r.peers key.1).Gone key.2)
    (hidle : ∀ f, (r.heap f).ws = none → (r.heap f).Idle → (r'.heap f).Idle) : BondsAt owed r' := by
  cases r'
  obtain ⟨rfl, rfl, rfl, rfl, rfl, rfl⟩ := hframe
  refine { h with
    tidy := ?_, channel := ?_, bound := ?_, unattached := ?_, cancelled := ?_, idle := ?_
    made := ?_ }
  · refine fun k => (h.tidy k).weaken { bound := ?_ }
    rintro id ⟨f, hdata, hlive⟩
    exact ⟨f, hdata, fun hc => hlive (hclosed f hc)⟩
  · exact fun f key hkey => h.channel f key ((hws f).symm.trans hkey)
  · exact fun key f hdata hlive =>
      (hws f).trans (h.bound key f hdata fun hc => hlive (hclosed f hc))
  · exact fun key f hf => ⟨(hws f).trans (h.unattached key f hf).1, (h.unattached key f hf).2⟩
  · intro key f hf hc
    rcases hcancelled key f hf hc with hc | hgone
    · exact h.cancelled key f hf hc
    · exact hgone
  · exact fun f hf => hidle f ((hws f).symm.trans hf) (h.idle f ((hws f).symm.trans hf))
  · exact fun f hf => ⟨(hws f).trans (h.made f hf).1, hclosed f (h.made f hf).2⟩

theorem BondsAt.faces (hframe : r'.frame = r.frame) (hface : ∀ f, Flow.Face (r.heap f) (r'.heap f))
    (hidle : ∀ f, (r.heap f).ws = none → (r.heap f).Idle → (r'.heap f).Idle) : BondsAt owed r' :=
  h.flows hframe (fun f => (hface f).ws) (fun f => (hface f).closed.2)
    (fun _ f _ hc => .inl ((hface f).closed.1 hc)) hidle

theorem BondsAt.same (hframe : r'.frame = r.frame) (hheap : r'.heap = r.heap) :
    BondsAt owed r' := by
  refine h.faces hframe ?_ ?_ <;> rw [hheap]
  · exact fun _ => ⟨rfl, Iff.rfl, rfl⟩
  · exact fun _ _ hidle => hidle

theorem BondsAt.setFlow {g : Flow → Flow} (hface : Flow.Face (r.heap f) (g (r.heap f)))
    (hidle : (r.heap f).ws = none → (r.heap f).Idle → (g (r.heap f)).Idle) :
    BondsAt owed (r.setFlow f g) := by
  refine h.faces rfl ?_ ?_
  · exact (forall_update_iff r.heap fun f' => Flow.Face (r.heap f')).2
      ⟨hface, fun _ _ => ⟨rfl, Iff.rfl, rfl⟩⟩
  · exact (forall_update_iff r.heap fun f' flow =>
      (r.heap f').ws = none → (r.heap f').Idle → flow.Idle).2 ⟨hidle, fun _ _ _ hidle => hidle⟩

/-- An admission other than of `f`, or of a dead channel: `f` may finish. -/
def MayFinish (f : Nat) (r : Relay ω L τ) : Prop :=
  ∀ key, r.Admits key f → (r.peers key.1).Gone key.2

theorem BondsAt.mayFinish (hattached : (r.heap f).ws ≠ none) : r.MayFinish f :=
  fun key hf => absurd (h.unattached key f hf).1 hattached

end

theorem heap_shut (r : Relay ω L τ) (f : Nat) (why : String) :
    (r.shut f why).heap = update r.heap f { r.heap f with
      state := .closed, why := some why, quotaTimer := false
      buffered := 0, pending := [], backlog := [] } := by
  unfold shut releaseBuffer setFlow
  simp

/-- What holds of the flow that has finished and of the others holds of every flow. -/
theorem forall_shut {r : Relay ω L τ} {f : Nat} {why : String} (P : Nat → Flow → Prop)
    (hself : P f { r.heap f with
      state := .closed, why := some why, quotaTimer := false
      buffered := 0, pending := [], backlog := [] })
    (hother : ∀ f', f' ≠ f → P f' (r.heap f')) (f' : Nat) : P f' ((r.shut f why).heap f') := by
  rw [heap_shut]
  exact (forall_update_iff r.heap P).2 ⟨hself, hother⟩ f'

@[simp] theorem heap_shut_self (r : Relay ω L τ) (f : Nat) (why : String) :
    (r.shut f why).heap f =
      { r.heap f with
        state := .closed, why := some why, quotaTimer := false
        buffered := 0, pending := [], backlog := [] } := by
  rw [heap_shut, update_self]

theorem heap_shut_of_ne {f' : Nat} (r : Relay ω L τ) (why : String) (hne : f' ≠ f) :
    (r.shut f why).heap f' = r.heap f' := by
  rw [heap_shut, update_of_ne hne]

theorem BondsAt.shut (h : BondsAt owed r) (hmay : r.MayFinish f) (why : String) :
    BondsAt owed (r.shut f why) := by
  refine h.flows rfl ?_ ?_ ?_ ?_
  · exact forall_shut (fun f' flow => flow.ws = (r.heap f').ws) rfl fun _ _ => rfl
  · exact forall_shut (fun f' flow => (r.heap f').state = .closed → flow.state = .closed)
      (fun _ => rfl) fun _ _ hc => hc
  · exact fun key => forall_shut (fun f' flow => r.Admits key f' → flow.state = .closed →
      (r.heap f').state = .closed ∨ (r.peers key.1).Gone key.2)
      (fun hf _ => .inr (hmay key hf)) fun _ _ _ hc => .inl hc
  · exact forall_shut (fun f' flow => (r.heap f').ws = none → (r.heap f').Idle → flow.Idle)
      (fun _ hidle => ⟨hidle.task, hidle.dialled, hidle.charging, rfl⟩) fun _ _ _ hidle => hidle

theorem BondsAt.leave [Limits L] (h : BondsAt owed r) (f : Nat) : BondsAt owed (r.leave f) :=
  h.same rfl rfl

/-! ## Changes of a session -/

variable {k id : Nat} {hooks : List HookCall} {hook : HookCall} {p : MultiplexPeer ω}
variable {op : MultiplexPeer ω → MultiplexPeer ω}

/-- A session changes, with the hooks it owes; the dead stay dead. -/
theorem BondsAt.setPeer (h : BondsAt owed r) (htidy : Tidy (r.roles k) { p with hooks })
    (hgone : ∀ id f, r.Admits (k, id) f → (r.peers k).Gone id → p.Gone id) :
    BondsAt (update owed k hooks) (r.setPeer k { p with hooks := [] }) := by
  have hpeers : (r.setPeer k { p with hooks := [] }).peers =
      update r.peers k { p with hooks := [] } :=
    rfl
  refine { h with tidy := ?_, hooks := ?_, cancelled := ?_ } <;> rw [hpeers]
  · intro k'
    rcases eq_or_ne k' k with rfl | hne
    · rw [update_self, update_self]
      exact htidy
    · rw [update_of_ne hne, update_of_ne hne]
      exact h.tidy k'
  · exact (forall_update_iff r.peers fun _ p => p.hooks = []).2 ⟨rfl, fun k' _ => h.hooks k'⟩
  · rintro ⟨k', id⟩ f hf hc
    have hold := h.cancelled (k', id) f hf hc
    rcases eq_or_ne k' k with rfl | hne
    · rw [update_self]
      exact hgone id f hf hold
    · rw [update_of_ne hne]
      exact hold

/-- A hook that has been heeded is not owed any more. -/
theorem tidy_heeded {R : Roles} (h : Tidy R { p with hooks := hook :: hooks })
    (hsaid : ∀ hook, ¬ R.said hook) (hfree : ∀ id, hook = .closed id → ¬ R.bound id) :
    Tidy R { p with hooks } := by
  refine { h with
    bound := ?_
    said := fun hook hhook => absurd hhook (hsaid hook)
    aborted := fun id hid => h.aborted id (List.mem_cons_of_mem _ hid)
    quiet := fun hook hhook => h.quiet hook (List.mem_cons_of_mem _ hhook) }
  intro id hid
  rcases h.bound id hid with halive | hmem
  · exact .inl halive
  · rcases List.mem_cons.1 hmem with heq | hmem
    · exact absurd hid (hfree id heq.symm)
    · exact .inr hmem

/-- The hooks of session `k` are owed, and nothing else. -/
def owing (k : Nat) (hooks : List HookCall) : Nat → List HookCall :=
  update (fun _ => []) k hooks

theorem owing_nil (k : Nat) : owing k [] = fun _ => [] :=
  Function.update_eq_self k _

theorem BondsAt.heeded (h : BondsAt (owing k (hook :: hooks)) r)
    (hfree : ∀ id, hook = .closed id → ¬ (r.roles k).bound id) : BondsAt (owing k hooks) r := by
  refine { h with tidy := ?_ }
  intro k'
  have htidy := h.tidy k'
  unfold owing at htidy ⊢
  by_cases heq : k' = k
  · subst heq
    rw [update_self] at htidy ⊢
    exact tidy_heeded htidy (fun _ => nofun) hfree
  · rw [update_of_ne heq] at htidy ⊢
    exact htidy

theorem BondsAt.pauseFlow (h : BondsAt owed r) (f : Nat) (paused : Bool) :
    BondsAt owed (r.pauseFlow f paused) := by
  rw [pauseFlow_eq]
  refine h.setFlow (Flow.face_of_core (Flow.core_pressed _)) fun _ hidle => ?_
  unfold Flow.pressed
  split_ifs <;> exact ⟨hidle.task, hidle.dialled, hidle.charging, hidle.quotaTimer⟩

theorem BondsAt.gone (h : BondsAt (owing k (.closed id :: hooks)) r) : (r.peers k).Gone id := by
  have htidy := h.tidy k
  unfold owing at htidy
  rw [update_self] at htidy
  exact htidy.aborted id List.mem_cons_self

/-- The roles of the channels of a session, with what will not change any more: its dead channels,
and that it has been stopped. -/
def rolesNow (r : Relay ω L τ) (k : Nat) : Roles :=
  { r.roles k with ended := (r.peers k).Gone, stopped := (r.peers k).closed = true }

theorem BondsAt.peer_eq (h : BondsAt owed r) (k : Nat) :
    ({ r.peers k with hooks := [] } : MultiplexPeer ω) = r.peers k := by
  have hnil := h.hooks k
  rw [← hnil]

theorem Bonds.tidyPeer (h : Bonds r) (k : Nat) : Tidy (r.rolesNow k) (r.peers k) := by
  have htidy := h.tidy k
  rw [h.peer_eq k] at htidy
  exact { htidy with ended := fun _ hid => hid, stopped := fun hclosed => hclosed }

/-- A session changes by a call, and its hooks are owed. -/
theorem Bonds.called (h : Bonds r) (k : Nat) (hp : Tidy (r.rolesNow k) p) :
    BondsAt (owing k p.hooks) (r.setPeer k { p with hooks := [] }) := by
  have htidy : Tidy (r.roles k) p := hp.weaken { ended := nofun, stopped := (h.tidy k).stopped }
  exact h.setPeer htidy fun id _ _ => hp.ended id

/-- A session leaves the set once it has been stopped. -/
theorem Bonds.sessions (h : Bonds r) {sessions : List Nat}
    (hstopped : ∀ k, k < r.nextPeer → k ∉ sessions → k ∉ r.sessions ∨ (r.peers k).closed = true) :
    Bonds { r with sessions } := by
  refine { h with tidy := ?_ }
  intro k
  have htidy := h.tidy k
  refine { htidy with stopped := ?_ }
  rintro ⟨hk, hmem⟩
  rcases hstopped k hk hmem with hmem | hclosed
  · exact htidy.stopped ⟨hk, hmem⟩
  · exact hclosed

theorem ws_shut (r : Relay ω L τ) (f f' : Nat) (why : String) :
    ((r.shut f' why).heap f).ws = (r.heap f).ws :=
  forall_shut (fun f flow => flow.ws = (r.heap f).ws) rfl (fun _ _ => rfl) f

theorem ending_ws [Limits L] (f : Nat) (ws : Option (Nat × Nat)) :
    Ending fun _ (r : Relay ω L τ) => (r.heap f).ws = ws where
  peer := fun _ _ _ h => h
  pause := fun _ _ _ h => (Flow.face_of_core (core_pauseFlow ..)).ws.trans h
  shut := fun why h _ => (ws_shut _ f _ why).trans h
  leave := fun h => h

variable [WireSocket ω] [Limits L]

/-- Finishing a flow whose channel is dead marks the channel. -/
theorem peers_finishDead (hlive : (r.heap f).state ≠ .closed) (hws : (r.heap f).ws = some (k, id))
    (hgone : (r.peers k).Gone id) (why : String) :
    r.finishDead f why =
      ((r.shut f why).setPeer k ((r.peers k).put id fun ch => { ch with closing := true })).leave
        f := by
  unfold Relay.finishDead
  rw [if_neg hlive]
  dsimp only
  rw [heap_shut_self, hws]
  dsimp only
  have hclose : ((r.shut f why).peers k).close id =
      (r.peers k).put id fun ch => { ch with closing := true } :=
    MultiplexPeer.close_of_gone hgone
  rw [hclose]

/-- The `close` hook of the channel of a flow that has not finished. -/
theorem BondsAt.finishDead (h : BondsAt (owing k (.closed id :: hooks)) r)
    (hdata : r.data (k, id) = some f) (hlive : (r.heap f).state ≠ .closed) (why : String) :
    BondsAt (owing k hooks) (r.finishDead f why) := by
  have hws : (r.heap f).ws = some (k, id) := h.bound (k, id) f hdata hlive
  have hshut : BondsAt (owing k (.closed id :: hooks)) (r.shut f why) :=
    h.shut (h.mayFinish (by simp [hws])) why
  -- Its flow has finished, so nothing is bound to the channel any more.
  have hfree : ¬ ((r.shut f why).roles k).bound id := by
    rintro ⟨f', hdata', hlive'⟩
    obtain rfl : f' = f := Option.some.inj (hdata'.symm.trans hdata)
    exact hlive' (by rw [heap_shut_self])
  have hheeded : BondsAt (owing k hooks) (r.shut f why) := by
    refine hshut.heeded fun id' heq => ?_
    cases heq
    exact hfree
  have hput : BondsAt (owing k hooks)
      ((r.shut f why).setPeer k ((r.peers k).put id fun ch => { ch with closing := true })) := by
    have htidy : Tidy ((r.shut f why).roles k)
        { (r.peers k).put id fun ch => { ch with closing := true } with hooks } := by
      have hat := hheeded.tidy k
      unfold owing at hat
      rw [update_self] at hat
      have hwaiting : ¬ ((r.shut f why).roles k).waiting id := by
        rintro ⟨a, ha⟩
        exact h.data_ne ha f hdata
      have horderly : ({ (r.peers k).put id fun ch => { ch with closing := true } with
          hooks } : MultiplexPeer ω).Orderly ((r.shut f why).roles k) :=
        hat.toOrderly.put (fun _ hch => hch) (fun _ hbound => absurd hbound hfree)
          fun _ hid => absurd hid hwaiting
      exact { horderly with halted := hat.halted.put fun _ hch => hch }
    have hset := hheeded.setPeer htidy fun id' _ _ hid' => hid'.put fun _ hch => hch
    have howed : update (owing k hooks) k hooks = owing k hooks := by
      unfold owing
      rw [Function.update_idem]
    have hhooks : { (r.peers k).put id fun ch => { ch with closing := true } with hooks := [] } =
        (r.peers k).put id fun ch => { ch with closing := true } := by
      have hnil := h.hooks k
      rw [MultiplexPeer.put, ← hnil]
    rw [howed, hhooks] at hset
    exact hset
  rw [peers_finishDead hlive hws h.gone]
  exact hput.leave f

theorem BondsAt.heed (h : BondsAt (owing k (hook :: hooks)) r) :
    BondsAt (owing k hooks) (r.heed k hook) := by
  cases hook with
  | closed id =>
    rw [heed_closed]
    cases hdata : r.data (k, id) with
    | none =>
      refine h.heeded fun id' heq => ?_
      cases heq
      rintro ⟨f, hf, -⟩
      rw [hdata] at hf
      cases hf
    | some f =>
      by_cases hlive : (r.heap f).state = .closed
      · have hsame : r.finishDead f "client closed" = r := if_pos hlive
        rw [Option.elim_some, hsame]
        refine h.heeded fun id' heq => ?_
        cases heq
        rintro ⟨f', hf', hlive'⟩
        rw [hdata] at hf'
        cases hf'
        exact hlive' hlive
      · exact h.finishDead hdata hlive _
  | pause id paused =>
    rw [heed_pause]
    have hheeded := h.heeded fun _ heq => nomatch heq
    cases r.data (k, id) with
    | none => exact hheeded
    | some f => exact hheeded.pauseFlow f paused
  | opened id command | message id msg => exact h.heeded fun _ heq => nomatch heq

theorem BondsAt.heedAll : ∀ (hooks : List HookCall) (r : Relay ω L τ),
    BondsAt (owing k hooks) r → Bonds (hooks.foldl (Relay.heed k) r)
  | [], r, h => by
    rw [owing_nil] at h
    exact h
  | _ :: hooks, _, h => BondsAt.heedAll hooks _ h.heed

/-- A call of a session that keeps it in order. -/
theorem Bonds.callPeer (h : Bonds r) (k : Nat) (hop : Tidy (r.rolesNow k) (op (r.peers k))) :
    Bonds (r.callPeer k op) :=
  BondsAt.heedAll _ _ (h.called k hop)

/-! ### Which sessions have been stopped -/

theorem BondsAt.closed_heed (h : BondsAt (owing k (hook :: hooks)) r) (k' : Nat) :
    ((r.heed k hook).peers k').closed = (r.peers k').closed := by
  cases hook with
  | closed id =>
    rw [heed_closed]
    cases hdata : r.data (k, id) with
    | none => rfl
    | some f =>
      by_cases hlive : (r.heap f).state = .closed
      · have hsame : r.finishDead f "client closed" = r := if_pos hlive
        rw [Option.elim_some, hsame]
      · rw [Option.elim_some,
          peers_finishDead hlive (h.bound (k, id) f hdata hlive) h.gone]
        change (update r.peers k _ k').closed = _
        by_cases heq : k' = k
        · subst heq
          rw [update_self]
          rfl
        · rw [update_of_ne heq]
  | pause id paused =>
    rw [heed_pause]
    cases r.data (k, id) <;> rfl
  | opened id command => rfl
  | message id msg => rfl

theorem BondsAt.closed_heedAll (k' : Nat) : ∀ (hooks : List HookCall) (r : Relay ω L τ),
    BondsAt (owing k hooks) r →
    ((hooks.foldl (Relay.heed k) r).peers k').closed = (r.peers k').closed
  | [], _, _ => rfl
  | _ :: hooks, _, h => (BondsAt.closed_heedAll k' hooks _ h.heed).trans (h.closed_heed k')

theorem Bonds.closed_callPeer (h : Bonds r) (k : Nat) (hop : Tidy (r.rolesNow k) (op (r.peers k)))
    (k' : Nat) :
    ((r.callPeer k op).peers k').closed =
      if k' = k then (op (r.peers k)).closed else (r.peers k').closed := by
  refine (BondsAt.closed_heedAll k' _ _ (h.called k hop)).trans ?_
  change (update r.peers k _ k').closed = _
  split
  · next heq =>
    subst heq
    rw [update_self]
  · next hne => rw [update_of_ne hne]

/-- A stopped session stays stopped. -/
theorem Bonds.closed_callPeer_of_closed (h : Bonds r) (k : Nat)
    (hop : Tidy (r.rolesNow k) (op (r.peers k))) {k' : Nat} (hclosed : (r.peers k').closed = true) :
    ((r.callPeer k op).peers k').closed = true := by
  rw [h.closed_callPeer k hop]
  split
  · next heq =>
    subst heq
    exact hop.stopped hclosed
  · exact hclosed

/-! ## The flow's own events -/

section Ws

variable (r : Relay ω L τ) (f : Nat)

theorem ws_callChannel (f' : Nat) (op : Nat → MultiplexPeer ω → MultiplexPeer ω) :
    ((r.callChannel f' op).heap f).ws = (r.heap f).ws :=
  (ending_ws f _).callChannel [] f' op rfl

theorem ws_finish (f' : Nat) (why : String) : ((r.finish f' why).heap f).ws = (r.heap f).ws :=
  (ending_ws f _).finish [] f' why rfl

end Ws

theorem Bonds.callChannel (h : Bonds r) {op : Nat → MultiplexPeer ω → MultiplexPeer ω}
    (hop : ∀ (R : Roles) id p, Tidy R p → Tidy R (op id p)) (f : Nat) :
    Bonds (r.callChannel f op) := by
  unfold Relay.callChannel
  cases (r.heap f).ws with
  | none => exact h
  | some key => exact h.callPeer key.1 (hop _ key.2 _ (h.tidyPeer key.1))

theorem Bonds.finish (h : Bonds r) (hmay : r.MayFinish f) (why : String) :
    Bonds (r.finish f why) ∧ ∀ k, (r.peers k).closed = true →
      ((r.finish f why).peers k).closed = true := by
  unfold Relay.finish
  split
  · exact ⟨h, fun _ hclosed => hclosed⟩
  · have hshut : Bonds (r.shut f why) := BondsAt.shut h hmay why
    suffices hclose : Bonds ((r.shut f why).callChannel f MultiplexPeer.close) ∧
        ∀ k, (r.peers k).closed = true →
          (((r.shut f why).callChannel f MultiplexPeer.close).peers k).closed = true from
      ⟨BondsAt.leave hclose.1 f, hclose.2⟩
    unfold Relay.callChannel
    cases hws : ((r.shut f why).heap f).ws with
    | none => exact ⟨hshut, fun _ hclosed => hclosed⟩
    | some key =>
      have hdata : r.data key = some f := hshut.channel f key hws
      have htidy : Tidy ((r.shut f why).rolesNow key.1)
          (((r.shut f why).peers key.1).close key.2) :=
        MultiplexPeer.tidy_close (hshut.tidyPeer key.1) ?_ ?_
      · exact ⟨hshut.callPeer key.1 htidy, fun k hclosed =>
          hshut.closed_callPeer_of_closed key.1 htidy hclosed⟩
      · -- The flow of the channel has just finished.
        rintro ⟨f', hdata', hlive'⟩
        obtain rfl : f' = f := Option.some.inj (hdata'.symm.trans hdata)
        exact hlive' (by rw [heap_shut_self])
      · rintro ⟨a, ha⟩
        exact h.data_ne ha f hdata

theorem Bonds.stopPeer (h : Bonds r) (k : Nat) : Bonds (r.callPeer k MultiplexPeer.stop) :=
  h.callPeer k (MultiplexPeer.tidy_stop (h.tidyPeer k)).1

theorem Bonds.closed_stopPeer (h : Bonds r) (k k' : Nat)
    (hclosed : k' = k ∨ (r.peers k').closed = true) :
    ((r.callPeer k MultiplexPeer.stop).peers k').closed = true := by
  obtain ⟨htidy, hstop, -⟩ := MultiplexPeer.tidy_stop (h.tidyPeer k)
  rw [h.closed_callPeer k htidy k']
  split
  · exact hstop
  · next hne => exact hclosed.resolve_left hne

def Attached (f : Nat) (r : Relay ω L τ) : Prop :=
  (r.heap f).ws ≠ none

theorem Bonds.callAttached (h : Bonds r) (hat : r.Attached f)
    {op : Nat → MultiplexPeer ω → MultiplexPeer ω}
    (hop : ∀ (R : Roles) id p, Tidy R p → Tidy R (op id p)) :
    Bonds (r.callChannel f op) ∧ (r.callChannel f op).Attached f := by
  refine ⟨h.callChannel hop f, ?_⟩
  rw [Attached, ws_callChannel]
  exact hat

theorem facial_bonds (f : Nat) : Facial f fun r : Relay ω L τ => Bonds r ∧ r.Attached f where
  face := by
    rintro r g ⟨h, hat⟩ hface
    refine ⟨h.setFlow hface fun hnone => absurd hnone hat, ?_⟩
    rw [Attached, heap_setFlow_self, hface.ws]
    exact hat
  counts := fun _ _ _ _ h => ⟨h.1.same rfl rfl, h.2⟩
  charge := fun _ _ _ h => ⟨h.1.same rfl rfl, h.2⟩
  sendText := fun _ text h => h.1.callAttached h.2 fun _ id _ hp =>
    MultiplexPeer.tidy_sendText hp id text
  sendBinary := fun _ bytes h => h.1.callAttached h.2 fun _ id _ hp =>
    MultiplexPeer.tidy_sendBinary hp id bytes
  ack := fun _ n h => h.1.callAttached h.2 fun _ id _ hp => MultiplexPeer.tidy_ack hp id n
  finish := by
    rintro r why ⟨h, hat⟩
    refine ⟨(h.finish (h.mayFinish hat) why).1, ?_⟩
    rw [Attached, ws_finish]
    exact hat

end Relay

end EmulateComputer
