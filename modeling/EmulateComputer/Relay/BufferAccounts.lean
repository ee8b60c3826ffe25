import Mathlib.Algebra.BigOperators.Group.Finset.Basic
import Mathlib.Algebra.Order.BigOperators.Group.Finset
import EmulateComputer.Relay.Admissions

/-!
# BufferAccounts — what the relay has buffered

Every flow counts the bytes of its two queues in `buffered`, and the relay counts them all.  A
handler reserves bytes before it queues them and releases them after it has taken them off, so
between the two a flow has more reserved than it holds; `AccountsAt` says how much.

One write breaks the accounts.  When the TCP socket takes a part of a chunk, the relay acknowledges
that part before it keeps the rest, and the acknowledgement stops the session when the buffer of the
WebSocket is full.  The flow is closed then, and the rest is reserved for a closed flow, which
nothing will release.  `choked` records such a write, and the accounts hold in every run without.
-/

namespace EmulateComputer

open Function (update update_self update_of_ne forall_update_iff)

namespace Relay

variable {ω L τ : Type}

/-! ## The accounts -/

def Flow.queued (flow : Flow) : Nat :=
  (flow.pending.map (·.bytes.length)).sum + (flow.backlog.map List.length).sum

/-- The count of one flow, which has `n` more bytes reserved than it holds. -/
structure Flow.Counted (n : Nat) (flow : Flow) : Prop where
  live : flow.state ≠ .closed → flow.buffered = flow.queued + n
  closed : flow.state = .closed → flow.buffered = 0 ∧ flow.pending = []
  limit : flow.buffered ≤ FLOW_BUFFER_LIMIT

variable {n : Nat} {flow : Flow}

theorem Flow.Counted.nonneg (h : flow.Counted n) : 0 ≤ flow.buffered := by
  by_cases hc : flow.state = .closed
  · rw [(h.closed hc).1]
  · rw [h.live hc]
    omega

structure AccountsAt (reserved : Nat → Nat) (r : Relay ω L τ) : Prop where
  flows : ∀ f, (r.heap f).Counted (reserved f)
  made : ∀ f, r.nextFlow ≤ f → (r.heap f).state = .closed
  total : r.buffered = ∑ f ∈ Finset.range r.nextFlow, (r.heap f).buffered
  bound : r.buffered ≤ RELAY_BUFFER_LIMIT

/-- Between events nothing is reserved. -/
abbrev Accounts (r : Relay ω L τ) : Prop :=
  AccountsAt (fun _ => 0) r

/-- `n` bytes are reserved for flow `f`. -/
def reserving (f n : Nat) : Nat → Nat :=
  update (fun _ => 0) f n

variable {r r' : Relay ω L τ} {reserved reserved' : Nat → Nat} {f : Nat} {a b : Flow}

theorem AccountsAt.made_lt (h : AccountsAt reserved r) (hlive : (r.heap f).state ≠ .closed) :
    f < r.nextFlow := by
  by_contra hle
  exact hlive (h.made f (Nat.le_of_not_lt hle))

/-- One flow changes, and the relay's count by as much. -/
theorem AccountsAt.replace (h : AccountsAt reserved r) (hlive : (r.heap f).state ≠ .closed)
    (hheap : r'.heap = update r.heap f flow) (hnext : r'.nextFlow = r.nextFlow)
    (hbuffered : r'.buffered = r.buffered + (flow.buffered - (r.heap f).buffered))
    (hflow : flow.Counted (reserved' f)) (hother : ∀ f', f' ≠ f → reserved' f' = reserved f')
    (hbound : r'.buffered ≤ RELAY_BUFFER_LIMIT) : AccountsAt reserved' r' := by
  have hself : r'.heap f = flow := by rw [hheap, update_self]
  have hne : ∀ f', f' ≠ f → r'.heap f' = r.heap f' := fun f' hne => by
    rw [hheap, update_of_ne hne]
  have hf := h.made_lt hlive
  refine ⟨fun f' => ?_, fun f' hf' => ?_, ?_, hbound⟩
  · by_cases heq : f' = f
    · rw [heq, hself]
      exact hflow
    · rw [hne f' heq, hother f' heq]
      exact h.flows f'
  · rw [hnext] at hf'
    rw [hne f' (by omega)]
    exact h.made f' hf'
  · have hmem : f ∈ Finset.range r.nextFlow := Finset.mem_range.2 hf
    have hrest : ∑ f' ∈ (Finset.range r.nextFlow).erase f, (r'.heap f').buffered =
        ∑ f' ∈ (Finset.range r.nextFlow).erase f, (r.heap f').buffered :=
      Finset.sum_congr rfl fun f' hf' => by rw [hne f' (Finset.ne_of_mem_erase hf')]
    have hold := Finset.add_sum_erase _ (fun f' => (r.heap f').buffered) hmem
    have hnew := Finset.add_sum_erase _ (fun f' => (r'.heap f').buffered) hmem
    have htotal := h.total
    rw [hnext, hbuffered]
    rw [hself, hrest] at hnew
    omega

/-- The flow has finished or not as before, and what it counts has not changed. -/
structure Flow.SameCounts (a b : Flow) : Prop where
  closed : b.state = .closed ↔ a.state = .closed
  buffered : b.buffered = a.buffered
  pending : b.pending = a.pending
  backlog : b.backlog = a.backlog

theorem Flow.sameCounts_of_core (h : b.core = a.core) : a.SameCounts b where
  closed := (Flow.face_of_core h).closed
  buffered := congrArg Flow.Core.buffered h
  pending := congrArg Flow.Core.pending h
  backlog := congrArg Flow.Core.backlog h

theorem Flow.Counted.same (h : a.Counted n) (hsame : a.SameCounts b) : b.Counted n where
  live := by
    intro hlive
    rw [hsame.buffered, Flow.queued, hsame.pending, hsame.backlog]
    exact h.live fun hc => hlive (hsame.closed.2 hc)
  closed := by
    intro hc
    rw [hsame.buffered, hsame.pending]
    exact h.closed (hsame.closed.1 hc)
  limit := by
    rw [hsame.buffered]
    exact h.limit

theorem AccountsAt.counts (h : AccountsAt reserved r) (hnext : r'.nextFlow = r.nextFlow)
    (hbuffered : r'.buffered = r.buffered)
    (hflow : ∀ f, (r.heap f).SameCounts (r'.heap f)) : AccountsAt reserved r' := by
  refine ⟨fun f => (h.flows f).same (hflow f), fun f hf => ?_, ?_, ?_⟩
  · rw [hnext] at hf
    exact (hflow f).closed.2 (h.made f hf)
  · rw [hbuffered, hnext, h.total]
    exact Finset.sum_congr rfl fun f _ => (hflow f).buffered.symm
  · rw [hbuffered]
    exact h.bound

theorem AccountsAt.same (h : AccountsAt reserved r) (hnext : r'.nextFlow = r.nextFlow)
    (hbuffered : r'.buffered = r.buffered) (hheap : r'.heap = r.heap) : AccountsAt reserved r' :=
  h.counts hnext hbuffered fun f => by rw [hheap]; exact ⟨Iff.rfl, rfl, rfl, rfl⟩

variable {g : Flow → Flow}

theorem AccountsAt.setFlow (h : AccountsAt reserved r)
    (hsame : (r.heap f).SameCounts (g (r.heap f))) : AccountsAt reserved (r.setFlow f g) := by
  exact h.counts rfl rfl ((forall_update_iff r.heap fun f' => (r.heap f').SameCounts).2
    ⟨hsame, fun _ _ => ⟨Iff.rfl, rfl, rfl, rfl⟩⟩)

/-! ## Reserving and releasing -/

/-- What has been reserved is queued. -/
theorem AccountsAt.settle (h : AccountsAt (reserving f n) r)
    (hlive : (r.heap f).state ≠ .closed) (hstate : (g (r.heap f)).state = (r.heap f).state)
    (hbuffered : (g (r.heap f)).buffered = (r.heap f).buffered)
    (hqueued : (g (r.heap f)).queued = (r.heap f).queued + n) : Accounts (r.setFlow f g) := by
  have hcount := (h.flows f).live hlive
  rw [reserving, update_self] at hcount
  refine h.replace hlive rfl rfl ?_ ⟨fun _ => ?_, fun hc => ?_, ?_⟩ (fun f' hne => ?_) h.bound
  · change r.buffered = _
    omega
  · omega
  · exact absurd (hstate.symm.trans hc) hlive
  · rw [hbuffered]
    exact (h.flows f).limit
  · rw [reserving, update_of_ne hne]

/-- What has been taken off a queue is released. -/
theorem AccountsAt.take (h : Accounts r)
    (hlive : (r.heap f).state ≠ .closed) (hstate : (g (r.heap f)).state = (r.heap f).state)
    (hbuffered : (g (r.heap f)).buffered = (r.heap f).buffered)
    (hqueued : (g (r.heap f)).queued + n = (r.heap f).queued) :
    Accounts ((r.setFlow f g).releaseBuffer f n) := by
  have hcount := (h.flows f).live hlive
  have hlimit := (h.flows f).limit
  have hbound := h.bound
  have hheap : ((r.setFlow f g).releaseBuffer f n).heap = update r.heap f
      { g (r.heap f) with buffered := (g (r.heap f)).buffered - n } := by
    unfold releaseBuffer Relay.setFlow
    simp only [update_self, Function.update_idem]
  refine AccountsAt.replace h hlive hheap rfl ?_ ⟨fun _ => ?_, fun hc => ?_, ?_⟩ (fun _ _ => rfl) ?_
  · change r.buffered - n = _
    dsimp only
    omega
  · have hsame : ({ g (r.heap f) with buffered := (g (r.heap f)).buffered - n } : Flow).queued =
        (g (r.heap f)).queued := rfl
    rw [hsame]
    dsimp only
    omega
  · exact absurd (hstate.symm.trans hc) hlive
  · dsimp only
    omega
  · change r.buffered - n ≤ _
    omega

/-! ## Finishing -/

theorem AccountsAt.shut (h : AccountsAt reserved r) (hlive : (r.heap f).state ≠ .closed)
    (why : String) : AccountsAt reserved (r.shut f why) := by
  have hbuffered : (r.shut f why).buffered = r.buffered - (r.heap f).buffered := by
    change r.buffered - ((r.setFlow f fun flow =>
      { flow with state := .closed, why := some why, quotaTimer := false }).heap f).buffered = _
    rw [heap_setFlow_self]
  have hnonneg := (h.flows f).nonneg
  have hbound := h.bound
  refine h.replace hlive (heap_shut r f why) rfl ?_
    ⟨fun hstate => absurd rfl hstate, fun _ => ⟨rfl, rfl⟩, ?_⟩ (fun _ _ => rfl) ?_
  · dsimp only
    omega
  · exact Int.natCast_nonneg _
  · omega

/-- As long as no partial write has met a full WebSocket, the accounts are right. -/
def Clear (reserved : Nat → Nat) (r : Relay ω L τ) : Prop :=
  r.choked = false → AccountsAt reserved r

theorem Clear.inert (h : Clear reserved r)
    (hcore : (g (r.heap f)).core = (r.heap f).core) : Clear reserved (r.setFlow f g) :=
  fun hclear => (h hclear).setFlow (Flow.sameCounts_of_core hcore)

theorem Clear.setFlow (h : Clear reserved r)
    (hsame : (r.heap f).SameCounts (g (r.heap f))) : Clear reserved (r.setFlow f g) :=
  fun hclear => (h hclear).setFlow hsame

theorem ending_clear [Limits L] : Ending (ω := ω) (L := L) (τ := τ) fun _ => Clear reserved where
  peer := fun _ _ _ h hclear => (h hclear).same rfl rfl rfl
  pause := by
    intro r _ f paused h
    rw [pauseFlow_eq]
    exact h.inert (Flow.core_pressed _)
  shut := fun why h hlive hclear => (h hclear).shut hlive why
  leave := fun h hclear => (h hclear).same rfl rfl rfl

/-! ## The byte path -/

/-- The flow has not finished, as far as the accounts are concerned. -/
def Open (f : Nat) (r : Relay ω L τ) : Prop :=
  r.choked = false → (r.heap f).state ≠ .closed

/-- The flow is attached, and the accounts are right. -/
def Sound (f : Nat) (r : Relay ω L τ) : Prop :=
  (Bonds r ∧ r.Attached f) ∧ Clear (fun _ => 0) r

theorem Sound.open_of_pending (h : r.Sound f) (hpending : (r.heap f).pending ≠ []) : r.Open f :=
  fun hclear hc => hpending (((h.2 hclear).flows f).closed hc).2

section Path

variable [WireSocket ω]

theorem hooks_ack {p : MultiplexPeer ω}
    (hroom : p.bufferedAmount.1.any (Mux.MUX_SOCKET_BUFFER ≤ ·) = false) (id n : Nat) :
    (p.ack id n).hooks = p.hooks := by
  have hput : ∀ g, (p.put id g).bufferedAmount.1 = p.bufferedAmount.1 ∧
      (p.put id g).bufferedAmount.2.hooks = p.hooks := by
    intro g
    unfold MultiplexPeer.bufferedAmount MultiplexPeer.put
    cases p.ws <;> exact ⟨rfl, rfl⟩
  unfold MultiplexPeer.ack MultiplexPeer.control
  dsimp only
  rw [(hput _).1, hroom]
  simp only [Bool.false_eq_true, if_false]
  split <;> exact (hput _).2

variable [Limits L]

theorem Clear.reserve (h : Clear (fun _ => 0) r) (hopen : r.Open f) (n : Nat) {ok : Bool}
    {reserved : Relay ω L τ} (heq : r.reserve f n = (ok, reserved)) :
    bif ok then Clear (reserving f n) reserved ∧ reserved.Open f
    else Clear (fun _ => 0) reserved := by
  unfold Relay.reserve at heq
  dsimp only at heq
  split at heq
  · cases heq
    exact ending_clear.finish [] f _ h
  · next hroom =>
    cases heq
    simp only [not_or, not_lt] at hroom
    obtain ⟨hflow, hrelay, -⟩ := hroom
    refine ⟨fun hclear => ?_, fun hclear => ?_⟩
    · have hat := h hclear
      have hlive := hopen hclear
      have hcount := (hat.flows f).live hlive
      refine hat.replace hlive rfl rfl ?_ ⟨fun _ => ?_, fun hc => absurd hc hlive, hflow⟩
        (fun f' hne => ?_) hrelay
      · dsimp only
        omega
      · rw [reserving, update_self]
        change (r.heap f).buffered + (n : Int) = ((r.heap f).queued : Int) + n
        omega
      · rw [reserving, update_of_ne hne]
    · rw [heap_setFlow_self]
      exact hopen hclear

theorem Clear.keep (h : Clear (fun _ => 0) r) (hopen : r.Open f) {bytes : List U8}
    {place : List (List U8) → List (List U8)}
    (hplace : ∀ backlog, ((place backlog).map List.length).sum =
      (backlog.map List.length).sum + bytes.length) :
    Clear (fun _ => 0) (r.keep f bytes place) := by
  unfold Relay.keep
  rcases hres : r.reserve f bytes.length with ⟨_ | _, reserved⟩
  · exact h.reserve hopen _ hres
  · obtain ⟨hclear, hopen⟩ := h.reserve hopen _ hres
    refine fun hchoked => (hclear hchoked).settle (hopen hchoked) rfl rfl ?_
    simp only [Flow.queued, hplace]
    omega

/-! ### Acknowledgements -/

theorem choked_callChannel (r : Relay ω L τ) (f : Nat)
    (op : Nat → MultiplexPeer ω → MultiplexPeer ω) : (r.callChannel f op).choked = r.choked := by
  have hending : Ending fun _ (r' : Relay ω L τ) => r'.choked = r.choked :=
    ⟨fun _ _ _ h => h, fun _ _ _ h => h, fun _ h _ => h, fun h => h⟩
  exact hending.callChannel [] f op rfl

theorem Clear.ack (h : Clear reserved r) (n length : Nat) : Clear reserved (r.ack f n length) := by
  refine ending_clear.callChannel [] f _ fun hclear => ?_
  have hold := h (Bool.or_eq_false_iff.1 hclear).1
  exact hold.same rfl rfl rfl

/-- An acknowledgement of a partial write that leaves the run clear closes nothing. -/
theorem Open.ack (hbonds : Bonds r) (hopen : r.Open f) {n length : Nat} (hpart : n < length) :
    (r.ack f n length).Open f := by
  intro hclear
  unfold Relay.ack at hclear ⊢
  rw [choked_callChannel, Bool.or_eq_false_iff] at hclear
  obtain ⟨hchoked, hfull⟩ := hclear
  have hroom : r.full f = false := by simpa [hpart] using hfull
  unfold Relay.callChannel
  unfold full at hroom
  cases hws : (r.heap f).ws with
  | none =>
    dsimp only
    rw [hws]
    exact hopen hchoked
  | some key =>
    obtain ⟨k, id⟩ := key
    rw [hws] at hroom
    dsimp only at hroom ⊢
    rw [hws]
    have hhooks : ((r.peers k).ack id n).hooks = [] := by
      rw [hooks_ack hroom]
      exact hbonds.hooks k
    unfold Relay.callPeer
    dsimp only
    rw [hhooks]
    exact hopen hchoked

/-! ### Writing and forwarding -/

/-- A change that the accounts do not see. -/
theorem Sound.setFlow (h : r.Sound f) (hface : Flow.Face (r.heap f) (g (r.heap f)))
    (hsame : (r.heap f).SameCounts (g (r.heap f))) : (r.setFlow f g).Sound f :=
  ⟨(facial_bonds f).face r g h.1 hface, h.2.setFlow hsame⟩

theorem Sound.finish (h : r.Sound f) (why : String) : (r.finish f why).Sound f :=
  ⟨(facial_bonds f).finish r why h.1, ending_clear.finish [] f why h.2⟩

theorem Sound.sendText (h : r.Sound f) (text : String) : (r.sendText f text).Sound f :=
  ⟨(facial_bonds f).sendText r text h.1, ending_clear.callChannel [] f _ h.2⟩

theorem Sound.sendEof (h : r.Sound f) : (r.sendEof f).Sound f :=
  (h.setFlow ⟨rfl, Iff.rfl, rfl⟩ ⟨Iff.rfl, rfl, rfl, rfl⟩).sendText "EOF"

/-- The handler has bytes of a flow that has not finished. -/
def Stage.Holding : Stage → Prop
  | .free _ => False
  | .left _ bytes => bytes ≠ []
  | _ => True

/-- The accounts are right, and the bytes in the handler's hands belong to an open flow. -/
def SoundAt (f : Nat) (s : Stage) (r : Relay ω L τ) : Prop :=
  r.Sound f ∧ (s.Holding → r.Open f)

variable {s s' : Stage}

theorem SoundAt.setFlow (h : r.SoundAt f s) (hface : Flow.Face (r.heap f) (g (r.heap f)))
    (hsame : (r.heap f).SameCounts (g (r.heap f))) (hs : s'.Holding → s.Holding) :
    (r.setFlow f g).SoundAt f s' := by
  refine ⟨h.1.setFlow hface hsame, fun hholding hclear hc => ?_⟩
  rw [heap_setFlow_self, hface.closed] at hc
  exact h.2 (hs hholding) hclear hc

theorem path_sound (f : Nat) : Path f (SoundAt (ω := ω) (L := L) (τ := τ) f) where
  inert := fun _ h hcore =>
    h.setFlow (Flow.face_of_core hcore) (Flow.sameCounts_of_core hcore) id
  sendText := fun text h => ⟨h.1.sendText text, False.elim⟩
  finish := fun _ why h => ⟨h.1.finish why, False.elim⟩
  sendEof := fun _ _ h => ⟨h.1.sendEof, False.elim⟩
  settle := fun h => ⟨h.1, False.elim⟩
  calm := fun _ h => ⟨h.1, False.elim⟩
  nothing := fun h => ⟨h.1, False.elim⟩
  count := fun _ h => h.setFlow ⟨rfl, Iff.rfl, rfl⟩ ⟨Iff.rfl, rfl, rfl, rfl⟩ id
  push := by
    intro r r' item hres h
    obtain ⟨hclear, hopen⟩ := h.1.2.reserve (h.2 trivial) _ hres
    refine ⟨⟨(facial_bonds f).path.push hres h.1.1, fun hchoked =>
      (hclear hchoked).settle (hopen hchoked) rfl rfl ?_⟩, False.elim⟩
    simp only [Flow.queued, List.map_append, List.sum_append, List.map_singleton,
      List.sum_singleton]
    omega
  gate := fun hpending h =>
    ⟨⟨(facial_bonds f).charge _ _ _ h.1.1, fun hclear => (h.1.2 hclear).same rfl rfl rfl⟩,
      fun _ => h.1.open_of_pending (by simp [hpending])⟩
  meter := fun _ _ h => h.setFlow ⟨rfl, Iff.rfl, rfl⟩ ⟨Iff.rfl, rfl, rfl, rfl⟩ id
  await := by
    intro r item rest h
    refine ⟨⟨(facial_bonds f).awaitVerdict h.1.1 item, ?_⟩, False.elim⟩
    have hmeter : (r.meter f [.charged item]).Sound f :=
      h.1.setFlow ⟨rfl, Iff.rfl, rfl⟩ ⟨Iff.rfl, rfl, rfl, rfl⟩
    refine Clear.setFlow ?_ ⟨Iff.rfl, rfl, rfl, rfl⟩
    exact (hmeter.2.setFlow ⟨Iff.rfl, rfl, rfl, rfl⟩).inert (Flow.core_pressed _)
  answered := by
    intro r item rest hlive _ _ h
    refine ⟨h.1.setFlow ⟨rfl, Iff.rfl, rfl⟩ ⟨Iff.rfl, rfl, rfl, rfl⟩, fun _ _ => ?_⟩
    rw [Relay.answered, heap_setFlow_self]
    exact hlive
  unasked := fun _ _ _ h => h.setFlow ⟨rfl, Iff.rfl, rfl⟩ ⟨Iff.rfl, rfl, rfl, rfl⟩ id
  refused := fun why _ h =>
    ⟨(h.1.setFlow ⟨rfl, Iff.rfl, rfl⟩ ⟨Iff.rfl, rfl, rfl, rfl⟩).finish why, False.elim⟩
  shift := by
    intro r item rest hpending h
    have hopen := h.2 trivial
    refine ⟨⟨(facial_bonds f).path.shift hpending h.1.1, fun hclear =>
      (h.1.2 hclear).take (hopen hclear) rfl rfl ?_⟩, fun _ hclear => ?_⟩
    · simp only [Flow.queued, hpending, List.map_cons, List.sum_cons]
      omega
    · simpa [shiftPending, releaseBuffer] using hopen hclear
  keepLast := by
    intro r bytes h
    refine ⟨⟨(facial_bonds f).keep h.1.1 _ _, h.1.2.keep (h.2 trivial) fun backlog => ?_⟩,
      False.elim⟩
    rw [List.map_append, List.sum_append, List.map_singleton, List.sum_singleton]
  front := fun _ h => ⟨h.1, fun _ => h.2 trivial⟩
  closed := fun _ h => ⟨h.1, False.elim⟩
  give := fun h => ⟨⟨(facial_bonds f).path.give h.1.1,
    ending_clear.callChannel [] f _ (h.1.2.setFlow ⟨Iff.rfl, rfl, rfl, rfl⟩)⟩, False.elim⟩
  unshift := by
    intro r bytes rest hopened hbacklog h
    have hlive : (r.heap f).state ≠ .closed := by
      simp [hopened]
    refine ⟨⟨(facial_bonds f).path.unshift hopened hbacklog h.1.1, fun hclear =>
      (h.1.2 hclear).take hlive rfl rfl ?_⟩, fun _ _ => ?_⟩
    · simp only [Flow.queued, hbacklog, List.map_cons, List.sum_cons]
      omega
    · simpa [shiftBacklog, releaseBuffer] using hlive
  tcp := fun tcp h => ⟨⟨(facial_bonds f).counts _ _ _ tcp h.1.1,
    fun hclear => (h.1.2 hclear).same rfl rfl rfl⟩, h.2⟩
  wrote := fun _ h => h.setFlow ⟨rfl, Iff.rfl, rfl⟩ ⟨Iff.rfl, rfl, rfl, rfl⟩ fun _ => trivial
  ack := by
    intro r idle bytes n h
    refine ⟨⟨(facial_bonds f).ack _ n ((facial_bonds f).counts r _ _ _ h.1.1), h.1.2.ack n _⟩,
      fun hne => ?_⟩
    -- The rest is kept for a flow that is still there.
    have hpart : n < bytes.length :=
      Nat.lt_of_not_le fun hle => hne (List.drop_eq_nil_of_le hle)
    exact Open.ack h.1.1.1 (h.2 trivial) hpart
  unacked := fun h => ⟨h.1, fun _ => h.2 trivial⟩
  keepLeft := by
    intro r idle bytes hne h
    refine ⟨⟨(facial_bonds f).keep h.1.1 _ _, h.1.2.keep (h.2 hne) fun backlog => ?_⟩, False.elim⟩
    rw [List.map_cons, List.sum_cons, Nat.add_comm]
  done := fun h => ⟨h.1, False.elim⟩

variable [TcpHost τ]

theorem rules_sound (f : Nat) :
    Rules f (fun r => (r.heap f).pending = [] ∧ (r.heap f).state ≠ .closed)
    (Sound (ω := ω) (L := L) (τ := τ) f) := by
  have hsound : Sound f = SoundAt (ω := ω) (L := L) (τ := τ) f (.free false) :=
    funext fun _ => propext ⟨fun h => ⟨h, False.elim⟩, And.left⟩
  rw [hsound]
  exact (path_sound f).rules

theorem Sound.message (h : r.Sound f) (msg : Frame) (now : Nat) :
    (r.message f msg now).Sound f := by
  unfold Relay.message
  split
  · exact h
  · next hlive =>
    have hactive : (r.setFlow f fun flow => { flow with lastActive := now }).Sound f :=
      h.setFlow ⟨rfl, Iff.rfl, rfl⟩ ⟨Iff.rfl, rfl, rfl, rfl⟩
    cases msg with
    | binary bytes =>
      refine ((path_sound f).enqueue ⟨hactive, fun _ _ => ?_⟩).1
      rw [heap_setFlow_self]
      exact hlive
    | text text =>
      dsimp only
      split
      · refine hactive.setFlow ?_ ?_
        · split <;> exact ⟨rfl, Iff.rfl, rfl⟩
        · split <;> exact ⟨Iff.rfl, rfl, rfl, rfl⟩
      · exact hactive

theorem Sound.tcpData (h : r.Sound f) (chunk : List U8) (now : Nat) :
    (r.tcpData f chunk now).Sound f := by
  unfold Relay.tcpData
  have hdelivered : (r.setFlow f fun flow =>
      { flow with delivered := flow.delivered ++ chunk }).Sound f :=
    h.setFlow ⟨rfl, Iff.rfl, rfl⟩ ⟨Iff.rfl, rfl, rfl, rfl⟩
  dsimp only
  generalize r.setFlow f (fun flow => { flow with delivered := flow.delivered ++ chunk }) = given
    at hdelivered ⊢
  split
  · exact hdelivered
  · next hlive =>
    have hactive : (given.setFlow f fun flow => { flow with lastActive := now }).Sound f :=
      hdelivered.setFlow ⟨rfl, Iff.rfl, rfl⟩ ⟨Iff.rfl, rfl, rfl, rfl⟩
    refine ((path_sound f).enqueue ⟨hactive, fun _ _ => ?_⟩).1
    rw [heap_setFlow_self]
    exact hlive

end Path

/-! ## Every run -/

theorem AccountsAt.makeFlow (h : Accounts r) (ip : String) (now : Nat) :
    Accounts (r.makeFlow ip now) := by
  have hold : ∀ f, f ≠ r.nextFlow → (r.makeFlow ip now).heap f = r.heap f := fun f hne =>
    update_of_ne hne _ _
  have hself : (r.makeFlow ip now).heap r.nextFlow = .new ip now := update_self _ _ _
  refine ⟨fun f => ?_, fun f hf => ?_, ?_, h.bound⟩
  · by_cases heq : f = r.nextFlow
    · rw [heq, hself]
      exact ⟨fun _ => rfl, nofun, Int.natCast_nonneg _⟩
    · rw [hold f heq]
      exact h.flows f
  · change r.nextFlow + 1 ≤ f at hf
    rw [hold f (by omega)]
    exact h.made f (by omega)
  · change r.buffered = ∑ f ∈ Finset.range (r.nextFlow + 1), _
    have hsum : ∑ f ∈ Finset.range r.nextFlow, ((r.makeFlow ip now).heap f).buffered =
        ∑ f ∈ Finset.range r.nextFlow, (r.heap f).buffered :=
      Finset.sum_congr rfl fun f hf => by rw [hold f (Nat.ne_of_lt (Finset.mem_range.1 hf))]
    rw [Finset.sum_range_succ, hsum, hself, ← h.total]
    exact (Int.add_zero _).symm

/-- Only the flows that have not finished count. -/
theorem AccountsAt.total_unfinished (h : Accounts r) :
    r.buffered = (r.unfinished.map fun f => (r.heap f).buffered).sum := by
  have hlive : ∀ f ∈ Finset.range r.nextFlow, (r.heap f).buffered ≠ 0 →
      (r.heap f).state ≠ .closed := fun f _ hne hc => hne ((h.flows f).closed hc).1
  have hnodup : r.unfinished.Nodup := List.nodup_range.filter _
  have hfinset : r.unfinished.toFinset =
      (Finset.range r.nextFlow).filter fun f => (r.heap f).state ≠ .closed := by
    ext f
    simp [unfinished]
  rw [h.total, ← Finset.sum_filter_of_ne hlive, ← hfinset, List.sum_toFinset _ hnodup]

section Runs

variable [WireSocket ω] [Limits L]

theorem Clear.admitFlow (h : Clear (fun _ => 0) r) (k id : Nat)
    (outcome : Except Unit (Option Refusal)) (now : Nat) :
    Clear (fun _ => 0) (r.admitFlow k id outcome now) := by
  have haway : Clear (fun _ => 0) (r.turnAway k id) :=
    ending_clear.callPeer [] k _ (ending_clear.callPeer [] k _ fun hclear =>
      (h hclear).same rfl rfl rfl)
  unfold Relay.admitFlow
  split
  · next command ip answer ha =>
    split
    · exact haway
    · exact haway
    · dsimp only
      split
      · exact fun hclear => (h hclear).same rfl rfl rfl
      · exact fun hclear => ((h hclear).makeFlow ip now).same rfl rfl rfl
  · exact h

variable [TcpHost τ]

theorem Clear.wire (hbonds : Bonds r) (h : Clear (fun _ => 0) r) (k : Nat) (frame : Frame)
    (now : Nat) : Clear (fun _ => 0) (r.wire k frame now) := by
  have hnote : Clear (fun _ => 0) (r.notePayload k frame) :=
    notePayload_rule k frame h (fun _ hclear => (h hclear).same rfl rfl rfl)
      fun _ _ _ h => h.setFlow ⟨Iff.rfl, rfl, rfl, rfl⟩
  exact Bonds.hear_rule (P := Clear fun _ => 0) (k := k)
    { peer := fun _ => ending_clear.peer []
      pause := fun _ => ending_clear.pause []
      dead := fun _ => ending_clear.finishDead []
      ask := fun _ _ _ _ h hclear => (h hclear).same rfl rfl rfl
      message := fun _ _ msg hbonds hat _ h => (Sound.message ⟨⟨hbonds, hat⟩, h⟩ msg now).2 }
    (hbonds.notePayload k frame) frame hnote

theorem steps_clear : Steps (Clear (ω := ω) (L := L) (τ := τ) fun _ => 0) where
  callPeer := fun _ => ending_clear.callPeer []
  finish := fun _ => ending_clear.finish []
  sessions := fun _ _ h hclear => (h hclear).same rfl rfl rfl
  upgrade := by
    intro r ip ws h
    unfold Relay.upgrade
    split
    · exact h
    · exact fun hclear => (h hclear).same rfl rfl rfl
  wire := fun _ k frame now hbonds h => h.wire hbonds k frame now
  admitFlow := fun _ k id outcome now _ h => h.admitFlow k id outcome now
  forget := fun _ _ _ _ _ h hclear => (h hclear).same rfl rfl rfl
  linked := fun _ _ _ _ _ h hclear => (h hclear).same rfl rfl rfl
  bind := fun _ _ _ h => h.setFlow ⟨Iff.rfl, rfl, rfl, rfl⟩
  tcpData := fun _ _ chunk now hbonds hat h => (Sound.tcpData ⟨⟨hbonds, hat⟩, h⟩ chunk now).2
  rules := fun f => rules_sound f

theorem clear_run (cfg : RelayConfig) (ipaddr : IpAddr) (limits : L) (tcp : τ)
    (events : List (Event ω)) : Clear (fun _ => 0) ((new cfg ipaddr limits tcp).run events) := by
  have hstart : Clear (fun _ => 0) (Relay.new cfg ipaddr limits tcp : Relay ω L τ) := fun _ =>
    ⟨fun _ => ⟨fun _ => rfl, fun _ => ⟨rfl, rfl⟩, Int.natCast_nonneg _⟩, fun _ _ => rfl, rfl,
      Int.natCast_nonneg _⟩
  refine steps_clear.run (C := fun _ _ => True) ?_ events _ (bonds_new cfg ipaddr limits tcp)
    hstart (throughout_true events _)
  intro r now _ _ _ h
  exact sweepIdle_rule now (fun _ => ending_clear.finish [])
    (fun _ f _ _ h => ending_clear.callChannel [] f _ (h.setFlow ⟨Iff.rfl, rfl, rfl, rfl⟩)) h

/-- In a run in which no partial write is acknowledged on a WebSocket with a full buffer, the
accounts are right between any two events. -/
theorem buffers_accounted (cfg : RelayConfig) (ipaddr : IpAddr) (limits : L) (tcp : τ)
    (events : List (Event ω)) (r : Relay ω L τ)
    (hrun : r = (new cfg ipaddr limits tcp).run events) (hclear : r.choked = false) :
    r.buffered = (r.unfinished.map fun f => (r.heap f).buffered).sum ∧
      (∀ f ∈ r.unfinished, (r.heap f).buffered = (r.heap f).queued) ∧
      (∀ f, (r.heap f).state = .closed → (r.heap f).buffered = 0) ∧
      (∀ f, (r.heap f).buffered ≤ FLOW_BUFFER_LIMIT) ∧ r.buffered ≤ RELAY_BUFFER_LIMIT := by
  subst hrun
  have h := clear_run cfg ipaddr limits tcp events hclear
  refine ⟨?_, fun f hf => ?_, fun f hc => ((h.flows f).closed hc).1, fun f => (h.flows f).limit,
    h.bound⟩
  · exact h.total_unfinished
  · have hlive := (List.mem_filter.1 hf).2
    exact (h.flows f).live (of_decide_eq_true hlive)

end Runs

/-- The client sends two bytes, of which the TCP socket takes one.  `readings` is what the relay
sees of the buffer of the WebSocket. -/
def partialWrite (readings : List Nat) : Relay Wire ChargeScript TcpScript :=
  (new ⟨true, [], 100, 4, 1, 1⟩ ⟨fun _ => true, fun _ => "unicast", id⟩ ⟨[]⟩ ⟨[some 1]⟩).run
    [.upgrade "ip" ⟨[], readings⟩, .wire 0 (.text "1 CONNECT host:80") 0,
      .admission 0 1 (.ok none) 0, .attach 0 1, .resolved 0 [], .tcpOpen 0,
      .wire 0 (.binary [0, 0, 0, 1, 65, 66]) 0]

theorem buffers_accounted_partialWrite : (partialWrite []).choked = false ∧
    (partialWrite []).buffered =
      ((partialWrite []).unfinished.map fun f => ((partialWrite []).heap f).buffered).sum :=
  ⟨by decide +kernel,
    (buffers_accounted _ _ _ _ _ (partialWrite []) rfl (by decide +kernel)).1⟩

/-- Three readings go into the `OK`, the fourth is that of the acknowledgement. -/
theorem buffers_leaked_partialWrite : ∃ readings,
    ((partialWrite readings).heap 0).state = .closed ∧
      ((partialWrite readings).heap 0).buffered = 1 ∧
      (partialWrite readings).buffered ≠ ((partialWrite readings).unfinished.map fun f =>
        ((partialWrite readings).heap f).buffered).sum :=
  ⟨[0, 0, 0, Mux.MUX_SOCKET_BUFFER], by decide +kernel⟩

end Relay

end EmulateComputer
