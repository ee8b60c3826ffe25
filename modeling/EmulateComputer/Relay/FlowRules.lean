import EmulateComputer.Relay.Flows

/-!
# FlowRules — how an invariant travels through the relay

Four invariants of the relay are proved in the modules after this one, and each has to be carried
through the same handlers.  The walk is made here, for any predicate that comes with rules for the
primitives.

* A predicate that looks at the identity of the flows only (their owner, their channel, whether
  they have finished) satisfies `Facial`.  It passes through the whole byte path.
* The others have rules of their own for the byte path, `Rules`.

Both are about the events of one flow `f`, to which a channel has been attached.
-/

namespace EmulateComputer

namespace Relay

variable {ω L τ : Type}

/-! ## The parts of the state -/

section Parts

variable (r : Relay ω L τ) (f f' k : Nat) (g : Flow → Flow) (p : MultiplexPeer ω)

@[simp] theorem heap_setFlow_self : (r.setFlow f g).heap f = g (r.heap f) :=
  Function.update_self f _ _

theorem heap_setFlow_of_ne (h : f' ≠ f) : (r.setFlow f g).heap f' = r.heap f' :=
  Function.update_of_ne h _ _

theorem heap_setFlow : (r.setFlow f g).heap f' = if f' = f then g (r.heap f') else r.heap f' := by
  split
  · next h => rw [h, heap_setFlow_self]
  · next h => exact heap_setFlow_of_ne r f f' g h

theorem setFlow_setFlow (g' : Flow → Flow) :
    (r.setFlow f g).setFlow f g' = r.setFlow f fun flow => g' (g flow) := by
  unfold setFlow
  simp only [Function.update_self, Function.update_idem]

end Parts

/-! ## Calls of a session -/

section Calls

variable [WireSocket ω] [Limits L] {P : Relay ω L τ → Prop} {r : Relay ω L τ}

def pauseFlow (f : Nat) (paused : Bool) (r : Relay ω L τ) : Relay ω L τ :=
  (r.setFlow f fun flow => { flow with wsPaused := paused }).updateReadPressure f

theorem heed_closed (r : Relay ω L τ) (k id : Nat) :
    r.heed k (.closed id) = (r.data (k, id)).elim r fun f => r.finishDead f "client closed" := by
  simp only [heed]
  cases r.data (k, id) <;> rfl

theorem heed_pause (r : Relay ω L τ) (k id : Nat) (paused : Bool) :
    r.heed k (.pause id paused) = (r.data (k, id)).elim r fun f => r.pauseFlow f paused := by
  simp only [heed]
  cases r.data (k, id) <;> rfl

/-- What survives the finishing of other flows and the pausing of their sockets survives the
heeding of hooks. -/
theorem heedAll_rule (hpause : ∀ (r : Relay ω L τ) f paused, P r → P (r.pauseFlow f paused))
    (hdead : ∀ (r : Relay ω L τ) f why, P r → P (r.finishDead f why)) (k : Nat) :
    ∀ (hooks : List HookCall) (r : Relay ω L τ), P r → P (hooks.foldl (heed k) r) := by
  have hheed : ∀ (r : Relay ω L τ) hook, P r → P (r.heed k hook) := by
    intro r hook h
    cases hook with
    | closed id =>
      rw [heed_closed]
      cases r.data (k, id) with
      | none => exact h
      | some f => exact hdead r f _ h
    | pause id paused =>
      rw [heed_pause]
      cases r.data (k, id) with
      | none => exact h
      | some f => exact hpause r f paused h
    | opened id command | message id msg => exact h
  intro hooks
  induction hooks with
  | nil => exact fun r h => h
  | cons hook hooks ih => exact fun r h => ih _ (hheed r hook h)

/-- What a family of predicates needs to pass through the calls of a session and the end of a flow.
The list names the flows between the two halves of `finish`. -/
structure Ending (P : List Nat → Relay ω L τ → Prop) : Prop where
  peer : ∀ {r} fs k p, P fs r → P fs (r.setPeer k p)
  pause : ∀ {r} fs f paused, P fs r → P fs (r.pauseFlow f paused)
  shut : ∀ {fs r f} why, P fs r → (r.heap f).state ≠ .closed → P (f :: fs) (r.shut f why)
  leave : ∀ {fs r f}, P (f :: fs) r → P fs (r.leave f)

namespace Ending

variable {P : List Nat → Relay ω L τ → Prop} (hP : Ending P) (fs : List Nat)

include hP

theorem finishDead (f : Nat) (why : String) (h : P fs r) : P fs (r.finishDead f why) := by
  unfold Relay.finishDead
  split
  · exact h
  · next hlive =>
    have hshut := hP.shut why h hlive
    refine hP.leave ?_
    split
    · exact hshut
    · exact hP.peer _ _ _ hshut

theorem heedAll (k : Nat) (hooks : List HookCall) (h : P fs r) : P fs (hooks.foldl (heed k) r) :=
  heedAll_rule (fun _ => hP.pause fs) (fun _ => hP.finishDead fs) k hooks r h

theorem callPeer (k : Nat) (op : MultiplexPeer ω → MultiplexPeer ω) (h : P fs r) :
    P fs (r.callPeer k op) :=
  hP.heedAll fs k _ (hP.peer fs k _ h)

theorem callChannel (f : Nat) (op : Nat → MultiplexPeer ω → MultiplexPeer ω) (h : P fs r) :
    P fs (r.callChannel f op) := by
  unfold Relay.callChannel
  cases (r.heap f).ws with
  | none => exact h
  | some channel => exact hP.callPeer fs _ _ h

theorem finish (f : Nat) (why : String) (h : P fs r) : P fs (r.finish f why) := by
  unfold Relay.finish
  split
  · exact h
  · next hlive => exact hP.leave (hP.callChannel _ f _ (hP.shut why h hlive))

end Ending

end Calls

/-! ## What the invariants look at -/

/-- The identity of a flow and its bytes: what the invariants look at. -/
structure Flow.Core where
  ip : String
  closed : Bool
  ws : Option (Nat × Nat)
  backlog : List (List U8)
  buffered : Int
  pending : List Chunk
  charging : Bool
  received : List U8
  wrote : List U8
  delivered : List U8
  handed : List U8
  taken : List Chunk
  ledger : List Metering
  eofs : List Eof

def Flow.core (flow : Flow) : Flow.Core where
  ip := flow.ip
  closed := flow.state = .closed
  ws := flow.ws
  backlog := flow.backlog
  buffered := flow.buffered
  pending := flow.pending
  charging := flow.charging
  received := flow.received
  wrote := flow.wrote
  delivered := flow.delivered
  handed := flow.handed
  taken := flow.taken
  ledger := flow.ledger
  eofs := flow.eofs

/-- From one live state to another. -/
theorem Flow.core_setState {a : Flow} {state : FlowState} (hstate : state ≠ .closed)
    (hlive : a.state ≠ .closed) : ({ a with state } : Flow).core = a.core := by
  simp [Flow.core, hstate, hlive]

def Flow.pressed (flow : Flow) : Flow :=
  if flow.charging ∨ flow.wsPaused then { flow with reading := flow.reading && !flow.tcp }
  else if flow.state = .opened then { flow with reading := flow.reading || flow.tcp }
  else flow

theorem Flow.core_pressed (flow : Flow) : flow.pressed.core = flow.core := by
  unfold Flow.pressed
  split_ifs <;> rfl

/-- A change of `wsPaused` and `reading`. -/
theorem pauseFlow_eq (r : Relay ω L τ) (f : Nat) (paused : Bool) :
    r.pauseFlow f paused =
      r.setFlow f fun flow => ({ flow with wsPaused := paused } : Flow).pressed :=
  setFlow_setFlow r f _ Flow.pressed

theorem core_pauseFlow (r : Relay ω L τ) (f f' : Nat) (paused : Bool) :
    ((r.pauseFlow f' paused).heap f).core = (r.heap f).core := by
  rw [pauseFlow_eq, heap_setFlow]
  split
  · exact Flow.core_pressed _
  · rfl

/-! ## What no call of a session changes -/

/-- The parts of the state that only the admission and the arrival of sessions change. -/
structure Outer where
  cfg : RelayConfig
  ipaddr : IpAddr
  nextFlow : Nat
  sessions : List Nat
  peerIp : Nat → String
  nextPeer : Nat
  data : Nat × Nat → Option Nat
  admissions : Table (Nat × Nat) Admission
  admitted : List String
  payload : Nat × Nat → List U8

def outer (r : Relay ω L τ) : Outer where
  cfg := r.cfg
  ipaddr := r.ipaddr
  nextFlow := r.nextFlow
  sessions := r.sessions
  peerIp := r.peerIp
  nextPeer := r.nextPeer
  data := r.data
  admissions := r.admissions
  admitted := r.admitted
  payload := r.payload

section OuterCalls

variable [Limits L]

theorem ending_outer (o : Outer) : Ending fun _ (r : Relay ω L τ) => r.outer = o where
  peer := fun _ _ _ h => h
  pause := fun _ _ _ h => h
  shut := fun _ h _ => h
  leave := fun h => h

variable [WireSocket ω] (r : Relay ω L τ)

theorem outer_callPeer (k : Nat) (op : MultiplexPeer ω → MultiplexPeer ω) :
    (r.callPeer k op).outer = r.outer :=
  (ending_outer r.outer).callPeer [] k op rfl

theorem outer_callChannel (f : Nat) (op : Nat → MultiplexPeer ω → MultiplexPeer ω) :
    (r.callChannel f op).outer = r.outer :=
  (ending_outer r.outer).callChannel [] f op rfl

theorem outer_finish (f : Nat) (why : String) : (r.finish f why).outer = r.outer :=
  (ending_outer r.outer).finish [] f why rfl

end OuterCalls

variable [WireSocket ω] [Limits L] {r r' : Relay ω L τ}

/-! ## The byte path -/

/-- Where a handler is with the bytes of its flow. -/
inductive Stage
  /-- It has nothing in its hands, and with `idle` it knows that no verdict is awaited. -/
  | free (idle : Bool)
  /-- A chunk has come in and is not queued yet. -/
  | incoming (item : Chunk)
  /-- The head of the queue is at the gate, which has done `work` with it. -/
  | gated (work : List Metering) (item : Chunk) (rest : List Chunk)
  /-- Client bytes that belong behind the backlog. -/
  | last (bytes : List U8)
  /-- Client bytes for the socket. -/
  | hand (idle : Bool) (bytes : List U8)
  /-- Bytes the socket has not taken, of a flow that may have finished meanwhile. -/
  | left (idle : Bool) (bytes : List U8)
  /-- Bytes of the TCP peer for the channel. -/
  | give (bytes : List U8)

/-- What a family of predicates needs to pass along the byte path of flow `f`. -/
structure Path (f : Nat) (S : Stage → Relay ω L τ → Prop) : Prop where
  inert : ∀ {r} (g : Flow → Flow), S (.free false) r → (g (r.heap f)).core = (r.heap f).core →
    S (.free false) (r.setFlow f g)
  sendText : ∀ {r} text, S (.free false) r → S (.free false) (r.sendText f text)
  finish : ∀ {s r} idle why, S s r → S (.free idle) (r.finish f why)
  sendEof : ∀ {r}, (r.heap f).pending = [] → (r.heap f).state ≠ .closed → S (.free false) r →
    S (.free false) (r.sendEof f)
  settle : ∀ {r}, S (.free true) r → S (.free false) r
  calm : ∀ {r}, (r.heap f).charging = false → S (.free false) r → S (.free true) r
  nothing : ∀ {r upload}, S (.incoming ⟨[], upload⟩) r → S (.free false) r
  count : ∀ {r item} n, S (.incoming item) r →
    S (.incoming item) (r.setFlow f fun flow => { flow with bytes := flow.bytes + n })
  push : ∀ {r r' item}, r.reserve f item.bytes.length = (true, r') → S (.incoming item) r →
    S (.free false) (r'.pushPending f item)
  gate : ∀ {r item rest}, (r.heap f).pending = item :: rest → S (.free true) r →
    S (.gated [] item rest) { r with
      limits := (Limits.charge r.limits (r.heap f).ip item.bytes.length).2 }
  meter : ∀ {r item rest work} more, work ++ more <+: [.charged item, .approved item] →
    S (.gated work item rest) r → S (.gated (work ++ more) item rest) (r.meter f more)
  await : ∀ {r item rest}, S (.gated [] item rest) r → S (.free false) (r.awaitVerdict f item)
  answered : ∀ {r item rest}, (r.heap f).state ≠ .closed → (r.heap f).charging = true →
    (r.heap f).pending = item :: rest → S (.free false) r →
    S (.gated [.charged item] item rest) (r.answered f)
  unasked : ∀ {r}, (r.heap f).state ≠ .closed → (r.heap f).charging = true →
    (r.heap f).pending = [] → S (.free false) r → S (.free false) (r.answered f)
  refused : ∀ {r} why, (r.heap f).state ≠ .closed → S (.free false) r →
    S (.free false) ((r.answered f).finish f why)
  shift : ∀ {r item rest}, (r.heap f).pending = item :: rest →
    S (.gated [.charged item, .approved item] item rest) r →
    S (if item.upload then .last item.bytes else .give item.bytes) (r.shiftPending f item rest)
  keepLast : ∀ {r bytes}, S (.last bytes) r → S (.free true) (r.keep f bytes (· ++ [bytes]))
  front : ∀ {r bytes}, (r.heap f).backlog = [] → S (.last bytes) r → S (.hand true bytes) r
  closed : ∀ {r bytes}, (r.heap f).state = .closed → S (.last bytes) r → S (.free true) r
  give : ∀ {r bytes}, S (.give bytes) r →
    S (.free true) ((r.noteHanded f bytes).callChannel f (MultiplexPeer.sendBinary · bytes))
  unshift : ∀ {r bytes rest}, (r.heap f).state = .opened → (r.heap f).backlog = bytes :: rest →
    S (.free false) r → S (.hand false bytes) (r.shiftBacklog f bytes rest)
  tcp : ∀ {r idle bytes} tcp, S (.hand idle bytes) r → S (.hand idle bytes) { r with tcp }
  wrote : ∀ {r idle bytes} n, S (.hand idle bytes) r →
    S (.hand idle (bytes.drop n)) (r.noteWrite f (bytes.take n))
  ack : ∀ {r idle} {bytes : List U8} n, S (.hand idle (bytes.drop n)) r →
    S (.left idle (bytes.drop n)) (r.ack f n bytes.length)
  unacked : ∀ {r idle bytes}, S (.hand idle bytes) r → S (.left idle bytes) r
  keepLeft : ∀ {r idle bytes}, bytes ≠ [] → S (.left idle bytes) r →
    S (.free idle) (r.keep f bytes (bytes :: ·))
  done : ∀ {r idle}, S (.left idle []) r → S (.free idle) r

theorem reserve_false {f n : Nat} (h : r.reserve f n = (false, r')) :
    r' = r.finish f "buffer limit" := by
  unfold reserve at h
  dsimp only at h
  split at h
  · cases h
    rfl
  · cases h

theorem reserve_true {f n : Nat} (h : r.reserve f n = (true, r')) :
    r' = { r.setFlow f fun flow => { flow with buffered := flow.buffered + n } with
      buffered := r.buffered + n } := by
  unfold reserve at h
  dsimp only at h
  split at h
  · cases h
  · cases h
    rfl

namespace Path

variable {f : Nat} {S : Stage → Relay ω L τ → Prop} (hS : Path f S)

include hS

theorem completePeer (h : S (.free false) r) : S (.free false) (r.completePeer f) := by
  unfold Relay.completePeer
  dsimp only
  split
  · exact h
  · next hready =>
    simp only [not_or, not_not] at hready
    exact hS.finish _ _ (hS.sendEof hready.2.1 hready.2.2 h)

variable [TcpHost τ] {bytes : List U8}

theorem writeTcp {idle : Bool} (h : S (.hand idle bytes) r) :
    S (.free idle) (r.writeTcp f bytes) := by
  have htcp := fun tcp => hS.tcp tcp h
  unfold Relay.writeTcp
  rcases TcpHost.write r.tcp f bytes with ⟨_ | n, tcp⟩
  · exact hS.finish _ _ (htcp tcp)
  · have hwrote := hS.wrote n (htcp tcp)
    dsimp only
    generalize ({ r with tcp } : Relay ω L τ).noteWrite f (bytes.take n) = wrote at hwrote ⊢
    have hleft : S (.left idle (bytes.drop n))
        (if 0 < n then wrote.ack f n bytes.length else wrote) := by
      split
      · exact hS.ack n hwrote
      · exact hS.unacked hwrote
    split
    · next hpart => exact hS.keepLeft (List.ne_nil_of_length_pos (by simpa using hpart)) hleft
    · next hall =>
      rw [List.drop_eq_nil_of_le (Nat.le_of_not_lt hall)] at hleft
      exact hS.done hleft

theorem forwardCharged {item : Chunk} {rest : List Chunk}
    (hpending : (r.heap f).pending = item :: rest)
    (h : S (.gated [.charged item, .approved item] item rest) r) :
    S (.free true) (r.forwardCharged f) := by
  have hshift := hS.shift hpending h
  unfold Relay.forwardCharged
  rw [hpending]
  dsimp only
  generalize r.shiftPending f item rest = shifted at hshift ⊢
  split at hshift
  · next hup =>
    rw [if_pos hup]
    split
    · exact hS.keepLast hshift
    · next hready =>
      simp only [not_or, not_not] at hready
      split
      · exact hS.writeTcp (hS.front hready.2 hshift)
      · next hopened =>
        refine hS.closed ?_ hshift
        cases hstate : (shifted.heap f).state with
        | dialing => exact absurd hstate hready.1
        | opened => exact absurd hstate hopened
        | closed => rfl
  · next hdown =>
    rw [if_neg hdown]
    exact hS.give hshift

theorem quotaLoop : ∀ (fuel : Nat) (r : Relay ω L τ), S (.free true) r →
    S (.free false) (r.quotaLoop f fuel)
  | 0, _, h => hS.settle h
  | fuel + 1, r, h => by
    unfold Relay.quotaLoop
    cases hpending : (r.heap f).pending with
    | nil => exact hS.completePeer (hS.settle h)
    | cons item rest =>
      have hgate := hS.gate hpending h
      dsimp only
      revert hgate
      rcases Limits.charge r.limits (r.heap f).ip item.bytes.length with ⟨answer, limits⟩
      intro hgate
      have hcharged := hS.meter [.charged item] ⟨[.approved item], rfl⟩ hgate
      cases answer with
      | thrown => exact hS.finish _ _ hcharged
      | promised => exact hS.await hgate
      | verdict ok =>
        cases ok with
        | false => exact hS.finish _ _ hcharged
        | true =>
          have hforward := hS.forwardCharged (by simpa [Relay.meter] using hpending)
            (hS.meter [.charged item, .approved item] ⟨[], rfl⟩ hgate)
          dsimp only
          split
          · exact hS.settle hforward
          · exact quotaLoop fuel _ hforward

theorem drainQuota (h : S (.free false) r) : S (.free false) (r.drainQuota f) := by
  unfold Relay.drainQuota
  dsimp only
  split
  · exact h
  · next hready =>
    simp only [not_or, Bool.not_eq_true] at hready
    exact hS.quotaLoop _ r (hS.calm hready.1 h)

theorem enqueue {upload : Bool} (h : S (.incoming ⟨bytes, upload⟩) r) :
    S (.free false) (r.enqueue f bytes upload) := by
  unfold Relay.enqueue
  split
  · next hnil =>
    subst hnil
    exact hS.nothing h
  · have hcount := hS.count bytes.length h
    dsimp only
    generalize r.setFlow f (fun flow => { flow with bytes := flow.bytes + bytes.length }) = counted
      at hcount ⊢
    split
    · exact hS.finish _ _ hcount
    · rcases hres : counted.reserve f bytes.length with ⟨_ | _, reserved⟩
      · rw [reserve_false hres]
        exact hS.finish _ _ hcount
      · exact hS.drainQuota (hS.push hres hcount)

theorem backlogLoop : ∀ (fuel : Nat) (r : Relay ω L τ), S (.free false) r →
    S (.free false) (r.backlogLoop f fuel)
  | 0, _, h => h
  | fuel + 1, r, h => by
    unfold Relay.backlogLoop
    split
    · next hopened =>
      cases hbacklog : (r.heap f).backlog with
      | nil => exact h
      | cons bytes rest =>
        have hwritten := hS.writeTcp (hS.unshift hopened hbacklog h)
        dsimp only
        split
        · exact hwritten
        · exact backlogLoop fuel _ hwritten
    · exact h

end Path

/-! ## Predicates about the faces of the flows -/

/-- The flow keeps its owner and its channel, and it has finished or not as before. -/
structure Flow.Face (a b : Flow) : Prop where
  ip : b.ip = a.ip
  closed : b.state = .closed ↔ a.state = .closed
  ws : b.ws = a.ws

theorem Flow.face_of_core {a b : Flow} (h : b.core = a.core) : Flow.Face a b where
  ip := congrArg Flow.Core.ip h
  closed := by
    have hclosed := congrArg Flow.Core.closed h
    simpa [Flow.core] using hclosed
  ws := congrArg Flow.Core.ws h

/-- A predicate about the faces of the flows, while the events of one flow are handled. -/
structure Facial (f : Nat) (P : Relay ω L τ → Prop) : Prop where
  face : ∀ (r : Relay ω L τ) g, P r → Flow.Face (r.heap f) (g (r.heap f)) → P (r.setFlow f g)
  counts : ∀ (r : Relay ω L τ) buffered choked tcp, P r → P { r with buffered, choked, tcp }
  charge : ∀ (r : Relay ω L τ) ip n, P r → P { r with limits := (Limits.charge r.limits ip n).2 }
  sendText : ∀ (r : Relay ω L τ) text, P r → P (r.sendText f text)
  sendBinary : ∀ (r : Relay ω L τ) bytes, P r →
    P (r.callChannel f (MultiplexPeer.sendBinary · bytes))
  ack : ∀ (r : Relay ω L τ) n, P r → P (r.callChannel f (MultiplexPeer.ack · n))
  finish : ∀ (r : Relay ω L τ) why, P r → P (r.finish f why)

namespace Facial

variable {f : Nat} {P Q : Relay ω L τ → Prop} (hP : Facial f P)

include hP

theorem and (hQ : Facial f Q) : Facial f fun r => P r ∧ Q r where
  face := fun r g h hg => ⟨hP.face r g h.1 hg, hQ.face r g h.2 hg⟩
  counts := fun r _ _ _ h => ⟨hP.counts r _ _ _ h.1, hQ.counts r _ _ _ h.2⟩
  charge := fun r ip n h => ⟨hP.charge r ip n h.1, hQ.charge r ip n h.2⟩
  sendText := fun r text h => ⟨hP.sendText r text h.1, hQ.sendText r text h.2⟩
  sendBinary := fun r bytes h => ⟨hP.sendBinary r bytes h.1, hQ.sendBinary r bytes h.2⟩
  ack := fun r n h => ⟨hP.ack r n h.1, hQ.ack r n h.2⟩
  finish := fun r why h => ⟨hP.finish r why h.1, hQ.finish r why h.2⟩

theorem buffered (h : P r) (buffered : Int) : P { r with buffered } :=
  hP.counts r buffered r.choked r.tcp h

theorem reserve (h : P r) (n : Nat) : P (r.reserve f n).2 := by
  unfold Relay.reserve
  dsimp only
  split
  · exact hP.finish r _ h
  · exact hP.buffered (hP.face r _ h ⟨rfl, Iff.rfl, rfl⟩) _

theorem releaseBuffer (h : P r) (n : Int) : P (r.releaseBuffer f n) :=
  hP.buffered (hP.face r _ h ⟨rfl, Iff.rfl, rfl⟩) _

theorem updateReadPressure (h : P r) : P (r.updateReadPressure f) :=
  hP.face r _ h (Flow.face_of_core (Flow.core_pressed _))

theorem keep (h : P r) (bytes : List U8) (place : List (List U8) → List (List U8)) :
    P (r.keep f bytes place) := by
  unfold Relay.keep
  have hreserved := hP.reserve h bytes.length
  revert hreserved
  rcases r.reserve f bytes.length with ⟨_ | _, reserved⟩
  · exact fun hreserved => hreserved
  · exact fun hreserved => hP.face _ _ hreserved ⟨rfl, Iff.rfl, rfl⟩

theorem sendEof (h : P r) : P (r.sendEof f) :=
  hP.sendText _ _ (hP.face r _ h ⟨rfl, Iff.rfl, rfl⟩)

theorem awaitVerdict (h : P r) (item : Chunk) : P (r.awaitVerdict f item) := by
  have hmeter : P (r.meter f [.charged item]) := hP.face r _ h ⟨rfl, Iff.rfl, rfl⟩
  have hcharging := hP.updateReadPressure
    (hP.face _ (fun flow => { flow with charging := true }) hmeter ⟨rfl, Iff.rfl, rfl⟩)
  exact hP.face _ (fun flow => { flow with quotaTimer := true }) hcharging ⟨rfl, Iff.rfl, rfl⟩

/-- A predicate about faces is the same all along the path. -/
theorem path : Path f fun _ => P where
  inert := fun g h hcore => hP.face _ g h (Flow.face_of_core hcore)
  sendText := fun text h => hP.sendText _ text h
  finish := fun _ why h => hP.finish _ why h
  sendEof := fun _ _ h => hP.sendEof h
  settle := fun h => h
  calm := fun _ h => h
  nothing := fun h => h
  count := fun _ h => hP.face _ _ h ⟨rfl, Iff.rfl, rfl⟩
  push := by
    intro r r' item hres h
    have hreserved := hP.reserve h item.bytes.length
    rw [hres] at hreserved
    exact hP.face _ _ hreserved ⟨rfl, Iff.rfl, rfl⟩
  gate := fun _ h => hP.charge _ _ _ h
  meter := fun _ _ h => hP.face _ _ h ⟨rfl, Iff.rfl, rfl⟩
  await := fun h => hP.awaitVerdict h _
  answered := fun _ _ _ h => hP.face _ _ h ⟨rfl, Iff.rfl, rfl⟩
  unasked := fun _ _ _ h => hP.face _ _ h ⟨rfl, Iff.rfl, rfl⟩
  refused := fun why _ h => hP.finish _ why (hP.face _ _ h ⟨rfl, Iff.rfl, rfl⟩)
  shift := fun _ h => hP.releaseBuffer (hP.face _ _ h ⟨rfl, Iff.rfl, rfl⟩) _
  keepLast := fun h => hP.keep h _ _
  front := fun _ h => h
  closed := fun _ h => h
  give := fun h => hP.sendBinary _ _ (hP.face _ _ h ⟨rfl, Iff.rfl, rfl⟩)
  unshift := fun _ _ h => hP.releaseBuffer (hP.face _ _ h ⟨rfl, Iff.rfl, rfl⟩) _
  tcp := fun tcp h => hP.counts _ _ _ tcp h
  wrote := fun _ h => hP.face _ _ h ⟨rfl, Iff.rfl, rfl⟩
  ack := fun n h => hP.ack _ n (hP.counts _ _ _ _ h)
  unacked := fun h => h
  keepLeft := fun _ h => hP.keep h _ _
  done := fun h => h

variable [TcpHost τ]

theorem message (h : P r) (msg : Frame) (now : Nat) : P (r.message f msg now) := by
  unfold Relay.message
  split
  · exact h
  · have hactive := hP.face r (fun flow => { flow with lastActive := now }) h ⟨rfl, Iff.rfl, rfl⟩
    cases msg with
    | binary bytes => exact hP.path.enqueue hactive
    | text text =>
      dsimp only
      split
      · refine hP.face _ _ hactive ?_
        split <;> exact ⟨rfl, Iff.rfl, rfl⟩
      · exact hactive

theorem tcpData (h : P r) (chunk : List U8) (now : Nat) : P (r.tcpData f chunk now) := by
  unfold Relay.tcpData
  have hdelivered := hP.face r (fun flow => { flow with delivered := flow.delivered ++ chunk }) h
    ⟨rfl, Iff.rfl, rfl⟩
  dsimp only
  split
  · exact hdelivered
  · exact hP.path.enqueue (hP.face _ (fun flow => { flow with lastActive := now }) hdelivered
      ⟨rfl, Iff.rfl, rfl⟩)

end Facial

/-! ## The events of one flow -/

section Events

variable [TcpHost τ]

/-- What a predicate needs to pass through the events of one flow.  `E` says when `EOF` may be
sent. -/
structure Rules (f : Nat) (E P : Relay ω L τ → Prop) : Prop where
  inert : ∀ (r : Relay ω L τ) g, P r → (g (r.heap f)).core = (r.heap f).core →
    P (r.setFlow f g)
  sendText : ∀ (r : Relay ω L τ) text, P r → P (r.sendText f text)
  finish : ∀ (r : Relay ω L τ) why, P r → P (r.finish f why)
  sendEof : ∀ r : Relay ω L τ, E r → P r → P (r.sendEof f)
  drainBacklog : ∀ r : Relay ω L τ, P r → P (r.drainBacklog f)
  refused : ∀ (r : Relay ω L τ) why, P r → (r.heap f).state ≠ .closed →
    P ((r.answered f).finish f why)
  approved : ∀ r : Relay ω L τ, P r → (r.heap f).state ≠ .closed → (r.heap f).charging = true →
    P (((((r.answered f).meter f
      (((r.answered f).heap f).pending.take 1 |>.map .approved))).forwardCharged f).drainQuota f)

theorem Path.rules {f : Nat} {S : Stage → Relay ω L τ → Prop} (hS : Path f S) :
    Rules f (fun r => (r.heap f).pending = [] ∧ (r.heap f).state ≠ .closed) (S (.free false)) where
  inert := fun _ g h hcore => hS.inert g h hcore
  sendText := fun _ text h => hS.sendText text h
  finish := fun _ why h => hS.finish _ why h
  sendEof := fun _ hE h => hS.sendEof hE.1 hE.2 h
  drainBacklog := fun r h => hS.backlogLoop _ r h
  refused := fun _ why h hlive => hS.refused why hlive h
  approved := by
    intro r h hlive hcharging
    have hsame : ((r.answered f).heap f).pending = (r.heap f).pending := by simp [Relay.answered]
    rw [hsame]
    cases hpending : (r.heap f).pending with
    | nil =>
      have hmeter := hS.inert (fun flow => { flow with ledger := flow.ledger ++ [] })
        (hS.unasked hlive hcharging hpending h) (by simp [Flow.core])
      have hnil : (((r.answered f).meter f []).heap f).pending = [] := by
        simp [Relay.meter, hsame, hpending]
      refine hS.drainQuota ?_
      change S _ (((r.answered f).meter f []).forwardCharged f)
      unfold Relay.forwardCharged
      rw [hnil]
      exact hmeter
    | cons item rest =>
      have hgate := hS.meter [.approved item] ⟨[], rfl⟩ (hS.answered hlive hcharging hpending h)
      refine hS.drainQuota (hS.settle (hS.forwardCharged ?_ hgate))
      simpa [Relay.meter, hsame] using hpending

theorem Facial.rules {f : Nat} {P : Relay ω L τ → Prop} (hP : Facial f P) (E : Relay ω L τ → Prop) :
    Rules f E P :=
  { hP.path.rules with sendEof := fun _ _ h => hP.sendEof h }

namespace Rules

variable {f : Nat} {E P : Relay ω L τ → Prop} (hP : Rules f E P)

include hP

theorem updateReadPressure (h : P r) : P (r.updateReadPressure f) :=
  hP.inert r _ h (Flow.core_pressed _)

theorem refuse (h : P r) (reason : String) : P (r.refuse f reason) :=
  hP.finish _ _ (hP.sendText r _ h)

theorem completePeer (hE : ∀ r : Relay ω L τ, (r.heap f).pending = [] →
    (r.heap f).state ≠ .closed → E r) (h : P r) : P (r.completePeer f) := by
  unfold Relay.completePeer
  dsimp only
  split
  · exact h
  · next hready =>
    have hpending : (r.heap f).pending = [] := by
      by_contra hne
      exact hready (.inr (.inl hne))
    have hlive : (r.heap f).state ≠ .closed := fun hc => hready (.inr (.inr hc))
    exact hP.finish _ _ (hP.sendEof r (hE r hpending hlive) h)

theorem command (h : P r) (hlive : (r.heap f).state ≠ .closed) (line : List Char) :
    P (r.command f line) := by
  unfold Relay.command
  cases Command.parseCommand line with
  | error error => exact hP.refuse h error
  | ok cmd =>
    have hdialing : P (r.setFlow f fun flow => { flow with state := .dialing }) := by
      exact hP.inert r _ h (Flow.core_setState nofun hlive)
    cases cmd with
    | resolve name =>
      exact hP.inert _ _ hdialing
        rfl
    | connect host port =>
      dsimp only
      split
      · exact hP.refuse hdialing _
      · exact hP.inert _ _ hdialing
          rfl

theorem resolved (h : P r) (hits : List String) : P (r.resolved f hits) := by
  unfold Relay.resolved
  cases (r.heap f).task with
  | none => exact h
  | some cmd =>
    have htask := hP.inert r (fun flow => { flow with task := none }) h
      rfl
    dsimp only
    split
    · exact htask
    · cases cmd with
      | resolve name =>
        dsimp only
        split
        · exact hP.finish _ _ (hP.sendText _ _ htask)
        · exact hP.finish _ _ (hP.sendText _ _ htask)
      | connect host port =>
        dsimp only
        split
        · exact hP.refuse htask _
        · exact hP.inert _ _ htask
            rfl

theorem tcpOpen (h : P r) : P (r.tcpOpen f) := by
  unfold Relay.tcpOpen
  split
  · exact h
  · next hstate =>
    have hstate : (r.heap f).state = .dialing := not_not.1 hstate
    have hopened : P (r.setFlow f fun flow => { flow with tcp := true, state := .opened }) := by
      exact hP.inert r _ h (Flow.core_setState (a := { r.heap f with tcp := true }) nofun
        (by simp [hstate]))
    exact hP.updateReadPressure (hP.drainBacklog _ (hP.sendText _ _ hopened))

theorem tcpEnd (hE : ∀ r : Relay ω L τ, (r.heap f).pending = [] →
    (r.heap f).state ≠ .closed → E r) (h : P r) : P (r.tcpEnd f) :=
  hP.completePeer hE (hP.inert r _ h
    rfl)

theorem connectFailed (h : P r) (code : String) : P (r.connectFailed f code) := by
  unfold Relay.connectFailed
  split
  · exact hP.refuse h code
  · exact h

theorem verdict (h : P r) (hcharging : (r.heap f).charging = true) (answer : Option Bool) :
    P (r.verdict f answer) := by
  unfold Relay.verdict
  cases answer with
  | none => exact hP.finish r _ h
  | some ok =>
    dsimp only
    split
    · exact h
    · next hlive =>
      cases ok with
      | false => exact hP.refused r _ h hlive
      | true => exact hP.updateReadPressure (hP.approved r h hlive hcharging)

end Rules

end Events

/-! ## Sweeping and stopping -/

section Whole

variable {P : Relay ω L τ → Prop}

theorem sweepIdle_rule (now : Nat) (hfinish : ∀ (r : Relay ω L τ) f why, P r → P (r.finish f why))
    (heof : ∀ (r : Relay ω L τ) f, f ∈ r.flows → r.quietAfterFin now (r.heap f) → P r →
      P (r.sendEof f)) (h : P r) : P (r.sweepIdle now) := by
  have hone : ∀ (r : Relay ω L τ) f, P r → P (r.sweepFlow now f) := by
    intro r f h
    unfold sweepFlow
    split
    · exact h
    · next hmem =>
      split
      · exact hfinish r f _ h
      · split
        · next hquiet => exact hfinish _ f _ (heof r f (not_not.1 hmem) hquiet h)
        · exact h
  have hfold : ∀ (fs : List Nat) (r : Relay ω L τ), P r → P (fs.foldl (sweepFlow now) r) := by
    intro fs
    induction fs with
    | nil => exact fun r h => h
    | cons f fs ih => exact fun r h => ih _ (hone r f h)
  exact hfold r.flows r h

theorem finishAll_rule (hfinish : ∀ (r : Relay ω L τ) f why, P r → P (r.finish f why))
    (fs : List Nat) (h : P r) : P (fs.foldl (fun r f => r.finish f "shutdown") r) := by
  induction fs generalizing r with
  | nil => exact h
  | cons f fs ih => exact ih (hfinish r f _ h)

theorem stopAll_rule (hstop : ∀ (r : Relay ω L τ) k, P r → P (r.callPeer k MultiplexPeer.stop))
    (ks : List Nat) (h : P r) : P (ks.foldl (fun r k => r.callPeer k MultiplexPeer.stop) r) := by
  induction ks generalizing r with
  | nil => exact h
  | cons k ks ih => exact ih (hstop r k h)

end Whole

end Relay

end EmulateComputer
