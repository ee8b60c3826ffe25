import EmulateComputer.Relay.EventRules
import EmulateComputer.Relay.PeerAccounts

/-!
# FlowStreams — what happens to the bytes of a flow

The bytes the client sends and the bytes the TCP peer sends are cut into chunks, which wait in one
queue for the quota gate.  `Present` says where every chunk of a live flow is: forwarded (`fw`) or
`pending`, and of the forwarded ones what the TCP socket has taken, what the backlog holds, and what
a handler has in its hands at the moment (`Work`).  A flow that has finished keeps its `Past` only:
what went out was a beginning of what came in.

The `EOF` of the idle sweep is the one that can come too early, so the statement about `EOF` is
carried along only when `strict` holds.
-/

namespace EmulateComputer

open Function (update update_self update_of_ne forall_update_iff)

namespace Relay

/-! ## Streams of chunks -/

def up (chunks : List Chunk) : List U8 :=
  chunks.flatMap fun chunk => if chunk.upload then chunk.bytes else []

def down (chunks : List Chunk) : List U8 :=
  chunks.flatMap fun chunk => if chunk.upload then [] else chunk.bytes

/-- The work of the quota gate on chunks that have been forwarded: each is charged, then approved,
then forwarded. -/
def metered (chunks : List Chunk) : List Metering :=
  chunks.flatMap fun chunk => [.charged chunk, .approved chunk, .forwarded chunk]

@[simp] theorem up_append (a b : List Chunk) : up (a ++ b) = up a ++ up b :=
  List.flatMap_append

@[simp] theorem down_append (a b : List Chunk) : down (a ++ b) = down a ++ down b :=
  List.flatMap_append

@[simp] theorem metered_append (a b : List Chunk) : metered (a ++ b) = metered a ++ metered b :=
  List.flatMap_append

@[simp] theorem up_singleton (chunk : Chunk) :
    up [chunk] = if chunk.upload then chunk.bytes else [] := by
  simp [up]

@[simp] theorem down_singleton (chunk : Chunk) :
    down [chunk] = if chunk.upload then [] else chunk.bytes := by
  simp [down]

@[simp] theorem metered_singleton (chunk : Chunk) :
    metered [chunk] = [.charged chunk, .approved chunk, .forwarded chunk] := by
  simp [metered]

theorem down_eq_nil {chunks : List Chunk} (h : ∀ chunk ∈ chunks, chunk.upload = true) :
    down chunks = [] := by
  refine List.flatMap_eq_nil_iff.2 fun chunk hchunk => ?_
  rw [h chunk hchunk]
  rfl

/-! ## Where the bytes of a flow are -/

/-- What a handler has in its hands: client bytes on their way to the socket or to the end of the
backlog, peer bytes on their way to the channel, and bytes not queued yet.  `idle` if it knows that
no verdict is awaited. -/
structure Work where
  idle : Bool := false
  hand : List U8 := []
  last : List U8 := []
  give : List U8 := []
  inUp : List U8 := []
  inDown : List U8 := []

/-- What the streams look at in a flow. -/
structure Flow.Books where
  closed : Bool
  backlog : List (List U8)
  pending : List Chunk
  charging : Bool
  received : List U8
  wrote : List U8
  delivered : List U8
  handed : List U8
  taken : List Chunk
  ledger : List Metering
  eofs : List Eof

def Flow.books (flow : Flow) : Flow.Books where
  closed := flow.state = .closed
  backlog := flow.backlog
  pending := flow.pending
  charging := flow.charging
  received := flow.received
  wrote := flow.wrote
  delivered := flow.delivered
  handed := flow.handed
  taken := flow.taken
  ledger := flow.ledger
  eofs := flow.eofs

theorem Flow.books_of_core {a b : Flow} (h : b.core = a.core) : b.books = a.books :=
  congrArg (fun c : Flow.Core => (⟨c.closed, c.backlog, c.pending, c.charging, c.received, c.wrote,
    c.delivered, c.handed, c.taken, c.ledger, c.eofs⟩ : Flow.Books)) h

namespace Flow.Books

/-- The chunks `fw` have been forwarded; `tail` is the work of the gate on the next one. -/
structure Present (fw : List Chunk) (w : Work) (tail : List Metering) (c : Flow.Books) : Prop where
  taken : c.taken = fw ++ c.pending
  ledger : c.ledger = metered fw ++ tail
  received : c.received = up c.taken ++ w.inUp
  delivered : c.delivered = down c.taken ++ w.inDown
  wrote : c.wrote ++ w.hand ++ c.backlog.flatten ++ w.last = up fw
  handed : c.handed ++ w.give = down fw

/-- What can be said of every flow.  Each chunk whose bytes went out was charged once and approved
before, and at most one more chunk is at the gate. -/
def Past (c : Flow.Books) : Prop :=
  ∃ fw tail, c.ledger = metered fw ++ tail ∧
    (∃ chunk, tail <+: [.charged chunk, .approved chunk]) ∧
    c.wrote <+: up fw ∧ up fw <+: c.received ∧ c.handed <+: down fw ∧ down fw <+: c.delivered

variable {c : Flow.Books} {tail : List Metering}

theorem Present.past {fw : List Chunk} {w : Work} (h : c.Present fw w tail)
    (htail : ∃ chunk, tail <+: [.charged chunk, .approved chunk]) : c.Past := by
  refine ⟨fw, tail, h.ledger, htail, ?_, ?_, ⟨w.give, h.handed⟩, ?_⟩
  · rw [← h.wrote, List.append_assoc, List.append_assoc]
    exact List.prefix_append _ _
  · rw [h.received, h.taken, up_append, List.append_assoc]
    exact List.prefix_append _ _
  · rw [h.delivered, h.taken, down_append, List.append_assoc]
    exact List.prefix_append _ _

/-- The work of the gate on the chunk whose verdict is awaited. -/
def due (c : Flow.Books) : List Metering :=
  if c.charging then (c.pending.take 1).map .charged else []

theorem due_prefix (c : Flow.Books) : ∃ chunk, c.due <+: [.charged chunk, .approved chunk] := by
  unfold due
  split
  · cases c.pending with
    | nil => exact ⟨⟨[], true⟩, List.nil_prefix⟩
    | cons chunk rest => exact ⟨chunk, [.approved chunk], rfl⟩
  · exact ⟨⟨[], true⟩, List.nil_prefix⟩

/-- The flow while a handler has `w` in its hands. -/
structure Doing (w : Work) (c : Flow.Books) : Prop where
  present : ∃ fw, c.Present fw w c.due
  charging : c.charging = true → c.pending ≠ []
  idle : w.idle = true → c.charging = false

abbrev Settled (c : Flow.Books) : Prop :=
  c.Doing {}

/-- The chunk at the head of the queue is at the gate, which has done `tail` with it. -/
structure Gated (tail : List Metering) (item : Chunk) (rest : List Chunk) (c : Flow.Books) :
    Prop where
  present : ∃ fw, c.Present fw {} tail
  pending : c.pending = item :: rest
  charging : c.charging = false

theorem Doing.past {w : Work} (h : c.Doing w) : c.Past := by
  obtain ⟨fw, hfw⟩ := h.present
  exact hfw.past c.due_prefix

theorem Gated.past {item : Chunk} {rest : List Chunk}
    (h : c.Gated tail item rest) (htail : tail <+: [.charged item, .approved item]) : c.Past := by
  obtain ⟨fw, hfw⟩ := h.present
  exact hfw.past ⟨item, htail⟩

/-- A handler that knows more than it needs to. -/
theorem Doing.settled {idle : Bool} (h : c.Doing { idle }) : c.Settled := by
  obtain ⟨fw, hfw⟩ := h.present
  exact ⟨⟨fw, { hfw with }⟩, h.charging, nofun⟩

theorem Doing.calm (h : c.Settled) (hidle : c.charging = false) : c.Doing { idle := true } := by
  obtain ⟨fw, hfw⟩ := h.present
  exact ⟨⟨fw, { hfw with }⟩, h.charging, fun _ => hidle⟩

end Flow.Books

/-! ## The streams of the relay -/

variable {ω L τ : Type}

/-- The streams of every flow, while a handler works on flow `f`, about which `Q` is known. -/
structure StreamsAt (strict : Prop) (f : Nat) (Q : Flow.Books → Prop) (r : Relay ω L τ) : Prop where
  own : (r.heap f).state ≠ .closed → Q (r.heap f).books
  others : ∀ f', f' ≠ f → (r.heap f').state ≠ .closed → (r.heap f').books.Settled
  past : ∀ f', (r.heap f').books.Past
  shut : ∀ f', (r.heap f').state = .closed → (r.heap f').pending = []
  eofs : strict → ∀ f', ∀ e ∈ (r.heap f').eofs, e.handed = e.delivered
  paid : ∀ key f', r.data key = some f' → (r.heap f').received <:+ r.payload key
  single : ∀ key key' f', r.data key = some f' → r.data key' = some f' → key = key'
  fresh : ∀ key f', r.Admits key f' → (r.heap f').received = []

abbrev Streams (strict : Prop) (r : Relay ω L τ) : Prop :=
  StreamsAt strict 0 Flow.Books.Settled r

variable {strict : Prop} {f : Nat} {Q Q' : Flow.Books → Prop} {r r' : Relay ω L τ} {g : Flow → Flow}

/-- Between events every flow may be the one to work on. -/
theorem StreamsAt.refocus (h : StreamsAt strict f Flow.Books.Settled r) (f' : Nat) :
    StreamsAt strict f' Flow.Books.Settled r := by
  have hall : ∀ f'', (r.heap f'').state ≠ .closed → (r.heap f'').books.Settled := by
    intro f'' hlive
    by_cases heq : f'' = f
    · subst heq
      exact h.own hlive
    · exact h.others f'' heq hlive
  exact { h with own := hall f', others := fun f'' _ => hall f'' }

section

variable (h : StreamsAt strict f Q r)

include h

theorem StreamsAt.imp (hQ : (r.heap f).state ≠ .closed → Q (r.heap f).books → Q' (r.heap f).books) :
    StreamsAt strict f Q' r :=
  { h with own := fun hlive => hQ hlive (h.own hlive) }

/-- The parts of the state the streams look at, apart from the flows. -/
def pay (r : Relay ω L τ) :=
  (r.data, r.payload, r.admissions)

/-- The working flow changes its books, the others keep theirs. -/
theorem StreamsAt.put {flow : Flow}
    (hheap : r'.heap = update r.heap f flow) (hown : flow.state ≠ .closed → Q' flow.books)
    (hpast : flow.books.Past) (hshut : flow.state = .closed → flow.pending = [])
    (heofs : strict → ∀ e ∈ flow.eofs, e.handed = e.delivered)
    (hpaid : ∀ key f', r'.data key = some f' → (r'.heap f').received <:+ r'.payload key)
    (hsingle : ∀ key key' f', r'.data key = some f' → r'.data key' = some f' → key = key')
    (hfresh : ∀ key f', r'.Admits key f' → (r'.heap f').received = []) :
    StreamsAt strict f Q' r' := by
  -- Every field is about one flow: the working one, or another that is as it was.
  refine ⟨?_, fun f' hne => ?_, ?_, ?_, fun hs => ?_, hpaid, hsingle, hfresh⟩ <;> rw [hheap]
  · rw [update_self]
    exact hown
  · rw [update_of_ne hne]
    exact h.others f' hne
  · exact (forall_update_iff r.heap fun _ flow => flow.books.Past).2 ⟨hpast, fun f' _ => h.past f'⟩
  · exact (forall_update_iff r.heap fun _ flow => flow.state = .closed → flow.pending = []).2
      ⟨hshut, fun f' _ => h.shut f'⟩
  · exact (forall_update_iff r.heap fun _ flow => ∀ e ∈ flow.eofs, e.handed = e.delivered).2
      ⟨heofs hs, fun f' _ => h.eofs hs f'⟩

/-- The working flow has received nothing more. -/
theorem StreamsAt.change (hown : (g (r.heap f)).state ≠ .closed → Q' (g (r.heap f)).books)
    (hpast : (g (r.heap f)).books.Past)
    (hshut : (g (r.heap f)).state = .closed → (g (r.heap f)).pending = [])
    (heofs : strict → ∀ e ∈ (g (r.heap f)).eofs, e.handed = e.delivered)
    (hreceived : (g (r.heap f)).received = (r.heap f).received) :
    StreamsAt strict f Q' (r.setFlow f g) := by
  have hpaid : ∀ f', ((r.setFlow f g).heap f').received = (r.heap f').received :=
    (forall_update_iff r.heap fun f' flow => flow.received = (r.heap f').received).2
      ⟨hreceived, fun _ _ => rfl⟩
  refine h.put rfl hown hpast hshut heofs (fun key f' hdata => ?_) h.single fun key f' hf' => ?_
  · rw [hpaid]
    exact h.paid key f' hdata
  · rw [hpaid]
    exact h.fresh key f' hf'

/-- Every flow keeps its books. -/
theorem StreamsAt.keepBooks (hsame : r'.pay = r.pay)
    (hbooks : ∀ f', (r'.heap f').books = (r.heap f').books) : StreamsAt strict f Q r' := by
  have hstate : ∀ f', (r'.heap f').state = .closed ↔ (r.heap f').state = .closed := fun f' => by
    simpa [Flow.books] using congrArg Flow.Books.closed (hbooks f')
  have hreceived : ∀ f', (r'.heap f').received = (r.heap f').received := fun f' =>
    congrArg Flow.Books.received (hbooks f')
  have hpending : ∀ f', (r'.heap f').pending = (r.heap f').pending := fun f' =>
    congrArg Flow.Books.pending (hbooks f')
  have heofs : ∀ f', (r'.heap f').eofs = (r.heap f').eofs := fun f' =>
    congrArg Flow.Books.eofs (hbooks f')
  cases r'
  obtain ⟨rfl, rfl, rfl⟩ := hsame
  dsimp only at hbooks hstate hreceived hpending heofs
  refine { h with
    own := ?_, others := ?_, past := ?_, shut := ?_, eofs := ?_, paid := ?_, fresh := ?_ }
    <;> simp only [hbooks, ne_eq, hstate, hreceived, hpending, heofs]
  · exact h.own
  · exact h.others
  · exact h.past
  · exact h.shut
  · exact h.eofs
  · exact h.paid
  · exact h.fresh

theorem StreamsAt.setFlow {f' : Nat} (hbooks : (g (r.heap f')).books = (r.heap f').books) :
    StreamsAt strict f Q (r.setFlow f' g) := by
  exact h.keepBooks rfl ((forall_update_iff r.heap fun f'' flow =>
    flow.books = (r.heap f'').books).2 ⟨hbooks, fun _ _ => rfl⟩)

/-! ## Finishing -/

/-- A flow that finishes drops its queues and keeps its past. -/
theorem StreamsAt.shutFlow (f' : Nat) (why : String) : StreamsAt strict f Q (r.shut f' why) := by
  have hpaid : ∀ f'', ((r.shut f' why).heap f'').received = (r.heap f'').received :=
    forall_shut (fun f'' flow => flow.received = (r.heap f'').received) rfl fun _ _ => rfl
  refine { h with
    own := ?_, others := ?_, past := ?_, shut := ?_, eofs := fun hs => ?_
    paid := fun key f'' hdata => ?_, fresh := fun key f'' hf'' => ?_ }
  · exact forall_shut (fun f'' flow => f'' = f → flow.state ≠ .closed → Q flow.books)
      (fun _ hlive => absurd rfl hlive) (fun _ _ heq => heq ▸ h.own) f rfl
  · exact forall_shut (fun f'' flow => f'' ≠ f → flow.state ≠ .closed → flow.books.Settled)
      (fun _ hlive => absurd rfl hlive) fun f'' _ => h.others f''
  · exact forall_shut (fun _ flow => flow.books.Past) (h.past f') fun f'' _ => h.past f''
  · exact forall_shut (fun _ flow => flow.state = .closed → flow.pending = []) (fun _ => rfl)
      fun f'' _ => h.shut f''
  · exact forall_shut (fun _ flow => ∀ e ∈ flow.eofs, e.handed = e.delivered) (h.eofs hs f')
      fun f'' _ => h.eofs hs f''
  · rw [hpaid]
    exact h.paid key f'' hdata
  · rw [hpaid]
    exact h.fresh key f'' hf''

end

section Calls

variable [Limits L]

theorem ending_streams : Ending (ω := ω) (L := L) (τ := τ) fun _ => StreamsAt strict f Q where
  peer := fun _ _ _ h => h.keepBooks rfl fun _ => rfl
  pause := fun _ _ _ h =>
    h.keepBooks rfl fun _ => Flow.books_of_core (core_pauseFlow ..)
  shut := fun why h _ => h.shutFlow _ why
  leave := fun h => h.keepBooks rfl fun _ => rfl

/-- Nothing opens a flow that is closed. -/
theorem ending_closed (f : Nat) : Ending fun _ (r : Relay ω L τ) => (r.heap f).state = .closed where
  peer := fun _ _ _ h => h
  pause := fun _ _ _ h => (Flow.face_of_core (core_pauseFlow ..)).closed.2 h
  shut := by
    intro _ r f' why h _
    exact forall_shut (fun f'' flow => f'' = f → flow.state = .closed) (fun _ => rfl)
      (fun _ _ heq => heq ▸ h) f rfl
  leave := fun h => h

variable [WireSocket ω]

theorem closed_finishDead (r : Relay ω L τ) (f : Nat) (why : String) :
    ((r.finishDead f why).heap f).state = .closed := by
  unfold Relay.finishDead
  split
  · next hc => exact hc
  · have hshut : ((r.shut f why).heap f).state = .closed := by rw [heap_shut_self]
    dsimp only
    split <;> exact hshut

theorem closed_finish (r : Relay ω L τ) (f : Nat) (why : String) :
    ((r.finish f why).heap f).state = .closed := by
  unfold Relay.finish
  split
  · next hc => exact hc
  · refine (ending_closed f).callChannel [] f _ ?_
    rw [heap_shut_self]

/-- A `close` hook finishes the flow of its channel. -/
theorem closed_heedAll {k id : Nat} : ∀ (hooks : List HookCall) (r : Relay ω L τ),
    .closed id ∈ hooks → r.data (k, id) = some f →
      ((hooks.foldl (heed k) r).heap f).state = .closed
  | hook :: hooks, r, hmem, hdata => by
    by_cases heq : hook = .closed id
    · have hfirst : ((r.heed k hook).heap f).state = .closed := by
        rw [heq, heed_closed, hdata]
        exact closed_finishDead r f _
      exact (ending_closed f).heedAll [] k hooks hfirst
    · refine closed_heedAll hooks _ ((List.mem_cons.1 hmem).resolve_left (Ne.symm heq)) ?_
      have houter := (ending_outer r.outer).heedAll [] k [hook] rfl
      exact (congrFun (congrArg Outer.data houter) (k, id)).trans hdata

/-- Of a flow that has finished anything may be said. -/
theorem StreamsAt.finished (h : StreamsAt strict f Q r) (why : String) :
    StreamsAt strict f Q' (r.finish f why) :=
  (ending_streams.finish [] f why h).imp fun hlive => absurd (closed_finish r f why) hlive

end Calls

/-! ## The byte path -/

section Path

variable {item : Chunk} {rest : List Chunk} {c : Flow.Books} {bytes : List U8}

/-- The handler of a live flow does a piece of its work. -/
theorem StreamsAt.work (h : StreamsAt strict f Q r) (hlive : (r.heap f).state ≠ .closed)
    (hstate : (g (r.heap f)).state ≠ .closed) (hQ : Q (r.heap f).books → Q' (g (r.heap f)).books)
    (hpast : ∀ c, Q' c → c.Past) (heofs : (g (r.heap f)).eofs = (r.heap f).eofs)
    (hreceived : (g (r.heap f)).received = (r.heap f).received) :
    StreamsAt strict f Q' (r.setFlow f g) := by
  have hnew : Q' (g (r.heap f)).books := hQ (h.own hlive)
  refine h.change (fun _ => hnew) (hpast _ hnew)
    (fun hc => absurd hc hstate) (fun hs => ?_) hreceived
  rw [heofs]
  exact h.eofs hs f

/-- The counts of the buffers are not part of the books. -/
theorem StreamsAt.buffers (h : StreamsAt strict f Q r) (f' : Nat) (count : Int → Int)
    (total : Int) : StreamsAt strict f Q { r.setFlow f' fun flow =>
      { flow with buffered := count flow.buffered } with buffered := total } := by
  refine h.keepBooks rfl fun f'' => ?_
  rw [heap_setFlow]
  split <;> rfl

/-! ### At the gate -/

/-- The gate does more with the chunk at the head. -/
theorem Flow.Books.Gated.more {tail more : List Metering} (h : c.Gated tail item rest) :
    Flow.Books.Gated (tail ++ more) item rest { c with ledger := c.ledger ++ more } := by
  obtain ⟨fw, hfw⟩ := h.present
  refine ⟨⟨fw, { hfw with ledger := ?_ }⟩, h.pending, h.charging⟩
  rw [hfw.ledger, List.append_assoc]

/-- A chunk that has come in and is not queued yet. -/
def Work.incoming (item : Chunk) : Work :=
  if item.upload then { inUp := item.bytes } else { inDown := item.bytes }

theorem Flow.Books.Doing.push (h : c.Doing (.incoming item)) :
    Flow.Books.Settled { c with pending := c.pending ++ [item], taken := c.taken ++ [item] } := by
  obtain ⟨fw, hfw⟩ := h.present
  -- The head of the queue stays the head, so what is due stays too.
  have hdue : Flow.Books.due
      { c with pending := c.pending ++ [item], taken := c.taken ++ [item] } = c.due := by
    unfold Flow.Books.due
    split
    · next hcharging =>
      rw [List.take_append_of_le_length (List.length_pos_iff.2 (h.charging hcharging))]
    · rfl
  have hreceived := hfw.received
  have hdelivered := hfw.delivered
  have hwrote := hfw.wrote
  have hhanded := hfw.handed
  unfold Work.incoming at hreceived hdelivered hwrote hhanded
  refine ⟨⟨fw, ?_, ?_, ?_, ?_, ?_, ?_⟩, fun _ => List.append_ne_nil_of_right_ne_nil _ nofun, nofun⟩
  · rw [hfw.taken, List.append_assoc]
  · rw [hdue]
    exact hfw.ledger
  all_goals cases hup : item.upload <;> simp_all

variable [WireSocket ω] [Limits L]

/-- Bytes in hand go into the backlog, if the flow is still there and has room. -/
theorem StreamsAt.keep {place : List (List U8) → List (List U8)} (h : StreamsAt strict f Q r)
    (hplace : ∀ c, Q c → Q' { c with backlog := place c.backlog }) (hpast : ∀ c, Q' c → c.Past)
    (bytes : List U8) : StreamsAt strict f Q' (r.keep f bytes place) := by
  unfold Relay.keep
  rcases hres : r.reserve f bytes.length with ⟨_ | _, reserved⟩
  · rw [reserve_false hres]
    exact h.finished _
  · have hreserved : StreamsAt strict f Q reserved := by
      rw [reserve_true hres]
      exact h.buffers f (· + bytes.length) _
    by_cases hc : (reserved.heap f).state = .closed
    · exact hreserved.change (fun hlive => absurd hc hlive) (hreserved.past f)
        (hreserved.shut f) (fun hs => hreserved.eofs hs f) rfl
    · exact hreserved.work hc hc (hplace _) hpast rfl rfl

/-! ### The end of the TCP peer's stream -/

/-- `EOF` may be sent once no byte of the TCP peer waits. -/
theorem StreamsAt.sendEof (h : StreamsAt strict f Flow.Books.Settled r)
    (hlive : (r.heap f).state ≠ .closed)
    (hempty : strict → ∀ chunk ∈ (r.heap f).pending, chunk.upload = true) :
    StreamsAt strict f Flow.Books.Settled (r.sendEof f) := by
  have hown := h.own hlive
  obtain ⟨fw, hfw⟩ := hown.present
  have hnoted : Flow.Books.Settled { (r.heap f).books with
      eofs := (r.heap f).eofs ++ [⟨(r.heap f).delivered, (r.heap f).handed⟩] } :=
    ⟨⟨fw, { hfw with }⟩, hown.charging, nofun⟩
  refine ending_streams.callChannel [] f _ ?_
  refine h.change (fun _ => hnoted) hnoted.past (fun hc => absurd hc hlive)
    (fun hs e he => ?_) rfl
  rcases List.mem_append.1 he with hold | hnew
  · exact h.eofs hs f e hold
  · -- Every chunk of the peer that was queued has been forwarded.
    rw [List.mem_singleton.1 hnew]
    have hhanded : (r.heap f).handed ++ [] = down fw := hfw.handed
    have hdelivered : (r.heap f).delivered = down (r.heap f).taken ++ [] := hfw.delivered
    have htaken : (r.heap f).taken = fw ++ (r.heap f).pending := hfw.taken
    rw [List.append_nil] at hhanded hdelivered
    rw [hhanded, hdelivered, htaken, down_append, down_eq_nil (hempty hs), List.append_nil]

/-! ### The stages of a handler -/

/-- A chunk comes to the gate. -/
theorem Flow.Books.Doing.gated (h : c.Doing { idle := true })
    (hpending : c.pending = item :: rest) : c.Gated [] item rest := by
  have hidle := h.idle rfl
  obtain ⟨fw, hfw⟩ := h.present
  refine ⟨⟨fw, { hfw with ledger := ?_ }⟩, hpending, hidle⟩
  have hledger := hfw.ledger
  simpa [due, hidle] using hledger

/-- Bytes on their way to the socket move on, in their order. -/
theorem Flow.Books.Doing.move {idle : Bool} {hand hand' last last' wrote : List U8}
    {backlog : List (List U8)} (h : c.Doing { idle, hand, last })
    (hmove : wrote ++ hand' ++ backlog.flatten ++ last' =
      c.wrote ++ hand ++ c.backlog.flatten ++ last) :
    Flow.Books.Doing { idle, hand := hand', last := last' } { c with wrote, backlog } := by
  obtain ⟨fw, hfw⟩ := h.present
  exact ⟨⟨fw, { hfw with wrote := hmove.trans hfw.wrote }⟩, h.charging, h.idle⟩

/-- What is known of the books at a stage of the byte path. -/
def Stage.books : Stage → Flow.Books → Prop
  | .free idle => Flow.Books.Doing { idle }
  | .incoming item => Flow.Books.Doing (.incoming item)
  | .gated work item rest => fun c =>
    c.Gated work item rest ∧ work <+: [.charged item, .approved item]
  | .last bytes => Flow.Books.Doing { idle := true, last := bytes }
  | .hand idle bytes | .left idle bytes => Flow.Books.Doing { idle, hand := bytes }
  | .give bytes => Flow.Books.Doing { idle := true, give := bytes }

theorem Stage.past {s : Stage} (h : s.books c) : c.Past := by
  cases s with
  | gated work item rest => exact h.1.past h.2
  | _ => exact Flow.Books.Doing.past h

/-- The approved chunk leaves the queue, and the handler has its bytes. -/
theorem Flow.Books.Gated.shift (h : c.Gated [.charged item, .approved item] item rest) :
    Stage.books (if item.upload then .last item.bytes else .give item.bytes)
      { c with pending := rest, ledger := c.ledger ++ [.forwarded item] } := by
  obtain ⟨fw, hfw⟩ := h.present
  have htaken : c.taken = (fw ++ [item]) ++ rest := by
    rw [hfw.taken, h.pending, List.append_assoc]
    rfl
  have hledger : c.ledger ++ [.forwarded item] = metered (fw ++ [item]) ++
      Flow.Books.due { c with pending := rest, ledger := c.ledger ++ [.forwarded item] } := by
    rw [hfw.ledger]
    simp [due, h.charging]
  have hcharging : c.charging = true → rest ≠ [] := fun hcharging =>
    absurd (h.charging.symm.trans hcharging) nofun
  have hwrote := hfw.wrote
  have hhanded := hfw.handed
  split
  · next hup =>
    refine ⟨⟨fw ++ [item], htaken, hledger, hfw.received, hfw.delivered, ?_, ?_⟩, hcharging,
      fun _ => h.charging⟩
    · rw [up_append, ← hwrote]
      simp [hup]
    · simpa [hup] using hhanded
  · next hdown =>
    refine ⟨⟨fw ++ [item], htaken, hledger, hfw.received, hfw.delivered, ?_, ?_⟩, hcharging,
      fun _ => h.charging⟩
    · simpa [hdown] using hwrote
    · rw [down_append, ← hhanded]
      simp [hdown]

/-- At these stages the flow has not finished. -/
def Stage.Live : Stage → Prop
  | .free _ | .left _ _ => False
  | _ => True

/-- The flow is attached, its handler is at a stage of the path, and the bytes are in order. -/
def FlowingAt (strict : Prop) (f : Nat) (s : Stage) (r : Relay ω L τ) : Prop :=
  (Bonds r ∧ r.Attached f) ∧ StreamsAt strict f s.books r ∧ (s.Live → (r.heap f).state ≠ .closed)

theorem FlowingAt.step {s s' : Stage} (h : FlowingAt strict f s r)
    (hlive : (r.heap f).state ≠ .closed) (hface : Flow.Face (r.heap f) (g (r.heap f)))
    (heofs : (g (r.heap f)).eofs = (r.heap f).eofs)
    (hreceived : (g (r.heap f)).received = (r.heap f).received)
    (hbooks : s.books (r.heap f).books → s'.books (g (r.heap f)).books) :
    FlowingAt strict f s' (r.setFlow f g) := by
  have hstate : (g (r.heap f)).state ≠ .closed := fun hc => hlive (hface.closed.1 hc)
  refine ⟨(facial_bonds f).face r g h.1 hface,
    h.2.1.work hlive hstate hbooks (fun _ => Stage.past) heofs hreceived, fun _ => ?_⟩
  rw [heap_setFlow_self]
  exact hstate

theorem path_flowing (strict : Prop) (f : Nat) :
    Path f (FlowingAt (ω := ω) (L := L) (τ := τ) strict f) where
  inert := fun g h hcore => ⟨(facial_bonds f).path.inert g h.1 hcore,
    h.2.1.setFlow (Flow.books_of_core hcore), False.elim⟩
  sendText := fun text h => ⟨(facial_bonds f).sendText _ text h.1,
    ending_streams.callChannel [] f _ h.2.1, False.elim⟩
  finish := fun _ why h => ⟨(facial_bonds f).finish _ why h.1, h.2.1.finished why, False.elim⟩
  sendEof := fun hpending hlive h => ⟨(facial_bonds f).sendEof h.1,
    h.2.1.sendEof hlive fun _ => by rw [hpending]; exact nofun, False.elim⟩
  settle := fun h => ⟨h.1, h.2.1.imp fun _ => Flow.Books.Doing.settled, False.elim⟩
  calm := fun hcharging h =>
    ⟨h.1, h.2.1.imp fun _ hsettled => Flow.Books.Doing.calm hsettled hcharging, False.elim⟩
  nothing := by
    intro r upload h
    cases upload <;> exact ⟨h.1, h.2.1, False.elim⟩
  count := fun _ h => h.step (h.2.2 trivial) ⟨rfl, Iff.rfl, rfl⟩ rfl rfl id
  push := by
    intro r r' item hres h
    refine ⟨(facial_bonds f).path.push hres h.1, ?_, False.elim⟩
    have hlive : (r'.heap f).state ≠ .closed := by
      rw [reserve_true hres]
      simpa using h.2.2 trivial
    have hreserved : StreamsAt strict f (Flow.Books.Doing (.incoming item)) r' := by
      rw [reserve_true hres]
      exact h.2.1.buffers f (· + item.bytes.length) _
    exact hreserved.work hlive hlive (fun hdoing => hdoing.push) (fun _ => Flow.Books.Doing.past)
      rfl rfl
  gate := by
    intro r item rest hpending h
    have hgate : StreamsAt strict f (Stage.books (.gated [] item rest)) r :=
      h.2.1.imp fun _ hdoing => ⟨Flow.Books.Doing.gated hdoing hpending, List.nil_prefix⟩
    exact ⟨(facial_bonds f).charge _ _ _ h.1, hgate.keepBooks rfl fun _ => rfl,
      fun _ hc => absurd (hpending.symm.trans (h.2.1.shut f hc)) nofun⟩
  meter := fun _ hmore h =>
    h.step (h.2.2 trivial) ⟨rfl, Iff.rfl, rfl⟩ rfl rfl fun hgated => ⟨hgated.1.more, hmore⟩
  await := by
    intro r item rest h
    have hmeter : FlowingAt strict f (.gated [.charged item] item rest)
        (r.meter f [.charged item]) :=
      h.step (h.2.2 trivial) ⟨rfl, Iff.rfl, rfl⟩ rfl rfl
        fun hgated => ⟨hgated.1.more, [.approved item], rfl⟩
    have hcharging : FlowingAt strict f (.free false)
        ((r.meter f [.charged item]).setFlow f fun flow => { flow with charging := true }) := by
      refine hmeter.step (hmeter.2.2 trivial) ⟨rfl, Iff.rfl, rfl⟩ rfl rfl fun hgated => ?_
      have hpending := hgated.1.pending
      obtain ⟨fw, hfw⟩ := hgated.1.present
      refine ⟨⟨fw, { hfw with ledger := ?_ }⟩, ?_, nofun⟩
      · have hledger := hfw.ledger
        simp only [Flow.books] at hledger hpending
        simp [Flow.Books.due, Flow.books, hledger, hpending]
      · intro _ hnil
        exact absurd (hpending.symm.trans hnil) nofun
    have hpressed : StreamsAt strict f Flow.Books.Settled (((r.meter f [.charged item]).setFlow f
        fun flow => { flow with charging := true }).updateReadPressure f) := by
      exact hcharging.2.1.setFlow (Flow.books_of_core (Flow.core_pressed _))
    exact ⟨(facial_bonds f).awaitVerdict h.1 item,
      hpressed.setFlow (g := fun flow => { flow with quotaTimer := true }) rfl, False.elim⟩
  answered := by
    intro r item rest hlive hcharging hpending h
    refine h.step hlive ⟨rfl, Iff.rfl, rfl⟩ rfl rfl fun hsettled => ?_
    obtain ⟨fw, hfw⟩ := hsettled.present
    refine ⟨⟨⟨fw, { hfw with ledger := ?_ }⟩, hpending, rfl⟩, [.approved item], rfl⟩
    have hledger := hfw.ledger
    simpa [Flow.Books.due, Flow.books, hcharging, hpending] using hledger
  unasked := fun hlive hcharging hpending h =>
    absurd hpending ((h.2.1.own hlive).charging hcharging)
  refused := by
    intro r why hlive h
    have hanswered : StreamsAt strict f Flow.Books.Past (r.answered f) :=
      h.2.1.work hlive hlive Stage.past (fun _ hpast => hpast) rfl rfl
    exact ⟨(facial_bonds f).path.refused why hlive h.1, hanswered.finished why, False.elim⟩
  shift := by
    intro r item rest hpending h
    have hshift : FlowingAt strict f (if item.upload then .last item.bytes else .give item.bytes)
        (r.setFlow f fun flow =>
          { flow with pending := rest, ledger := flow.ledger ++ [.forwarded item] }) :=
      h.step (h.2.2 trivial) ⟨rfl, Iff.rfl, rfl⟩ rfl rfl fun hgated => hgated.1.shift
    refine ⟨(facial_bonds f).path.shift hpending h.1,
      hshift.2.1.buffers f (· - item.bytes.length) _, fun _ => ?_⟩
    simpa [shiftPending, releaseBuffer] using h.2.2 trivial
  keepLast := by
    intro r bytes h
    refine ⟨(facial_bonds f).keep h.1 _ _,
      h.2.1.keep (fun c hc => ?_) (fun _ => Flow.Books.Doing.past) _, False.elim⟩
    -- Behind the bytes that wait already.
    exact Flow.Books.Doing.move hc (by simp)
  front := by
    intro r bytes hnil h
    refine ⟨h.1, h.2.1.imp fun _ hdoing => ?_, h.2.2⟩
    exact Flow.Books.Doing.move hdoing (by simp [Flow.books, hnil])
  closed := fun hc h => ⟨h.1, h.2.1.imp fun hlive => absurd hc hlive, False.elim⟩
  give := by
    intro r bytes h
    have hnoted : FlowingAt strict f (.free true) (r.noteHanded f bytes) := by
      refine h.step (h.2.2 trivial) ⟨rfl, Iff.rfl, rfl⟩ rfl rfl fun hdoing => ?_
      obtain ⟨fw, hfw⟩ := hdoing.present
      refine ⟨⟨fw, { hfw with handed := ?_ }⟩, hdoing.charging, hdoing.idle⟩
      have hsome : (r.heap f).ws.isSome = true := Option.isSome_iff_ne_none.2 h.1.2
      have hhanded := hfw.handed
      simpa [Flow.books, hsome] using hhanded
    exact ⟨(facial_bonds f).path.give h.1, ending_streams.callChannel [] f _ hnoted.2.1,
      False.elim⟩
  unshift := by
    intro r bytes rest hopened hbacklog h
    have hlive : (r.heap f).state ≠ .closed := by
      rw [hopened]
      exact nofun
    have hshift : FlowingAt strict f (.hand false bytes)
        (r.setFlow f fun flow => { flow with backlog := rest }) := by
      refine h.step hlive ⟨rfl, Iff.rfl, rfl⟩ rfl rfl fun hdoing => ?_
      exact Flow.Books.Doing.move hdoing (by simp [Flow.books, hbacklog])
    refine ⟨(facial_bonds f).path.unshift hopened hbacklog h.1,
      hshift.2.1.buffers f (· - bytes.length) _, fun _ => ?_⟩
    simpa [shiftBacklog, releaseBuffer] using hlive
  tcp := fun tcp h => ⟨(facial_bonds f).counts _ _ _ tcp h.1,
    h.2.1.keepBooks rfl fun _ => rfl, h.2.2⟩
  wrote := by
    intro r idle bytes n h
    -- The bytes taken move from the hand to the other side.
    refine h.step (h.2.2 trivial) ⟨rfl, Iff.rfl, rfl⟩ rfl rfl fun hdoing => ?_
    refine Flow.Books.Doing.move hdoing ?_
    simp [Flow.books]
  ack := by
    intro r idle bytes n h
    refine ⟨(facial_bonds f).ack _ n ((facial_bonds f).counts r _ _ _ h.1),
      ending_streams.callChannel [] f _ ?_, False.elim⟩
    exact h.2.1.keepBooks rfl fun _ => rfl
  unacked := fun h => ⟨h.1, h.2.1, False.elim⟩
  keepLeft := by
    intro r idle bytes _ h
    refine ⟨(facial_bonds f).keep h.1 _ _,
      h.2.1.keep (fun c hc => ?_) (fun _ => Flow.Books.Doing.past) _, False.elim⟩
    exact Flow.Books.Doing.move hc (by simp)
  done := fun h => ⟨h.1, h.2.1, False.elim⟩

/-! ### Events of an attached flow -/

variable [TcpHost τ]

/-- The flow is attached, and every flow's bytes are in order. -/
def Flowing (strict : Prop) (f : Nat) (r : Relay ω L τ) : Prop :=
  (Bonds r ∧ r.Attached f) ∧ Streams strict r

theorem rules_flowing (strict : Prop) (f : Nat) :
    Rules f (fun r => (r.heap f).pending = [] ∧ (r.heap f).state ≠ .closed)
      (Flowing (ω := ω) (L := L) (τ := τ) strict f) := by
  have hflowing : Flowing strict f = FlowingAt (ω := ω) (L := L) (τ := τ) strict f (.free false) :=
    funext fun _ => propext ⟨fun h => ⟨h.1, h.2.refocus f, False.elim⟩,
      fun h => ⟨h.1, StreamsAt.refocus h.2.1 0⟩⟩
  rw [hflowing]
  exact (path_flowing strict f).rules

/-- Bytes of the client arrive at a flow that has counted them as received. -/
theorem StreamsAt.messageBinary (hbonds : Bonds r ∧ r.Attached f)
    (h : StreamsAt strict f (Flow.Books.Doing { inUp := bytes }) r)
    (hlive : (r.heap f).state ≠ .closed) (now : Nat) :
    StreamsAt strict f Flow.Books.Settled (r.message f (.binary bytes) now) := by
  unfold Relay.message
  rw [if_neg hlive]
  have hincoming : FlowingAt strict f (.incoming ⟨bytes, true⟩) r := ⟨hbonds, h, fun _ => hlive⟩
  exact ((path_flowing strict f).enqueue (hincoming.step hlive ⟨rfl, Iff.rfl, rfl⟩ rfl rfl id)).2.1

theorem StreamsAt.messageText (h : StreamsAt strict f Q r) (f' : Nat) (text : String)
    (now : Nat) : StreamsAt strict f Q (r.message f' (.text text) now) := by
  unfold Relay.message
  split
  · exact h
  · have hactive : StreamsAt strict f Q
        (r.setFlow f' fun flow => { flow with lastActive := now }) := h.setFlow rfl
    dsimp only
    split
    · refine hactive.setFlow ?_
      split <;> rfl
    · exact hactive

/-- Bytes of the TCP peer arrive. -/
theorem Streams.tcpData (hbonds : Bonds r ∧ r.Attached f) (h : Streams strict r) (chunk : List U8)
    (now : Nat) : Streams strict (r.tcpData f chunk now) := by
  have h := h.refocus f
  unfold Relay.tcpData
  dsimp only
  split
  · next hc =>
    rw [heap_setFlow_self] at hc
    -- The flow has finished, and only the history grows.
    have hgrown : StreamsAt strict f Flow.Books.Settled
        (r.setFlow f fun flow => { flow with delivered := flow.delivered ++ chunk }) := by
      refine h.change (fun hlive => absurd hc hlive) ?_
        (fun _ => h.shut f hc) (fun hs => h.eofs hs f) rfl
      obtain ⟨fw, tail, hledger, htail, hwrote, hup, hhanded, hdown⟩ := h.past f
      exact ⟨fw, tail, hledger, htail, hwrote, hup, hhanded,
        hdown.trans (List.prefix_append _ _)⟩
    exact hgrown.refocus 0
  · next hlive =>
    rw [heap_setFlow_self] at hlive
    have hdelivered : FlowingAt strict f (.incoming ⟨chunk, false⟩)
        (r.setFlow f fun flow => { flow with delivered := flow.delivered ++ chunk }) := by
      have hfree : FlowingAt strict f (.free false) r := ⟨hbonds, h, False.elim⟩
      refine hfree.step hlive ⟨rfl, Iff.rfl, rfl⟩ rfl rfl fun hsettled => ?_
      obtain ⟨fw, hfw⟩ := hsettled.present
      refine ⟨⟨fw, { hfw with delivered := ?_ }⟩, hsettled.charging, nofun⟩
      have hold : (r.heap f).delivered = down (r.heap f).taken ++ [] := hfw.delivered
      rw [List.append_nil] at hold
      exact congrArg (· ++ chunk) hold
    have hactive := hdelivered.step (g := fun flow => { flow with lastActive := now })
      (hdelivered.2.2 trivial) ⟨rfl, Iff.rfl, rfl⟩ rfl rfl id
    exact StreamsAt.refocus ((path_flowing strict f).enqueue hactive).2.1 0

end Path

end Relay

end EmulateComputer
