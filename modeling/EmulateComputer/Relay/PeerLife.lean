import EmulateComputer.Relay.Multiplex

/-!
# PeerLife — when a channel dies, its flow is told

The relay trusts a session in three ways.  A channel it has attached a flow to goes on serving it
until the `close` hook is called for it; a channel that waits for its admission is left as it was
made, except that it may be aborted; and a stopped session has no live channel.

`Tidy` says so about one session, for a list of roles the relay gives its channels.  The hooks made
so far are part of the statement, so that the roles can stay as they are for the length of a call:
a bound channel is alive, or its `close` hook is among them.
-/

namespace EmulateComputer

open Mux

namespace MultiplexPeer

variable {ω : Type}

/-- The channel does not live, if there is one. -/
def Gone (p : MultiplexPeer ω) (id : Nat) : Prop :=
  ∀ ch, p.heap.lookup id = some ch → ch.dead = true

/-- The channel serves the flow attached to it. -/
def Channel.Serving (ch : Channel) : Prop :=
  ch.dead = false ∧ ch.closing = false ∧ ch.data = true

def Alive (p : MultiplexPeer ω) (id : Nat) : Prop :=
  ∃ ch, p.heap.lookup id = some ch ∧ ch.Serving

/-- Nothing has been done with the channel yet. -/
def Channel.Untouched (ch : Channel) : Prop :=
  ch.closing = false ∧ ch.data = false

/-- A hook that may be called while the relay itself calls the session. -/
def Quiet : HookCall → Prop
  | .closed _ => True
  | .pause _ _ => True
  | .opened _ _ => False
  | .message _ _ => False

/-- What the relay relies on about the channels of one session. -/
structure Roles where
  /-- A flow that has not finished is attached. -/
  bound : Nat → Prop
  /-- The channel waits for its admission. -/
  waiting : Nat → Prop
  /-- The channel is dead. -/
  ended : Nat → Prop
  /-- The hook has been called. -/
  said : HookCall → Prop
  /-- The session has been stopped. -/
  stopped : Prop
  /-- The id has been used. -/
  seen : Nat → Prop

structure Orderly (R : Roles) (p : MultiplexPeer ω) : Prop where
  known : ∀ id ch, p.heap.lookup id = some ch → id ≤ p.lastId
  listed : ∀ id ch, p.heap.lookup id = some ch → ch.dead = false → id ∈ p.channels
  bound : ∀ id, R.bound id → p.Alive id ∨ .closed id ∈ p.hooks
  waiting : ∀ id, R.waiting id → ∃ ch, p.heap.lookup id = some ch ∧ ch.Untouched
  ended : ∀ id, R.ended id → p.Gone id
  said : ∀ hook, R.said hook → hook ∈ p.hooks
  aborted : ∀ id, .closed id ∈ p.hooks → p.Gone id
  quiet : ∀ hook ∈ p.hooks, Quiet hook
  stopped : R.stopped → p.closed = true
  seen : ∀ id, R.seen id → id ≤ p.lastId

def Halted (p : MultiplexPeer ω) : Prop :=
  p.closed = true → ∀ id, p.Gone id

structure Tidy (R : Roles) (p : MultiplexPeer ω) : Prop extends Orderly R p where
  halted : p.Halted

variable {R S : Roles} {p q : MultiplexPeer ω} {id : Nat} {ch : Channel}

/-- `S` asks for no more than `R`. -/
structure Roles.Le (S R : Roles) : Prop where
  bound : ∀ id, S.bound id → R.bound id := by exact fun _ hid => hid
  waiting : ∀ id, S.waiting id → R.waiting id := by exact fun _ hid => hid
  ended : ∀ id, S.ended id → R.ended id := by exact fun _ hid => hid
  said : ∀ hook, S.said hook → R.said hook := by exact fun _ hhook => hhook
  stopped : S.stopped → R.stopped := by exact fun hstopped => hstopped
  seen : ∀ id, S.seen id → R.seen id := by exact fun _ hid => hid

theorem Orderly.weaken (h : Orderly R p) (hle : S.Le R) : Orderly S p :=
  { h with
    bound := fun id hid => h.bound id (hle.bound id hid)
    waiting := fun id hid => h.waiting id (hle.waiting id hid)
    ended := fun id hid => h.ended id (hle.ended id hid)
    said := fun hook hhook => h.said hook (hle.said hook hhook)
    stopped := fun hs => h.stopped (hle.stopped hs)
    seen := fun id hid => h.seen id (hle.seen id hid) }

theorem Tidy.weaken (h : Tidy R p) (hle : S.Le R) : Tidy S p :=
  { h.toOrderly.weaken hle with halted := h.halted }

/-- More is known to be dead, and more hooks are known to have been called. -/
theorem Orderly.remember (h : Orderly R p) (ended : Nat → Prop) (said : HookCall → Prop)
    (hended : ∀ id, ended id → p.Gone id) (hsaid : ∀ hook, said hook → hook ∈ p.hooks) :
    Orderly { R with ended := fun id => R.ended id ∨ ended id,
                     said := fun hook => R.said hook ∨ said hook } p :=
  { h with
    ended := fun id hid => hid.elim (h.ended id) (hended id)
    said := fun hook hhook => hhook.elim (h.said hook) (hsaid hook) }

/-- The id of a waiting channel has been used. -/
theorem Tidy.see (h : Tidy R p) : Tidy { R with seen := fun id => R.seen id ∨ R.waiting id } p := by
  refine { h with seen := ?_ }
  rintro id (hid | hid)
  · exact h.seen id hid
  · obtain ⟨ch, hch, -⟩ := h.waiting id hid
    exact h.known id ch hch

/-! ## Small changes of the session -/

/-- The two differ in the socket and the counters only. -/
structure Alike (p q : MultiplexPeer ω) : Prop where
  heap : q.heap = p.heap
  channels : q.channels = p.channels
  lastId : q.lastId = p.lastId
  closed : q.closed = p.closed
  hooks : q.hooks = p.hooks

theorem Orderly.alike (h : Orderly R p) (hq : Alike p q) : Orderly R q := by
  cases q
  obtain ⟨rfl, rfl, rfl, rfl, rfl⟩ := hq
  exact { h with }

theorem Halted.alike (h : p.Halted) (hq : Alike p q) : q.Halted := by
  intro hclosed id ch hch
  rw [hq.closed] at hclosed
  exact h hclosed id ch (hq.heap ▸ hch)

theorem Tidy.alike (h : Tidy R p) (hq : Alike p q) : Tidy R q :=
  { h.toOrderly.alike hq with halted := h.halted.alike hq }

theorem alike_bufferedAmount [WireSocket ω] (p : MultiplexPeer ω) : Alike p p.bufferedAmount.2 := by
  unfold bufferedAmount
  cases p.ws <;> exact ⟨rfl, rfl, rfl, rfl, rfl⟩

theorem alike_ws (p : MultiplexPeer ω) (ws : Option ω) : Alike p { p with ws } :=
  ⟨rfl, rfl, rfl, rfl, rfl⟩

theorem alike_release (p : MultiplexPeer ω) (bytes : Int) : Alike p (p.release bytes) :=
  ⟨rfl, rfl, rfl, rfl, rfl⟩

theorem alike_refuse (p : MultiplexPeer ω) (refusal : MuxRefusal) : Alike p (p.refuse refusal) :=
  ⟨rfl, rfl, rfl, rfl, rfl⟩

theorem gone_iff (hch : p.heap.lookup id = some ch) : p.Gone id ↔ ch.dead = true := by
  simp [Gone, hch]

theorem lookup_put (p : MultiplexPeer ω) (id : Nat) (f : Channel → Channel) (id' : Nat) :
    (p.put id f).heap.lookup id' =
      if id' = id then (p.heap.lookup id').map f else p.heap.lookup id' :=
  Table.lookup_modify _ _ _ _

variable {f : Channel → Channel}

theorem lookup_put_eq_some {id' : Nat} (h : (p.put id f).heap.lookup id' = some ch) :
    (id' ≠ id ∧ p.heap.lookup id' = some ch) ∨
      (id' = id ∧ ∃ ch', p.heap.lookup id' = some ch' ∧ f ch' = ch) := by
  rw [lookup_put] at h
  split at h
  · next heq => exact .inr ⟨heq, Option.map_eq_some_iff.1 h⟩
  · next hne => exact .inl ⟨hne, h⟩

theorem Gone.put {id' : Nat} (h : p.Gone id')
    (hrevive : ∀ ch, (f ch).dead = false → ch.dead = false) : (p.put id f).Gone id' := by
  intro ch hch
  rcases lookup_put_eq_some hch with ⟨-, hch⟩ | ⟨-, ch', hch', rfl⟩
  · exact h ch hch
  · cases hdead : (f ch').dead with
    | true => rfl
    | false => exact absurd (hrevive ch' hdead) (by simp [h ch' hch'])

/-- A change of one channel object that revives nothing and keeps what the roles ask for. -/
theorem Orderly.put (h : Orderly R p) (hrevive : ∀ ch, (f ch).dead = false → ch.dead = false)
    (hbound : ∀ ch, R.bound id → ch.Serving → (f ch).Serving)
    (hwaiting : ∀ ch, R.waiting id → ch.Untouched → (f ch).Untouched) : Orderly R (p.put id f) where
  known := by
    intro id' ch hch
    rcases lookup_put_eq_some hch with ⟨-, hch⟩ | ⟨-, ch', hch', -⟩
    · exact h.known id' ch hch
    · exact h.known id' ch' hch'
  listed := by
    intro id' ch hch hlive
    rcases lookup_put_eq_some hch with ⟨-, hch⟩ | ⟨-, ch', hch', rfl⟩
    · exact h.listed id' ch hch hlive
    · exact h.listed id' ch' hch' (hrevive ch' hlive)
  bound := by
    intro id' hid'
    rcases h.bound id' hid' with ⟨ch, hch, hserving⟩ | hsaid
    · refine .inl ?_
      by_cases heq : id' = id
      · subst heq
        exact ⟨f ch, Table.lookup_modify_self hch, hbound ch hid' hserving⟩
      · exact ⟨ch, by rw [lookup_put, if_neg heq, hch], hserving⟩
    · exact .inr hsaid
  waiting := by
    intro id' hid'
    obtain ⟨ch, hch, huntouched⟩ := h.waiting id' hid'
    by_cases heq : id' = id
    · subst heq
      exact ⟨f ch, Table.lookup_modify_self hch, hwaiting ch hid' huntouched⟩
    · exact ⟨ch, by rw [lookup_put, if_neg heq, hch], huntouched⟩
  ended := fun id' hid' => (h.ended id' hid').put hrevive
  said := h.said
  aborted := fun id' hid' => (h.aborted id' hid').put hrevive
  quiet := h.quiet
  stopped := h.stopped
  seen := h.seen

theorem Halted.put (h : p.Halted) (hrevive : ∀ ch, (f ch).dead = false → ch.dead = false) :
    (p.put id f).Halted :=
  fun hclosed id' => (h hclosed id').put hrevive

theorem Tidy.put (h : Tidy R p)
    (hf : ∀ ch, (f ch).dead = ch.dead ∧ (f ch).closing = ch.closing ∧ (f ch).data = ch.data) :
    Tidy R (p.put id f) := by
  have hrevive : ∀ ch, (f ch).dead = false → ch.dead = false := by
    intro ch hlive
    rw [← (hf ch).1]
    exact hlive
  refine { h.toOrderly.put hrevive ?_ ?_ with halted := h.halted.put hrevive }
  · rintro ch - ⟨hdead, hclosing, hdata⟩
    obtain ⟨h1, h2, h3⟩ := hf ch
    exact ⟨h1.trans hdead, h2.trans hclosing, h3.trans hdata⟩
  · rintro ch - ⟨hclosing, hdata⟩
    obtain ⟨-, h2, h3⟩ := hf ch
    exact ⟨h2.trans hclosing, h3.trans hdata⟩

theorem Orderly.call {hook : HookCall} (h : Orderly R p) (hquiet : Quiet hook)
    (hhook : ∀ id, hook = .closed id → p.Gone id) : Orderly R (p.call hook) :=
  { h with
    bound := fun id hid => (h.bound id hid).imp_right (List.mem_append_left _)
    said := fun hook hhook => List.mem_append_left _ (h.said hook hhook)
    aborted := by
      intro id hid
      rcases List.mem_append.1 hid with hid | hid
      · exact h.aborted id hid
      · exact hhook id (List.mem_singleton.1 hid).symm
    quiet := by
      intro hook' hhook'
      rcases List.mem_append.1 hhook' with hhook' | hhook'
      · exact h.quiet hook' hhook'
      · rw [List.mem_singleton.1 hhook']
        exact hquiet }

theorem Tidy.callPause (h : Tidy R p) (id : Nat) (paused : Bool) :
    Tidy R (p.call (.pause id paused)) := by
  have hcall : Orderly R (p.call (.pause id paused)) :=
    h.toOrderly.call (show Quiet (.pause id paused) from trivial) fun _ heq => nomatch heq
  exact { hcall with halted := h.halted }

theorem Orderly.remove (h : Orderly R p) (hgone : p.Gone id) : Orderly R (p.remove id) :=
  { h with
    listed := by
      intro id' ch hch hlive
      have hne : id' ≠ id := by
        rintro rfl
        exact absurd hlive (by simp [hgone ch hch])
      exact (List.mem_erase_of_ne hne).2 (h.listed id' ch hch hlive) }

/-- A call of one of the other hooks, once the relay has taken note of it. -/
theorem Tidy.callLoud (h : Tidy R p) (hhooks : p.hooks = []) (hook : HookCall) :
    Tidy R { p.call hook with hooks := [] } :=
  h.alike ⟨rfl, rfl, rfl, rfl, hhooks.symm⟩

theorem Tidy.raise (h : Tidy R p) (hle : p.lastId ≤ id) : Tidy R { p with lastId := id } :=
  { h with
    known := fun id' ch hch => (h.known id' ch hch).trans hle
    seen := fun id' hid' => (h.seen id' hid').trans hle }

/-- A new channel, under an id above all others. -/
theorem tidy_insert (h : Tidy R p) (hfresh : p.lastId < id) (hopen : p.closed = false)
    (hended : ¬ R.ended id) (hhooks : p.hooks = []) :
    Tidy { R with waiting := fun id' => R.waiting id' ∨ id' = id }
      { p with lastId := id, heap := p.heap.insert id {}, channels := p.channels ++ [id] } := by
  have hraised : Tidy R { p with lastId := id } := h.raise hfresh.le
  have hkept : ∀ id' ch, p.heap.lookup id' = some ch →
      (p.heap.insert id {}).lookup id' = some ch := by
    intro id' ch hch
    have hle := h.known id' ch hch
    rw [Table.lookup_insert, if_neg (by omega), hch]
  refine { hraised with
    known := Table.forall_insert (fun id' ch _ => hraised.known id' ch) le_rfl
    listed := Table.forall_insert (fun id' ch _ hch hlive =>
      List.mem_append_left _ (h.listed id' ch hch hlive)) fun _ =>
        List.mem_append_right _ List.mem_cons_self
    bound := ?_, waiting := ?_, ended := ?_, aborted := ?_, halted := ?_ }
  · intro id' hid'
    rcases h.bound id' hid' with ⟨ch, hch, hserving⟩ | hsaid
    · exact .inl ⟨ch, hkept id' ch hch, hserving⟩
    · exact .inr hsaid
  · rintro id' (hid' | rfl)
    · obtain ⟨ch, hch, huntouched⟩ := h.waiting id' hid'
      exact ⟨ch, hkept id' ch hch, huntouched⟩
    · exact ⟨{}, by rw [Table.lookup_insert, if_pos rfl], rfl, rfl⟩
  · intro id' hid' ch hch
    rcases Table.lookup_insert_eq_some.1 hch with ⟨rfl, -⟩ | ⟨-, hch⟩
    · exact absurd hid' hended
    · exact h.ended id' hid' ch hch
  · intro id' hid'
    rw [hhooks] at hid'
    cases hid'
  · intro hclosed
    exact absurd hclosed (by simp [hopen])

/-- A flow is attached to a channel that lives. -/
theorem tidy_attach (h : Tidy R p) (hwaiting : R.waiting id) (hlive : ¬ p.Gone id) :
    Tidy { R with bound := fun id' => R.bound id' ∨ id' = id,
                  waiting := fun id' => R.waiting id' ∧ id' ≠ id } (p.attach id) := by
  obtain ⟨ch, hch, huntouched⟩ := h.waiting id hwaiting
  have hdead : ch.dead = false := by
    simpa [gone_iff hch] using hlive
  have hput : Orderly { R with waiting := fun id' => R.waiting id' ∧ id' ≠ id } (p.attach id) :=
    (h.toOrderly.weaken (S := { R with waiting := fun id' => R.waiting id' ∧ id' ≠ id })
      { waiting := fun _ hid => hid.1 }).put (fun _ hlive => hlive)
      (fun _ _ hserving => ⟨hserving.1, hserving.2.1, rfl⟩) fun _ hid => absurd rfl hid.2
  refine { hput with bound := ?_, halted := h.halted.put fun _ hlive => hlive }
  rintro id' (hid' | rfl)
  · exact hput.bound id' hid'
  · exact .inl ⟨_, Table.lookup_modify_self hch, hdead, huntouched.1, rfl⟩

/-! ## Aborting -/

/-- The session is as open as before, and its dead channels stay dead. -/
structure Fades (p q : MultiplexPeer ω) : Prop where
  closed : q.closed = p.closed
  gone : ∀ id, p.Gone id → q.Gone id

theorem Halted.fades (h : p.Halted) (hq : Fades p q) : q.Halted := by
  intro hclosed id
  rw [hq.closed] at hclosed
  exact hq.gone id (h hclosed id)

def markDead (id : Nat) (p : MultiplexPeer ω) : MultiplexPeer ω :=
  p.put id fun ch => { ch with dead := true }

theorem gone_markDead (p : MultiplexPeer ω) (id : Nat) : (p.markDead id).Gone id := by
  intro ch hch
  rcases lookup_put_eq_some hch with ⟨hne, -⟩ | ⟨-, old, -, rfl⟩
  · exact absurd rfl hne
  · rfl

theorem Gone.markDead {id' : Nat} (h : p.Gone id') : (p.markDead id).Gone id' :=
  h.put fun _ hlive => nomatch hlive

/-- Once a channel is killed nothing is expected of it. -/
theorem Orderly.markDead (h : Orderly R p) (id : Nat) :
    Orderly { R with bound := fun id' => R.bound id' ∧ id' ≠ id } (p.markDead id) := by
  have hweak : Orderly { R with bound := fun id' => R.bound id' ∧ id' ≠ id } p :=
    h.weaken { bound := fun _ hid => hid.1 }
  exact hweak.put (fun _ hlive => nomatch hlive) (fun _ hid => absurd rfl hid.2)
    fun _ _ huntouched => huntouched

/-- Back to what is expected: the hook is what the killed channel itself owes. -/
theorem Orderly.told (h : Orderly { R with bound := fun id' => R.bound id' ∧ id' ≠ id } p)
    (htold : R.bound id → .closed id ∈ p.hooks) : Orderly R p := by
  refine { h with bound := ?_ }
  intro id' hid'
  by_cases heq : id' = id
  · subst heq
    exact .inr (htold hid')
  · exact h.bound id' ⟨hid', heq⟩

/-- The part of an abort before its control frame. -/
def strike (id : Nat) (queued : Int) (p : MultiplexPeer ω) : MultiplexPeer ω :=
  ((p.put id fun ch => { ch with dead := true }).release queued).put id fun ch =>
    { ch with queued := 0, queue := [] }

theorem gone_strike (p : MultiplexPeer ω) (id : Nat) (queued : Int) :
    (p.strike id queued).Gone id :=
  Gone.put (p := (p.markDead id).release queued) (gone_markDead p id) fun _ hlive => hlive

theorem fades_strike (p : MultiplexPeer ω) (id : Nat) (queued : Int) :
    Fades p (p.strike id queued) where
  closed := rfl
  gone := fun _ hgone =>
    Gone.put (p := (p.markDead id).release queued) hgone.markDead fun _ hlive => hlive

theorem Orderly.strike (h : Orderly R p) (id : Nat) (queued : Int) :
    Orderly { R with bound := fun id' => R.bound id' ∧ id' ≠ id } (p.strike id queued) :=
  ((h.markDead id).alike (alike_release _ queued)).put (fun _ hlive => hlive)
    (fun _ hid => absurd rfl hid.2) fun _ _ huntouched => huntouched

/-- The roles while a channel is being aborted: nothing is expected of it, it is known to be dead,
and what was said before stays said. -/
def Roles.aborting (R : Roles) (id : Nat) (hooks : List HookCall) : Roles :=
  { R with
    bound := fun id' => R.bound id' ∧ id' ≠ id
    ended := fun id' => R.ended id' ∨ id' = id
    said := fun hook => R.said hook ∨ hook ∈ hooks }

/-- An abort through a `control` that keeps the session in order: the channel is dead, and its flow
has been told. -/
theorem orderly_abortThrough (control : Nat → String → MultiplexPeer ω → MultiplexPeer ω) (id : Nat)
    {I : MultiplexPeer ω → Prop} (hI : ∀ p q, Fades p q → I p → I q)
    (hcontrol : ∀ (S : Roles) (q : MultiplexPeer ω), Orderly S q → I q →
      Orderly S (control id "CLOSE" q) ∧ I (control id "CLOSE" q)) (h : Orderly R p) (hi : I p) :
    Orderly R (abortThrough control id p) ∧ I (abortThrough control id p) ∧
      (abortThrough control id p).Gone id := by
  unfold abortThrough
  cases hch : p.heap.lookup id with
  | none => exact ⟨h, hi, fun ch hch' => by rw [hch] at hch'; cases hch'⟩
  | some channel =>
    dsimp only
    by_cases hdead : channel.dead = true
    · rw [if_pos hdead]
      exact ⟨h, hi, (gone_iff hch).2 hdead⟩
    · rw [if_neg hdead]
      change let q := if channel.data then
            ((control id "CLOSE" (p.strike id channel.queued)).remove id).call (.closed id)
          else (control id "CLOSE" (p.strike id channel.queued)).remove id
        Orderly R q ∧ I q ∧ q.Gone id
      -- Until the hook is called nothing is expected of the channel itself.
      have hkilled : Orderly (R.aborting id p.hooks) (p.strike id channel.queued) :=
        (h.strike id channel.queued).remember (fun id' => id' = id) (fun hook => hook ∈ p.hooks)
          (fun id' heq => heq ▸ gone_strike p id channel.queued) fun hook hhook => hhook
      obtain ⟨hsent, hi⟩ := hcontrol _ _ hkilled (hI _ _ (fades_strike p id channel.queued) hi)
      have hgone : (control id "CLOSE" (p.strike id channel.queued)).Gone id :=
        hsent.ended id (.inr rfl)
      generalize control id "CLOSE" (p.strike id channel.queued) = sent at *
      have hremoved := hsent.remove hgone
      have hremovedI : I (sent.remove id) := hI sent _ ⟨rfl, fun _ hid => hid⟩ hi
      have hback : ∀ q : MultiplexPeer ω, Orderly (R.aborting id p.hooks) q →
          (R.bound id → .closed id ∈ q.hooks) → Orderly R q := by
        intro q hq
        exact Orderly.told { hq with
          ended := fun id' hid' => hq.ended id' (.inl hid')
          said := fun hook hhook => hq.said hook (.inl hhook) }
      split
      · refine ⟨hback _ (hremoved.call trivial ?_) ?_, hI (sent.remove id) _ ⟨rfl, fun _ hid => hid⟩
          hremovedI, hgone⟩
        · intro id' heq
          cases heq
          exact hgone
        · exact fun _ => List.mem_append_right _ List.mem_cons_self
      · next hdata =>
        refine ⟨hback _ hremoved ?_, hremovedI, hgone⟩
        intro hid
        rcases h.bound id hid with ⟨ch, hch', hserving⟩ | hsaid
        · rw [hch] at hch'
          cases hch'
          exact absurd hserving.2.2 hdata
        · exact hsent.said _ (.inr hsaid)

variable [WireSocket ω] {bytes data : List U8} {command : List Char}

/-- An abort within `stop`. -/
theorem orderly_abortStopped (h : Orderly R p) (id : Nat) :
    let q := abortThrough (fun _ _ => controlStopped) id p
    Orderly R q ∧ q.closed = p.closed ∧ q.Gone id :=
  orderly_abortThrough (fun _ _ => controlStopped) id (I := fun q => q.closed = p.closed)
    (fun _ _ hfades hclosed => hfades.closed.trans hclosed)
    (fun _ q hq hclosed =>
      have hread := alike_bufferedAmount q
      ⟨hq.alike hread, hread.closed.trans hclosed⟩) h rfl

theorem orderly_abortAll : ∀ (ids : List Nat) (R : Roles) (p : MultiplexPeer ω), Orderly R p →
    let q := ids.foldl (fun p id => abortThrough (fun _ _ => controlStopped) id p) p
    Orderly { R with ended := fun id => R.ended id ∨ id ∈ ids } q ∧ q.closed = p.closed
  | [], R, p, h => by
    refine ⟨h.weaken { ended := ?_ }, rfl⟩
    rintro id (hid | hid)
    · exact hid
    · cases hid
  | id :: ids, R, p, h => by
    obtain ⟨hstep, hclosed, hgone⟩ := orderly_abortStopped h id
    -- From here on the channel is known to be dead.
    have hnext : Orderly { R with ended := fun id' => R.ended id' ∨ id' = id }
        (abortThrough (fun _ _ => controlStopped) id p) := by
      refine (hstep.remember (fun id' => id' = id) (fun _ => False) ?_ ?_).weaken
        { said := fun _ hhook => .inl hhook }
      · rintro id' rfl
        exact hgone
      · exact fun hook hhook => hhook.elim
    obtain ⟨hrest, hkept⟩ := orderly_abortAll ids _ _ hnext
    refine ⟨hrest.weaken { ended := ?_ }, hkept.trans hclosed⟩
    rintro id' (hid' | hid')
    · exact .inl (.inl hid')
    · rcases List.mem_cons.1 hid' with rfl | hid'
      · exact .inl (.inr rfl)
      · exact .inr hid'

/-- What stopping a session leaves. -/
theorem tidy_stop (h : Tidy R p) : Tidy R p.stop ∧ p.stop.closed = true ∧ ∀ id, p.stop.Gone id := by
  unfold stop
  split
  · next hclosed => exact ⟨h, hclosed, h.halted hclosed⟩
  · -- A channel that is not listed is dead already; the loop sees to the others.
    have hstart : Orderly { R with ended := fun id => R.ended id ∨ id ∉ p.channels }
        { p with closed := true } := by
      refine { h with ended := ?_, stopped := fun _ => rfl }
      rintro id (hid | hid)
      · exact h.ended id hid
      · intro ch hch
        cases hdead : ch.dead with
        | true => rfl
        | false => exact absurd (h.listed id ch hch hdead) hid
    obtain ⟨hloop, hclosed⟩ := orderly_abortAll p.channels _ _ hstart
    generalize p.channels.foldl (fun p id => abortThrough (fun _ _ => controlStopped) id p)
      { p with closed := true } = q at *
    have hall : ∀ id, q.Gone id := by
      intro id
      by_cases hid : id ∈ p.channels
      · exact hloop.ended id (.inr hid)
      · exact hloop.ended id (.inl (.inr hid))
    have hR : Orderly R q := hloop.weaken { ended := fun _ hid => .inl (.inl hid) }
    exact ⟨{ hR.alike (alike_ws q _) with halted := fun _ => hall }, hclosed, hall⟩

theorem tidy_control (h : Tidy R p) (id : Nat) (text : String) : Tidy R (p.control id text) := by
  unfold control
  have hread := h.alike (alike_bufferedAmount p)
  revert hread
  rcases p.bufferedAmount with ⟨amount, p⟩
  intro hread
  dsimp only at hread ⊢
  have hstep : Tidy R (if amount.any (MUX_SOCKET_BUFFER ≤ ·) then p.stop else p) := by
    split
    · exact (tidy_stop hread).1
    · exact hread
  generalize (if amount.any (MUX_SOCKET_BUFFER ≤ ·) then p.stop else p) = q at *
  split
  · exact hstep
  · exact hstep.alike (alike_ws q _)

theorem tidy_abort (h : Tidy R p) (id : Nat) : Tidy R (p.abort id) ∧ (p.abort id).Gone id := by
  obtain ⟨hstep, hhalted, hgone⟩ := orderly_abortThrough control id (I := Halted)
    (fun _ _ hfades hhalted => hhalted.fades hfades)
    (fun _ q hq hhalted =>
      have hsent := tidy_control { hq with halted := hhalted } id "CLOSE"
      ⟨hsent.toOrderly, hsent.halted⟩)
    h.toOrderly h.halted
  exact ⟨{ hstep with halted := hhalted }, hgone⟩

/-- The flow of an aborted channel is told. -/
theorem closed_mem_hooks_abort (h : Tidy R p) (halive : p.Alive id) :
    .closed id ∈ (p.abort id).hooks := by
  have honly : Tidy ⟨fun id' => id' = id, fun _ => False, fun _ => False, fun _ => False,
      False, fun _ => False⟩ p := by
    refine ⟨⟨h.known, h.listed, ?_, fun _ => nofun, fun _ => nofun, fun _ => nofun, h.aborted,
      h.quiet, nofun, fun _ => nofun⟩, h.halted⟩
    rintro id' rfl
    exact .inl halive
  obtain ⟨htidy, hgone⟩ := tidy_abort honly id
  rcases htidy.bound id rfl with ⟨ch, hch, hdead, -⟩ | hsaid
  · exact absurd (hgone ch hch) (by simp [hdead])
  · exact hsaid

/-! ## Output -/

theorem alike_writable (p : MultiplexPeer ω) : Alike p p.writable.2 := by
  unfold writable
  split
  · exact ⟨rfl, rfl, rfl, rfl, rfl⟩
  · exact alike_bufferedAmount p

theorem tidy_sendHead (h : Tidy R p) (id : Nat) (message : List U8) (count : Nat) :
    Tidy R (p.sendHead id message count) := by
  exact (((h.alike (alike_ws p _)).put fun _ => by simp).alike (alike_release _ _)).put
    fun _ => by simp

theorem tidy_drainLoop (id : Nat) : ∀ (fuel : Nat) (p : MultiplexPeer ω), Tidy R p →
    Tidy R (drainLoop id fuel p)
  | 0, _, h => h
  | fuel + 1, p, h => by
    unfold drainLoop
    cases p.heap.lookup id with
    | none => exact h
    | some channel =>
      dsimp only
      rcases channel.queue with _ | ⟨message, rest⟩
      · exact h
      · have hread := h.alike (alike_writable p)
        revert hread
        rcases p.writable with ⟨_ | _, p⟩
        · exact fun hread => hread
        · intro hread
          cases message with
          | text text =>
            exact tidy_drainLoop id fuel _ ((tidy_control hread id text).put fun _ => by simp)
          | binary bytes =>
            dsimp only
            split
            · exact hread
            · exact tidy_drainLoop id fuel _ (tidy_sendHead hread id bytes _)

section

variable (h : Tidy R p)

include h

theorem tidy_tellPause (id : Nat) : Tidy R (p.tellPause id) := by
  unfold tellPause
  cases p.heap.lookup id with
  | none => exact h
  | some channel =>
    dsimp only
    split
    · exact h
    · split
      · exact h.callPause id true
      · have hread := h.alike (alike_writable p)
        revert hread
        rcases p.writable with ⟨writable, p⟩
        exact fun hread => hread.callPause id _

theorem tidy_finishClose (id : Nat) : Tidy R (p.finishClose id) := by
  unfold finishClose
  cases hch : p.heap.lookup id with
  | none => exact h
  | some channel =>
    dsimp only
    split
    · next hclosing =>
      -- A channel that closes in good order has no flow left, or one that has been told.
      have hknown : Tidy { R with said := fun hook => R.said hook ∨ hook ∈ p.hooks } p := by
        refine { h with said := ?_ }
        exact fun hook hhook => hhook.elim (h.said hook) fun hhook => hhook
      have hsent := tidy_control hknown id "CLOSE"
      have htold : R.bound id → .closed id ∈ (p.control id "CLOSE").hooks := by
        intro hid
        rcases h.bound id hid with ⟨ch, hch', hserving⟩ | hsaid
        · rw [hch] at hch'
          cases hch'
          exact absurd hclosing.1 (by simp [hserving.2.1])
        · exact hsent.said _ (.inr hsaid)
      generalize p.control id "CLOSE" = q at *
      have hq : Orderly R q := hsent.toOrderly.weaken { said := fun _ hhook => .inl hhook }
      have hremoved := (hq.markDead id).remove (gone_markDead q id)
      exact { hremoved.told htold with
        halted := hsent.halted.fades ⟨rfl, fun _ hgone => hgone.markDead⟩ }
    · exact h

theorem tidy_drainChannel (id : Nat) : Tidy R (p.drainChannel id) := by
  unfold drainChannel
  cases p.heap.lookup id with
  | none => exact h
  | some channel =>
    dsimp only
    split
    · exact h
    · exact tidy_finishClose (tidy_tellPause (tidy_drainLoop id _ p h) id) id

theorem tidy_drain : Tidy R p.drain := by
  refine List.foldlRecOn (motive := Tidy R) _ _ h fun p h id _ => ?_
  split
  · exact tidy_drainChannel h id
  · exact h

/-! ## The calls of the relay -/

theorem tidy_sendText (id : Nat) (text : String) : Tidy R (p.sendText id text) := by
  unfold sendText
  cases p.heap.lookup id with
  | none => exact h
  | some channel =>
    dsimp only
    split
    · exact h
    · split
      · exact (tidy_abort h id).1
      · exact tidy_drainChannel (h.put fun _ => by simp) id

theorem tidy_sendBinary (id : Nat) (bytes : List U8) : Tidy R (p.sendBinary id bytes) := by
  unfold sendBinary
  cases p.heap.lookup id with
  | none => exact h
  | some channel =>
    dsimp only
    split
    · exact h
    · split
      · exact (tidy_abort h id).1
      · unfold reserve
        split_ifs
        · exact (tidy_abort h id).1
        · have hroom : Tidy R { p with pendingBytes := p.pendingBytes + bytes.length } :=
            h.alike ⟨rfl, rfl, rfl, rfl, rfl⟩
          exact tidy_drainChannel (hroom.put fun _ => by simp) id

theorem tidy_ack (id : Nat) (bytes : Nat) : Tidy R (p.ack id bytes) := by
  exact tidy_control (h.put fun _ => by simp) id _

/-- A channel is closed once its flow has finished, or when it was not admitted. -/
theorem tidy_close (hbound : ¬ R.bound id) (hwaiting : ¬ R.waiting id) : Tidy R (p.close id) := by
  have hput : Orderly R (p.put id fun ch => { ch with closing := true }) :=
    h.toOrderly.put (fun _ hlive => hlive) (fun _ hid => absurd hid hbound)
      fun _ hid => absurd hid hwaiting
  exact tidy_drainChannel { hput with halted := h.halted.put fun _ hlive => hlive } id

end

/-- Closing a dead channel only sets its flag. -/
theorem close_of_gone (hgone : p.Gone id) :
    p.close id = p.put id fun ch => { ch with closing := true } := by
  unfold close drainChannel
  rw [lookup_put, if_pos rfl]
  cases hch : p.heap.lookup id with
  | none => rfl
  | some channel =>
    exact if_pos (hgone channel hch)

/-! ## The client's frames -/

theorem tidy_window {bytes : Nat} (h : Tidy R p) (hq : p.window id bytes = .ok q) : Tidy R q := by
  unfold window at hq
  cases hch : p.heap.lookup id with
  | none =>
    rw [hch] at hq
    cases hq
    exact h
  | some channel =>
    rw [hch] at hq
    dsimp only at hq
    split at hq
    · cases hq
    · cases hq
      exact tidy_drainChannel (h.put fun _ => by simp) id

/-- What a frame of the client leads to: calls the relay can expect at any time, the opening of a
new channel, or a message for the flow of a channel. -/
inductive Heard (R : Roles) (p q : MultiplexPeer ω) (frame : Frame) : Prop
  | quiet (tidy : Tidy R q)
  | opened (id : Nat) (command : List Char) (fresh : p.lastId < id)
      (hooks : q.hooks = [.opened id command])
      (tidy : Tidy { R with waiting := fun id' => R.waiting id' ∨ id' = id } { q with hooks := [] })
  | message (id : Nat) (msg : Frame) (hooks : q.hooks = [.message id msg])
      (tidy : Tidy R { q with hooks := [] })
      (payload : ∀ data, msg = .binary data →
        ∃ bytes, frame = .binary bytes ∧ decodeData bytes = .ok (id, data))

theorem heard_openChannel {frame : Frame} (h : Tidy R p)
    (hended : ∀ id, p.lastId < id → ¬ R.ended id) (hhooks : p.hooks = []) (hopen : p.closed = false)
    (hq : p.openChannel id command = .ok q) : Heard R p q frame := by
  unfold openChannel at hq
  split at hq
  · cases hq
  · next hfresh =>
    have hlast : Tidy R { p with lastId := id } := h.raise (by omega)
    dsimp only at hq
    split at hq
    · cases hq
      exact .quiet (tidy_control (tidy_control hlast id _) id _)
    · cases hq
      refine .opened id command (by omega) ?_ ?_
      · rw [hhooks]
        rfl
      · exact (tidy_insert h (by omega) hopen (hended id (by omega)) hhooks).callLoud hhooks _

theorem heard_onCommand {text : String} (h : Tidy R p) (hhooks : p.hooks = [])
    (hq : p.onCommand id command = .ok q) : Heard R p q (.text text) := by
  unfold onCommand at hq
  split at hq
  · cases hq
    exact .quiet h
  · split at hq
    · cases hq
      exact .quiet (tidy_abort h id).1
    · split at hq
      · cases hq
      · exact .quiet (tidy_window h hq)
      · split at hq
        · cases hq
          refine .message id (.text "FIN") ?_ (h.callLoud hhooks _) fun data heq => nomatch heq
          rw [call, hhooks]
          rfl
        · cases hq

theorem heard_receive (h : Tidy R p) (hhooks : p.hooks = [])
    (hdecode : decodeData bytes = .ok (id, data)) :
    Heard R p (p.receive id data) (.binary bytes) := by
  unfold receive
  cases p.heap.lookup id with
  | none => exact .quiet h
  | some channel =>
    dsimp only
    split
    · exact .quiet h
    · have hput : Tidy R (p.put id fun ch => { ch with incoming := ch.incoming + data.length }) :=
        h.put fun _ => by simp
      split
      · exact .quiet (tidy_abort (hput.alike (alike_refuse _ _)) id).1
      · refine .message id (.binary data) ?_ (hput.callLoud hhooks _) ?_
        · change p.hooks ++ [.message id (.binary data)] = _
          rw [hhooks]
          rfl
        · rintro data' heq
          cases heq
          exact ⟨bytes, rfl, hdecode⟩

theorem heard_message (h : Tidy R p) (hended : ∀ id, p.lastId < id → ¬ R.ended id)
    (hhooks : p.hooks = []) (frame : Frame) : Heard R p (p.message frame) frame := by
  unfold message
  split
  · exact .quiet h
  · next hopen =>
    have hopen : p.closed = false := by
      simpa using hopen
    split
    · exact .quiet (h.alike (alike_ws p _))
    · cases hq : p.dispatch frame with
      | error error => exact .quiet (tidy_stop (h.alike (alike_refuse p _))).1
      | ok q =>
        dsimp only
        unfold dispatch at hq
        cases frame with
        | binary bytes =>
          cases hdecode : decodeData bytes with
          | error error =>
            simp only [hdecode] at hq
            cases hq
          | ok frame =>
            simp only [hdecode, Except.ok.injEq] at hq
            rw [← hq]
            split
            · exact heard_receive h hhooks hdecode
            · exact .quiet h
        | text text =>
          cases hdecode : decodeControl text.toList with
          | error error =>
            simp only [hdecode] at hq
            cases hq
          | ok control =>
            simp only [hdecode] at hq
            split at hq
            · exact heard_openChannel h hended hhooks hopen hq
            · exact heard_onCommand h hhooks hq

/-- Data for a channel that serves a flow reaches the flow, or the channel is aborted. -/
theorem hooks_message_of_alive (h : Tidy R p) (hhooks : p.hooks = [])
    (halive : p.Alive id) (hdecode : decodeData bytes = .ok (id, data)) :
    (p.message (.binary bytes)).hooks = [.message id (.binary data)] ∨
      .closed id ∈ (p.message (.binary bytes)).hooks := by
  obtain ⟨ch, hch, hdead, hclosing, hdata⟩ := halive
  have hopen : p.closed = false := by
    cases hclosed : p.closed with
    | false => rfl
    | true => exact absurd (h.halted hclosed id ch hch) (by simp [hdead])
  have hlisted : id ∈ p.channels := h.listed id ch hch hdead
  have hmessage : p.message (.binary bytes) = p.receive id data := by
    unfold message dispatch
    rw [if_neg (by simp [hopen]), if_neg (by simp)]
    simp only [hdecode, if_pos hlisted]
  rw [hmessage]
  unfold receive
  rw [hch]
  dsimp only
  rw [if_neg (by simp [hdead, hclosing, hdata])]
  split
  · -- Beyond the window: the abort calls the `close` hook.
    refine .inr (closed_mem_hooks_abort (R := R) ?_ ?_)
    · exact (h.put fun _ => by simp).alike (alike_refuse _ _)
    · exact ⟨_, Table.lookup_modify_self hch, hdead, hclosing, hdata⟩
  · refine .inl ?_
    change p.hooks ++ [.message id (.binary data)] = _
    rw [hhooks]
    rfl

end MultiplexPeer

end EmulateComputer
