import EmulateComputer.Relay.CreditFrames
import EmulateComputer.Lib.Credit

/-!
# PeerAccounts — the relay's operations as moves of credit

For each channel the relay holds two ends of a credit account: it sends the download with the
credit in `available`, and it receives the upload and counts what it holds in `incoming`.  What an
operation may do to these, and to the frames on their way to the client, is said in two relations:

* `Still` — nothing is put on the wire, no count changes and no text is queued;
* `Serves` — for every channel both accounts make a `Credit.Run`.

Every operation of the peer but the handling of data, `WINDOW` and a new channel is one of these.
-/

namespace EmulateComputer

open Mux Credit

/-- The WebSocket of a link: the frames the client has yet to read, and what the next looks at the
buffer will show. -/
structure Wire where
  sent : List Frame
  readings : List Nat

instance : WireSocket Wire where
  sendText w text := { w with sent := w.sent ++ [.text text] }
  sendBinary w bytes := { w with sent := w.sent ++ [.binary bytes] }
  getBufferedAmount w := (w.readings.headD 0, { w with readings := w.readings.tail })
  -- The client learns of the end from its own reads.
  close w := w

abbrev Peer := MultiplexPeer Wire

namespace MultiplexPeer

def available (p : Peer) (id : Nat) : Nat :=
  (p.heap.lookup id).elim 0 (·.available)

def incoming (p : Peer) (id : Nat) : Int :=
  (p.heap.lookup id).elim 0 (·.incoming)

def down (p : Peer) : List Frame :=
  p.ws.elim [] (·.sent)

/-- A text that is no acknowledgement. -/
def Plain (text : String) : Prop :=
  Text.stripPrefix "ACK " text.toList = none

instance (text : String) : Decidable (Plain text) :=
  inferInstanceAs (Decidable (_ = _))

/-! ## Nothing moves -/

/-- The object has the same counts, and no text more in its queue. -/
structure Channel.Similar (ch ch' : Channel) : Prop where
  available : ch'.available = ch.available
  incoming : ch'.incoming = ch.incoming
  texts : ∀ text, .text text ∈ ch'.queue → .text text ∈ ch.queue

theorem Channel.Similar.refl (ch : Channel) : ch.Similar ch :=
  ⟨rfl, rfl, fun _ h => h⟩

theorem Channel.Similar.trans {a b c : Channel} (h : a.Similar b) (h' : b.Similar c) :
    a.Similar c where
  available := h'.available.trans h.available
  incoming := h'.incoming.trans h.incoming
  texts text hm := h.texts text (h'.texts text hm)

structure Still (p q : Peer) : Prop where
  lastId : q.lastId = p.lastId
  refusals : q.refusals = p.refusals
  down : q.down = p.down
  objects : Table.Rel (fun _ => Channel.Similar) p.heap q.heap

variable {p q r : Peer} {id : Nat}

namespace Still

theorem of_eq (hid : q.lastId = p.lastId) (href : q.refusals = p.refusals) (hws : q.ws = p.ws)
    (hheap : q.heap = p.heap) : Still p q where
  lastId := hid
  refusals := href
  down := by rw [MultiplexPeer.down, hws, MultiplexPeer.down]
  objects := by
    rw [hheap]
    exact .refl (fun _ => .refl) _

theorem refl (p : Peer) : Still p p :=
  .of_eq rfl rfl rfl rfl

theorem trans (h : Still p q) (h' : Still q r) : Still p r where
  lastId := h'.lastId.trans h.lastId
  refusals := h'.refusals.trans h.refusals
  down := h'.down.trans h.down
  objects := .trans (fun _ _ _ _ => .trans) h.objects h'.objects

theorem available_eq (h : Still p q) (id : Nat) : q.available id = p.available id :=
  h.objects.elim_eq (fun _ _ _ hsim => hsim.available) id

theorem incoming_eq (h : Still p q) (id : Nat) : q.incoming id = p.incoming id :=
  h.objects.elim_eq (fun _ _ _ hsim => hsim.incoming) id

end Still

variable {f : Channel → Channel}

theorem still_put (id : Nat)
    (hf : ∀ ch, p.heap.lookup id = some ch → ch.Similar (f ch)) : Still p (p.put id f) where
  lastId := rfl
  refusals := rfl
  down := rfl
  objects := .modify (fun _ => .refl) hf

theorem still_call (p : Peer) (hook : HookCall) : Still p (p.call hook) :=
  .of_eq rfl rfl rfl rfl

theorem still_release (p : Peer) (bytes : Int) : Still p (p.release bytes) :=
  .of_eq rfl rfl rfl rfl

theorem still_remove (p : Peer) (id : Nat) : Still p (p.remove id) :=
  .of_eq rfl rfl rfl rfl

theorem still_bufferedAmount (p : Peer) : Still p p.bufferedAmount.2 := by
  unfold bufferedAmount
  split
  · exact .refl p
  · next ws hws =>
    refine ⟨rfl, rfl, ?_, .refl (fun _ => .refl) _⟩
    unfold MultiplexPeer.down
    rw [hws]
    rfl

/-- An abort is silent but for the frame its `control` may send. -/
theorem abortThrough_cases (control : Nat → String → Peer → Peer) (id : Nat) (p : Peer) :
    abortThrough control id p = p ∨
      ∃ q, Still p q ∧ Still (control id "CLOSE" q) (abortThrough control id p) := by
  unfold abortThrough
  split
  · exact .inl rfl
  · next channel hch =>
    split
    · exact .inl rfl
    · right
      have hdead : Still p (p.put id fun ch => { ch with dead := true }) :=
        still_put id fun ch _ => ⟨rfl, rfl, fun _ h => h⟩
      have hempty := fun p : Peer => still_put (p := p) id
        (f := fun ch => { ch with queued := 0, queue := [] })
        fun ch _ => ⟨rfl, rfl, fun _ h => absurd h List.not_mem_nil⟩
      refine ⟨_, (hdead.trans (still_release _ channel.queued)).trans (hempty _), ?_⟩
      split
      · exact (still_remove _ id).trans (still_call _ _)
      · exact still_remove _ id

theorem still_stop (p : Peer) : Still p p.stop := by
  unfold stop
  split
  · exact .refl p
  · have hclosed : Still p { p with closed := true } := .of_eq rfl rfl rfl rfl
    have habort : ∀ (p : Peer) id, Still p (abortThrough (fun _ _ => controlStopped) id p) := by
      intro p id
      rcases abortThrough_cases (fun _ _ => controlStopped) id p with heq | ⟨q, hpq, hqr⟩
      · rw [heq]
        exact .refl p
      · exact (hpq.trans (still_bufferedAmount q)).trans hqr
    have haborts := List.foldlRecOn (motive := Still p) p.channels
      (fun p id => abortThrough (fun _ _ => controlStopped) id p) hclosed
      fun q hq id _ => hq.trans (habort q id)
    refine haborts.trans ⟨rfl, rfl, ?_, .refl (fun _ => .refl) _⟩
    unfold MultiplexPeer.down
    generalize List.foldl _ _ _ = q
    cases hws : q.ws <;> simp only [hws] <;> rfl

def sendFrame (p : Peer) (f : Frame) : Peer :=
  { p with ws := p.ws.map fun w => { w with sent := w.sent ++ [f] } }

/-- A control frame is sent, unless the peer is stopped before that. -/
theorem control_cases (id : Nat) (text : String) (p : Peer) :
    ∃ q, Still p q ∧ (p.control id text = q ∨
      p.control id text = q.sendFrame (.text (address id text))) := by
  unfold control
  dsimp only
  have hread := still_bufferedAmount p
  generalize hq : (if p.bufferedAmount.1.any (MUX_SOCKET_BUFFER ≤ ·) then p.bufferedAmount.2.stop
    else p.bufferedAmount.2) = q
  have hstill : Still p q := by
    rw [← hq]
    split
    · exact hread.trans (still_stop _)
    · exact hread
  refine ⟨q, hstill, ?_⟩
  split
  · exact .inl rfl
  · exact .inr rfl

/-! ## Credit moves -/

/-- What holds of every peer the client talks to. -/
structure Good (p : Peer) : Prop where
  plain : ∀ id ch, p.heap.lookup id = some ch → ∀ text, .text text ∈ ch.queue → Plain text
  incoming : ∀ id, 0 ≤ p.incoming id
  known : ∀ id ch, p.heap.lookup id = some ch → id ≤ p.lastId
  lastId : p.lastId < 2 ^ 32
  acks : ∀ f ∈ p.down, ¬ f.BadAck

/-- The account of a channel's download, of which the relay is the sender. -/
def download (p : Peer) (id held grants : Nat) : Account :=
  ⟨p.available id, dataIn p.down id, held, grants⟩

/-- The account of a channel's upload, of which the relay is the receiver. -/
def upload (p : Peer) (id sender flight : Nat) : Account :=
  ⟨sender, flight, (p.incoming id).toNat, acksIn p.down id⟩

structure Serves (p q : Peer) : Prop where
  lastId : q.lastId = p.lastId
  refusals : q.refusals = p.refusals
  good : Good p → Good q
  download : Good p → ∀ id held grants,
    Run (p.download id held grants) (q.download id held grants)
  upload : Good p → ∀ id sender flight,
    Run (p.upload id sender flight) (q.upload id sender flight)

theorem Still.good (h : Still p q) (hp : Good p) : Good q where
  plain id ch hch text htext := by
    obtain ⟨ch', hch', hsim⟩ := h.objects.back hch
    exact hp.plain id ch' hch' text (hsim.texts text htext)
  incoming id := by rw [h.incoming_eq]; exact hp.incoming id
  known id ch hch := by
    obtain ⟨ch', hch', -⟩ := h.objects.back hch
    rw [h.lastId]
    exact hp.known id ch' hch'
  lastId := by rw [h.lastId]; exact hp.lastId
  acks := by rw [h.down]; exact hp.acks

theorem Still.serves (h : Still p q) : Serves p q where
  lastId := h.lastId
  refusals := h.refusals
  good := h.good
  download _ id held grants := by
    unfold MultiplexPeer.download
    rw [h.available_eq, h.down]
  upload _ id sender flight := by
    unfold MultiplexPeer.upload
    rw [h.incoming_eq, h.down]

namespace Serves

theorem refl (p : Peer) : Serves p p :=
  (Still.refl p).serves

theorem trans (h : Serves p q) (h' : Serves q r) : Serves p r where
  lastId := h'.lastId.trans h.lastId
  refusals := h'.refusals.trans h.refusals
  good hp := h'.good (h.good hp)
  download hp id held grants := (h.download hp id held grants).trans
    (h'.download (h.good hp) id held grants)
  upload hp id sender flight := (h.upload hp id sender flight).trans
    (h'.upload (h.good hp) id sender flight)

end Serves

/-! ### Sending -/

theorem down_sendFrame (p : Peer) (f : Frame) :
    (p.sendFrame f).down = p.down ∨ (p.sendFrame f).down = p.down ++ [f] := by
  unfold MultiplexPeer.down sendFrame
  cases p.ws with
  | none => exact .inl rfl
  | some w => exact .inr rfl

theorem good_sendFrame {f : Frame} (hf : ¬ f.BadAck) (hp : Good p) : Good (p.sendFrame f) :=
  { hp with
    acks g hg := by
      rcases down_sendFrame p f with hdown | hdown <;> rw [hdown] at hg
      · exact hp.acks g hg
      · rcases List.mem_append.1 hg with hg | hg
        · exact hp.acks g hg
        · rw [List.mem_singleton.1 hg]
          exact hf }

theorem dataIn_sendFrame_le (p : Peer) (f : Frame) (id : Nat) :
    dataIn (p.sendFrame f).down id ≤ dataIn p.down id + f.dataBytes id := by
  rcases down_sendFrame p f with hdown | hdown <;> rw [hdown]
  · exact Nat.le_add_right _ _
  · rw [dataIn_append]

theorem acksIn_sendFrame_le (p : Peer) (f : Frame) (id : Nat) :
    acksIn (p.sendFrame f).down id ≤ acksIn p.down id + f.ackBytes id := by
  rcases down_sendFrame p f with hdown | hdown <;> rw [hdown]
  · exact Nat.le_add_right _ _
  · rw [acksIn_append]

/-- A frame that carries neither data nor an acknowledgement. -/
theorem serves_sendFrame {f : Frame} (hdata : ∀ id, f.dataBytes id = 0)
    (hack : ∀ id, f.ackBytes id = 0) (hbad : ¬ f.BadAck) (p : Peer) : Serves p (p.sendFrame f) where
  lastId := rfl
  refusals := rfl
  good := good_sendFrame hbad
  download _ id held grants := by
    have hle := dataIn_sendFrame_le p f id
    rw [hdata id] at hle
    exact .single (.forget (Nat.le_refl _) hle (Nat.le_refl _) (Nat.le_refl _))
  upload _ id sender flight := by
    have hle := acksIn_sendFrame_le p f id
    rw [hack id] at hle
    exact .single (.forget (Nat.le_refl _) (Nat.le_refl _) (Nat.le_refl _) hle)

/-- What a control frame does to the peer, whether or not it is sent. -/
structure Controls (p q : Peer) (f : Frame) : Prop where
  lastId : q.lastId = p.lastId
  refusals : q.refusals = p.refusals
  available : ∀ id, q.available id = p.available id
  incoming : ∀ id, q.incoming id = p.incoming id
  data : ∀ id, dataIn q.down id ≤ dataIn p.down id + f.dataBytes id
  acks : ∀ id, acksIn q.down id ≤ acksIn p.down id + f.ackBytes id
  good : ¬ f.BadAck → Good p → Good q

theorem controls_control (id : Nat) (text : String) (p : Peer) :
    Controls p (p.control id text) (.text (address id text)) := by
  obtain ⟨q, hstill, heq | heq⟩ := control_cases id text p <;> rw [heq]
  · exact ⟨hstill.lastId, hstill.refusals, hstill.available_eq, hstill.incoming_eq,
      fun _ => hstill.down ▸ Nat.le_add_right _ _, fun _ => hstill.down ▸ Nat.le_add_right _ _,
      fun _ => hstill.good⟩
  · exact ⟨hstill.lastId, hstill.refusals, hstill.available_eq, hstill.incoming_eq,
      fun _ => hstill.down ▸ dataIn_sendFrame_le q _ _,
      fun _ => hstill.down ▸ acksIn_sendFrame_le q _ _,
      fun hbad hp => good_sendFrame hbad (hstill.good hp)⟩

variable {ch : Channel} {text : String}

theorem serves_control (hplain : Plain text) (id : Nat) (p : Peer) :
    Serves p (p.control id text) := by
  have hother := Frame.ackBytes_address_of_other hplain id
  have hc := controls_control id text p
  refine ⟨hc.lastId, hc.refusals, hc.good (hother id).2, fun _ id' held grants => ?_,
    fun _ id' sender flight => ?_⟩
  · exact .single (.forget (hc.available id').le (hc.data id') (Nat.le_refl _) (Nat.le_refl _))
  · have hacks := hc.acks id'
    rw [(hother id').1] at hacks
    exact .single (.forget (Nat.le_refl _) (Nat.le_refl _)
      (congrArg Int.toNat (hc.incoming id')).le hacks)

theorem serves_abort (id : Nat) (p : Peer) : Serves p (p.abort id) := by
  unfold abort
  rcases abortThrough_cases control id p with heq | ⟨q, hpq, hqr⟩
  · rw [heq]
    exact .refl p
  · exact (hpq.serves.trans (serves_control (by decide) id q)).trans hqr.serves

/-- A change of the object that its credit does not see. -/
theorem available_put_of_eq (hf : ∀ ch, (f ch).available = ch.available)
    (p : Peer) (id id' : Nat) : (p.put id f).available id' = p.available id' :=
  Table.elim_modify_of_eq hf p.heap id id'

theorem incoming_put_of_eq (hf : ∀ ch, (f ch).incoming = ch.incoming)
    (p : Peer) (id id' : Nat) : (p.put id f).incoming id' = p.incoming id' :=
  Table.elim_modify_of_eq hf p.heap id id'

section Put

variable (hch : p.heap.lookup id = some ch) (f : Channel → Channel)

include hch

theorem available_eq_of_lookup : p.available id = ch.available :=
  Table.elim_of_lookup hch

theorem incoming_eq_of_lookup : p.incoming id = ch.incoming :=
  Table.elim_of_lookup hch

theorem available_put (id' : Nat) :
    (p.put id f).available id' = if id' = id then (f ch).available else p.available id' :=
  Table.elim_modify hch id'

theorem incoming_put (id' : Nat) :
    (p.put id f).incoming id' = if id' = id then (f ch).incoming else p.incoming id' :=
  Table.elim_modify hch id'

theorem good_put (hp : Good p) (htexts : ∀ text, .text text ∈ (f ch).queue → Plain text)
    (hincoming : 0 ≤ (f ch).incoming) : Good (p.put id f) where
  plain := Table.forall_modify hch (fun id' ch' _ => hp.plain id' ch') htexts
  incoming id' := by
    rw [incoming_put hch]
    split
    · exact hincoming
    · exact hp.incoming id'
  known := Table.forall_modify hch (fun id' ch' _ => hp.known id' ch') (hp.known id ch hch)
  lastId := hp.lastId
  acks := hp.acks

end Put

/-- Bytes leave with the credit for them. -/
theorem serves_spend (hch : p.heap.lookup id = some ch) (bytes : List U8)
    (hlen : bytes.length ≤ ch.available) :
    Serves p ((p.binary id bytes).put id fun ch =>
      { ch with
        available := ch.available - bytes.length
        queued := ch.queued - bytes.length }) where
  lastId := rfl
  refusals := rfl
  good hp := good_put (p := p.binary id bytes) hch _
    (good_sendFrame (Frame.not_badAck_binary _) hp) (hp.plain id ch hch)
    (incoming_eq_of_lookup hch ▸ hp.incoming id)
  download hp id' held grants := by
    have hid : id < 2 ^ 32 := Nat.lt_of_le_of_lt (hp.known id ch hch) hp.lastId
    have hsent := dataIn_sendFrame_le p (.binary (encodeData id bytes)) id'
    have hbytes := Frame.dataBytes_encodeData hid id' bytes
    have hav := available_put (p := p.binary id bytes) hch (fun ch =>
      { ch with available := ch.available - bytes.length, queued := ch.queued - bytes.length }) id'
    by_cases h : id' = id
    · subst h
      rw [if_pos rfl] at hav hbytes
      have hself := available_eq_of_lookup hch
      refine .tail (.single (.send bytes.length (b := ⟨p.available id' - bytes.length,
        dataIn p.down id' + bytes.length, held, grants⟩) ?_ rfl rfl rfl)) (.forget ?_ ?_ ?_ ?_)
      · exact Nat.sub_add_cancel (hself ▸ hlen)
      · exact (hav.trans (by rw [hself])).le
      · exact hsent.trans (Nat.add_le_add_left hbytes _)
      · exact Nat.le_refl _
      · exact Nat.le_refl _
    · rw [if_neg h] at hav
      rw [if_neg (Ne.symm h)] at hbytes
      refine .single (.forget hav.le ?_ (Nat.le_refl _) (Nat.le_refl _))
      exact hsent.trans (Nat.add_le_add_left hbytes _)
  upload hp id' sender flight := by
    have hsent := acksIn_sendFrame_le p (.binary (encodeData id bytes)) id'
    have hsame := incoming_put_of_eq (f := fun ch => { ch with
      available := ch.available - bytes.length, queued := ch.queued - bytes.length })
      (fun _ => rfl) (p.binary id bytes) id id'
    exact .single (.forget (Nat.le_refl _) (Nat.le_refl _) (congrArg Int.toNat hsame).le hsent)

/-! ### The channel's output -/

theorem still_writable (p : Peer) : Still p p.writable.2 := by
  unfold writable
  split
  · exact .refl p
  · exact still_bufferedAmount p

theorem serves_sendHead (hch : p.heap.lookup id = some ch) {message : List U8} {count : Nat}
    (hcount : count ≤ message.length) (hav : count ≤ ch.available) :
    Serves p (p.sendHead id message count) := by
  have hlen : (message.take count).length = count := List.length_take_of_le hcount
  have hspend := serves_spend hch (message.take count) (hlen.trans_le hav)
  rw [hlen] at hspend
  -- What is left of the message takes its place in the queue, and is no text.
  have hqueue := fun p : Peer => still_put (p := p) id (f := fun ch =>
      { ch with
        queue := if count = message.length then ch.queue.tail
          else .binary (message.drop count) :: ch.queue.tail }) fun ch _ => by
    refine ⟨rfl, rfl, fun text htext => ?_⟩
    split at htext
    · exact List.mem_of_mem_tail htext
    · rcases List.mem_cons.1 htext with heq | htail
      · cases heq
      · exact List.mem_of_mem_tail htail
  exact hspend.trans ((still_release _ _).trans (hqueue _)).serves

/-- The invariant of the loop is `Good`: it makes the queued texts plain. -/
theorem serves_drainLoop (id fuel : Nat) (p : Peer) (hp : Good p) :
    Serves p (drainLoop id fuel p) := by
  induction fuel generalizing p with
  | zero => exact .refl p
  | succ fuel ih =>
    unfold drainLoop
    cases hch : p.heap.lookup id with
    | none => exact .refl p
    | some channel =>
      dsimp only
      cases hqueue : channel.queue with
      | nil => exact .refl p
      | cons message rest =>
        have hwritable := still_writable p
        rcases hw : p.writable with ⟨_ | _, q⟩ <;> rw [hw] at hwritable
        · exact hwritable.serves
        · cases message with
          | text text =>
            have hplain : Plain text :=
              hp.plain id channel hch text (by rw [hqueue]; exact List.mem_cons_self)
            have hsent := hwritable.serves.trans (serves_control hplain id q)
            have hshift := hsent.trans (still_put (p := q.control id text) id
              (f := fun ch => { ch with queue := ch.queue.tail })
              fun ch _ => ⟨rfl, rfl, fun _ h => List.mem_of_mem_tail h⟩).serves
            exact hshift.trans (ih _ (hshift.good hp))
          | binary bytes =>
            dsimp only
            split
            · exact hwritable.serves
            · obtain ⟨ch, hch', hsim⟩ := hwritable.objects.forth hch
              have hav : min bytes.length (min channel.available MUX_FRAME) ≤
                  ch.available := by
                rw [hsim.available]
                exact (Nat.min_le_right _ _).trans (Nat.min_le_left _ _)
              have hhead := hwritable.serves.trans
                (serves_sendHead hch' (Nat.min_le_left _ _) hav)
              exact hhead.trans (ih _ (hhead.good hp))

theorem still_tellPause (id : Nat) (p : Peer) : Still p (p.tellPause id) := by
  unfold tellPause
  split
  · exact .refl p
  · split
    · exact .refl p
    · split
      · exact still_call _ _
      · exact (still_writable p).trans (still_call _ _)

theorem serves_finishClose (id : Nat) (p : Peer) : Serves p (p.finishClose id) := by
  unfold finishClose
  split
  · exact .refl p
  · split
    · have hdead := fun p : Peer => still_put (p := p) id
        (f := fun ch => { ch with dead := true }) fun ch _ => ⟨rfl, rfl, fun _ h => h⟩
      exact (serves_control (by decide) id p).trans
        ((hdead _).trans (still_remove _ id)).serves
    · exact .refl p

theorem serves_drainChannel (id : Nat) (p : Peer) (hp : Good p) : Serves p (p.drainChannel id) := by
  unfold drainChannel
  split
  · exact .refl p
  · split
    · exact .refl p
    · exact ((serves_drainLoop id _ p hp).trans (still_tellPause id _).serves).trans
        (serves_finishClose id _)

theorem serves_drain (p : Peer) (hp : Good p) : Serves p p.drain := by
  refine List.foldlRecOn (motive := Serves p) _ _ (.refl p) fun q hq id _ => hq.trans ?_
  split
  · exact serves_drainChannel id q (hq.good hp)
  · exact .refl q

/-! ### What the relay does with a channel -/

theorem still_attach (id : Nat) (p : Peer) : Still p (p.attach id) :=
  still_put id fun _ _ => ⟨rfl, rfl, fun _ h => h⟩

theorem serves_close (id : Nat) (p : Peer) (hp : Good p) : Serves p (p.close id) := by
  have hclosing : Still p (p.put id fun ch => { ch with closing := true }) :=
    still_put id fun _ _ => ⟨rfl, rfl, fun _ h => h⟩
  exact hclosing.serves.trans (serves_drainChannel id _ (hclosing.good hp))

theorem serves_sendBinary (id : Nat) (bytes : List U8) (p : Peer) (hp : Good p) :
    Serves p (p.sendBinary id bytes) := by
  unfold sendBinary
  split
  · exact .refl p
  · split
    · exact .refl p
    · split
      · exact serves_abort id p
      · unfold reserve
        by_cases hfull : p.pendingBytes + bytes.length > MUX_SOCKET_BUFFER
        · rw [if_pos hfull]
          exact serves_abort id p
        · rw [if_neg hfull]
          have hreserve : Still p { p with pendingBytes := p.pendingBytes + bytes.length } :=
            .of_eq rfl rfl rfl rfl
          have hqueue := hreserve.trans (still_put id (f := fun ch =>
            { ch with
              queued := ch.queued + bytes.length
              queue := ch.queue ++ [.binary bytes] }) fun ch _ => by
              refine ⟨rfl, rfl, fun text htext => ?_⟩
              rcases List.mem_append.1 htext with h | h
              · exact h
              · cases List.mem_singleton.1 h)
          exact hqueue.serves.trans (serves_drainChannel id _ (hqueue.good hp))

theorem serves_queueText (hch : p.heap.lookup id = some ch) (hplain : Plain text) :
    Serves p (p.put id fun ch => { ch with queue := ch.queue ++ [.text text] }) where
  lastId := rfl
  refusals := rfl
  good hp := by
    refine good_put hch _ hp (fun text' htext => ?_) (incoming_eq_of_lookup hch ▸ hp.incoming id)
    rcases List.mem_append.1 htext with h | h
    · exact hp.plain id ch hch text' h
    · cases List.mem_singleton.1 h
      exact hplain
  download _ id' held grants := by
    refine .single (.forget (le_of_eq ?_) (Nat.le_refl _) (Nat.le_refl _) (Nat.le_refl _))
    exact available_put_of_eq (fun _ => by rfl) p id id'
  upload _ id' sender flight := by
    refine .single (.forget (Nat.le_refl _) (Nat.le_refl _) (le_of_eq ?_) (Nat.le_refl _))
    exact congrArg Int.toNat (incoming_put_of_eq (fun _ => by rfl) p id id')

theorem serves_sendText (hplain : Plain text) (id : Nat) (p : Peer) (hp : Good p) :
    Serves p (p.sendText id text) := by
  unfold sendText
  split
  · exact .refl p
  · next channel hch =>
    split
    · exact .refl p
    · split
      · exact serves_abort id p
      · have hqueue := serves_queueText hch hplain
        exact hqueue.trans (serves_drainChannel id _ (hqueue.good hp))

/-- What is passed on is acknowledged, unless the peer is stopped. -/
theorem serves_ack (hch : p.heap.lookup id = some ch) {bytes : Nat} (hpos : 0 < bytes)
    (hwindow : bytes ≤ MUX_WINDOW) (hheld : (bytes : Int) ≤ ch.incoming) :
    Serves p (p.ack id bytes) := by
  have hread := Frame.ackBytes_ack hpos hwindow id
  have hc := controls_control id s!"ACK {bytes}"
    (p.put id fun ch => { ch with incoming := ch.incoming - bytes })
  refine ⟨hc.lastId, hc.refusals, fun hp => hc.good (hread id).2 ?_, fun _ id' held grants => ?_,
    fun _ id' sender flight => ?_⟩
  · exact good_put hch _ hp (hp.plain id ch hch) (Int.sub_nonneg_of_le hheld)
  · refine .single (.forget (le_of_eq ?_) (hc.data id') (Nat.le_refl _) (Nat.le_refl _))
    exact (hc.available id').trans (available_put_of_eq (fun _ => by rfl) p id id')
  · have hacks := (hc.acks id').trans (Nat.add_le_add_left (hread id').1 _)
    have hin := (hc.incoming id').trans (incoming_put hch _ id')
    refine .tail (.single (.release (if id = id' then bytes else 0) (b := ⟨sender, flight,
      ((p.ack id bytes).incoming id').toNat, acksIn p.down id' + if id = id' then bytes else 0⟩)
      rfl rfl ?_ rfl)) (.forget (Nat.le_refl _) (Nat.le_refl _) (Nat.le_refl _) hacks)
    change ((p.ack id bytes).incoming id').toNat + _ = (p.incoming id').toNat
    rw [show (p.ack id bytes).incoming id' = _ from hin]
    by_cases h : id' = id
    · rw [if_pos h, if_pos h.symm, h, incoming_eq_of_lookup hch]
      dsimp only
      omega
    · rw [if_neg h, if_neg (Ne.symm h), Nat.add_zero]

end MultiplexPeer

end EmulateComputer
