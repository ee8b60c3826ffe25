import EmulateComputer.Relay.PeerAccounts

/-!
# ChannelOutput — what a channel writes to the wire

The wire carries the frames of all channels.  For one of them it is a stream of items, the texts
and the bytes in the frames with its number.  A channel's `Story` says what the relay handed to it
and the client granted it:

* `accepted` — the texts and bytes of the sends it took,
* `granted` — the credit of the client's `WINDOW` commands,
* `aborted` — whether it was told to give up what it still had to write.

`Writes` relates an object, its stream and its story: while the channel lives, the stream and the
queue make up what was accepted; afterwards the stream is a first part of that and at most one
`CLOSE`.  `Sound` is the same of a peer, with its account of the bytes in all queues.
-/

namespace EmulateComputer

open Mux

namespace MultiplexPeer

inductive Item
  | text (text : List Char)
  | byte (byte : U8)
  deriving DecidableEq

def Item.close : Item :=
  .text "CLOSE".toList

/-- A text as a part of a stream, which the `ACK` lines run beside. -/
def textItem (text : List Char) : List Item :=
  if (Text.stripPrefix "ACK " text).isSome then [] else [.text text]

/-- The part of a frame that is for one channel: a text starts with the channel's number and a
space, data with the number as a word. -/
def itemsOn (id : Nat) : Frame → List Item
  | .text line => (Text.stripPrefix (address id "") line.toList).elim [] textItem
  | .binary bytes =>
    if (Bytes.ofBE 32 (bytes.take 4)).toNat = id then (bytes.drop 4).map .byte else []

def stream (id : Nat) (frames : List Frame) : List Item :=
  frames.flatMap (itemsOn id)

def payload : Frame → Nat
  | .text _ => 0
  | .binary bytes => bytes.length - 4

def items : Frame → List Item
  | .text text => textItem text.toList
  | .binary bytes => bytes.map .byte

def isByte : Item → Bool
  | .byte _ => true
  | .text _ => false

def byteCount (items : List Item) : Nat :=
  items.countP isByte

def binaryBytes (queue : List Frame) : Nat :=
  (queue.map fun
    | .text _ => 0
    | .binary bytes => bytes.length).sum

/-! ## Frames and their channels -/

theorem toDigits_injective {m n : Nat} (h : Nat.toDigits 10 m = Nat.toDigits 10 n) : m = n := by
  have hm := Nat.ofDigitChars_ten_toDigits (n := m)
  rw [h, Nat.ofDigitChars_ten_toDigits] at hm
  exact hm.symm

/-- A text is for the channel it is addressed to, and no other. -/
theorem itemsOn_address (id id' : Nat) (text : String) :
    itemsOn id' (.text (address id text)) = if id' = id then textItem text.toList else [] := by
  have hstart := toList_address id' ""
  unfold itemsOn
  dsimp only
  by_cases hid : id' = id
  · have hstrip : Text.stripPrefix (address id' "") (address id text).toList =
        some text.toList := by
      rw [Text.stripPrefix_eq_some_iff, hstart, toList_address, hid, List.append_assoc]
      rfl
    rw [hstrip, if_pos hid]
    rfl
  · have hstrip : Text.stripPrefix (address id' "") (address id text).toList = none := by
      rw [Option.eq_none_iff_forall_ne_some]
      intro rest hrest
      rw [Text.stripPrefix_eq_some_iff, hstart, toList_address, List.append_assoc] at hrest
      -- The digits before the first space are those of both numbers.
      have hdigits := congrArg (List.takeWhile Char.isDigit) hrest
      rw [List.cons_append, Decimal.takeWhile_toDigits (fun _ h => h) (by decide),
        Decimal.takeWhile_toDigits (fun _ h => h) (by decide)] at hdigits
      exact hid (toDigits_injective hdigits).symm
    rw [hstrip, if_neg hid]
    rfl

theorem itemsOn_encodeData {id : Nat} (hid : id < 2 ^ 32) (id' : Nat) (data : List U8) :
    itemsOn id' (.binary (encodeData id data)) = if id' = id then data.map .byte else [] := by
  obtain ⟨hword, htail⟩ := split_encodeData hid data
  unfold itemsOn
  dsimp only
  rw [htail, hword]
  by_cases h : id' = id
  · rw [if_pos h, if_pos h.symm]
  · rw [if_neg h, if_neg (Ne.symm h)]

theorem itemsOn_pong (id : Nat) : itemsOn id (.text "PONG") = [] := by
  have hstart := toList_address id ""
  have hstrip : Text.stripPrefix (address id "") "PONG".toList = none := by
    rw [Option.eq_none_iff_forall_ne_some]
    intro rest hrest
    rw [Text.stripPrefix_eq_some_iff, hstart, List.append_assoc] at hrest
    -- There is no space in the text.
    have hspace : ' ' ∈ "PONG".toList := by
      rw [hrest]
      simp
    exact absurd hspace (by decide)
  unfold itemsOn
  dsimp only
  rw [hstrip]
  rfl

@[simp] theorem stream_append (id : Nat) (frames : List Frame) (f : Frame) :
    stream id (frames ++ [f]) = stream id frames ++ itemsOn id f := by
  simp [stream]

@[simp] theorem byteCount_append (a b : List Item) :
    byteCount (a ++ b) = byteCount a + byteCount b :=
  List.countP_append

@[simp] theorem byteCount_bytes (bytes : List U8) : byteCount (bytes.map .byte) = bytes.length := by
  unfold byteCount
  rw [List.countP_map]
  exact List.countP_eq_length.2 fun _ _ => rfl

@[simp] theorem byteCount_textItem (text : List Char) : byteCount (textItem text) = 0 := by
  unfold textItem
  split <;> rfl

/-! ## Stories -/

structure Story where
  accepted : List Item := []
  granted : Nat := 0
  aborted : Bool := false

/-- A first part of what was accepted, then perhaps one `CLOSE`, then nothing; without an abort the
`CLOSE` comes after everything accepted. -/
def InOrder (stream : List Item) (story : Story) : Prop :=
  ∃ written ending, stream = written ++ ending ∧ written <+: story.accepted ∧
    (ending = [] ∨ ending = [.close] ∧ (story.aborted = false → written = story.accepted))

structure Writes (ch : Channel) (stream : List Item) (story : Story) : Prop where
  available : ch.available ≤ MUX_WINDOW
  queued : ch.queued = binaryBytes ch.queue
  emptied : ch.dead = true → ch.queue = []
  credit : ch.available + byteCount stream = MUX_WINDOW + story.granted
  live : ch.dead = false → stream ++ ch.queue.flatMap items = story.accepted
  ended : ch.dead = true → InOrder stream story

/-- A channel that gives up what it still had to write. -/
def Channel.killed (ch : Channel) : Channel :=
  { ch with dead := true, queue := [], queued := 0 }

namespace Writes

variable {ch : Channel} {stream : List Item} {story : Story}

/-- What is to be shown of a channel that lives. -/
theorem of_live (hlive : ch.dead = false) (available : ch.available ≤ MUX_WINDOW)
    (queued : ch.queued = binaryBytes ch.queue)
    (credit : ch.available + byteCount stream = MUX_WINDOW + story.granted)
    (live : stream ++ ch.queue.flatMap items = story.accepted) : Writes ch stream story :=
  ⟨available, queued, fun hdead => absurd (hdead.symm.trans hlive) nofun, credit, fun _ => live,
    fun hdead => absurd (hdead.symm.trans hlive) nofun⟩

theorem new : Writes {} [] {} where
  available := Nat.le_refl _
  queued := rfl
  emptied _ := rfl
  credit := rfl
  live _ := rfl
  ended := nofun

section

variable (h : Writes ch stream story)

include h

theorem killed (hlive : ch.dead = false) : Writes ch.killed stream story :=
  { h with
    queued := rfl
    emptied _ := rfl
    live := nofun
    ended _ := by
      refine ⟨stream, [], (List.append_nil _).symm, ?_, Or.inl rfl⟩
      rw [← h.live hlive]
      exact List.prefix_append _ _ }

/-- A `CLOSE` after part of what was accepted, or after all of it. -/
theorem closed (hlive : ch.dead = false) (hall : story.aborted = false → ch.queue = []) :
    Writes ch.killed (stream ++ [.close]) story where
  available := h.available
  queued := rfl
  emptied _ := rfl
  credit := by
    rw [byteCount_append]
    exact h.credit
  live := nofun
  ended _ := by
    have haccepted := h.live hlive
    refine ⟨stream, [.close], rfl, ?_, Or.inr ⟨rfl, fun hkept => ?_⟩⟩
    · rw [← haccepted]
      exact List.prefix_append _ _
    · rw [hall hkept] at haccepted
      rw [← haccepted]
      exact (List.append_nil _).symm

/-- The fields that are not about output do not matter. -/
theorem of_eq {ch' : Channel} (havailable : ch'.available = ch.available)
    (hqueued : ch'.queued = ch.queued) (hqueue : ch'.queue = ch.queue)
    (hdead : ch'.dead = ch.dead) : Writes ch' stream story where
  available := by rw [havailable]; exact h.available
  queued := by rw [hqueued, hqueue]; exact h.queued
  emptied := by rw [hdead, hqueue]; exact h.emptied
  credit := by rw [havailable]; exact h.credit
  live := by rw [hdead, hqueue]; exact h.live
  ended := by rw [hdead]; exact h.ended

/-- An abort only takes back a promise. -/
theorem mark : Writes ch stream { story with aborted := true } :=
  { h with
    ended hdead := by
      obtain ⟨written, ending, hstream, hwritten, hending⟩ := h.ended hdead
      refine ⟨written, ending, hstream, hwritten, ?_⟩
      rcases hending with hnil | ⟨hclose, -⟩
      · exact Or.inl hnil
      · exact Or.inr ⟨hclose, nofun⟩ }

end

end Writes

/-! ## Peers -/

structure Sound (p : Peer) (stories : Nat → Story) : Prop where
  channel : ∀ id ch, p.heap.lookup id = some ch → Writes ch (stream id p.down) (stories id)
  pending : p.pendingBytes = (Table.total (fun ch => binaryBytes ch.queue) p.heap : Nat)
  bound : p.pendingBytes ≤ MUX_SOCKET_BUFFER
  known : ∀ id ch, p.heap.lookup id = some ch → id ≤ p.lastId
  lastId : p.lastId < 2 ^ 32
  fresh : ∀ id, p.lastId < id → stream id p.down = [] ∧ stories id = {}
  listed : ∀ id ch, p.heap.lookup id = some ch → ch.dead = false → id ∈ p.channels
  nodup : p.channels.Nodup
  members : ∀ id ∈ p.channels, id ≤ p.lastId
  frames : ∀ f ∈ p.down, payload f ≤ MUX_FRAME

/-- The channel does not live, if there is one. -/
def Dead (p : Peer) (id : Nat) : Prop :=
  ∀ ch, p.heap.lookup id = some ch → ch.dead = true

/-- A stopped peer has no channel that lives. -/
def Stopped (p : Peer) : Prop :=
  p.closed = true → ∀ id ch, p.heap.lookup id = some ch → ch.dead = true

/-- What holds of a peer between its operations. -/
structure Healthy (p : Peer) (stories : Nat → Story) : Prop extends Sound p stories where
  stopped : Stopped p

/-- The peers are the same but for what the socket shows next and the relay's calls. -/
structure Same (p q : Peer) : Prop where
  heap : q.heap = p.heap
  channels : q.channels = p.channels
  lastId : q.lastId = p.lastId
  pendingBytes : q.pendingBytes = p.pendingBytes
  closed : q.closed = p.closed
  down : q.down = p.down
  socket : q.ws.isSome = p.ws.isSome

theorem Same.refl (p : Peer) : Same p p :=
  ⟨rfl, rfl, rfl, rfl, rfl, rfl, rfl⟩

theorem Same.trans {p q r : Peer} (h : Same p q) (h' : Same q r) : Same p r :=
  ⟨h'.heap.trans h.heap, h'.channels.trans h.channels, h'.lastId.trans h.lastId,
    h'.pendingBytes.trans h.pendingBytes, h'.closed.trans h.closed, h'.down.trans h.down,
    h'.socket.trans h.socket⟩

variable {p q : Peer} {stories : Nat → Story} {id : Nat} {ch : Channel}

theorem Sound.same (h : Sound p stories) (hsame : Same p q) : Sound q stories where
  channel := by rw [hsame.heap, hsame.down]; exact h.channel
  pending := by rw [hsame.heap, hsame.pendingBytes]; exact h.pending
  bound := by rw [hsame.pendingBytes]; exact h.bound
  known := by rw [hsame.heap, hsame.lastId]; exact h.known
  lastId := by rw [hsame.lastId]; exact h.lastId
  fresh := by rw [hsame.lastId, hsame.down]; exact h.fresh
  listed := by rw [hsame.heap, hsame.channels]; exact h.listed
  nodup := by rw [hsame.channels]; exact h.nodup
  members := by rw [hsame.channels, hsame.lastId]; exact h.members
  frames := by rw [hsame.down]; exact h.frames

theorem Stopped.same (h : Stopped p) (hsame : Same p q) : Stopped q := by
  unfold Stopped
  rw [hsame.closed, hsame.heap]
  exact h

theorem Healthy.same (h : Healthy p stories) (hsame : Same p q) : Healthy q stories :=
  ⟨h.toSound.same hsame, h.stopped.same hsame⟩

theorem Dead.same (h : Dead p id) (hheap : q.heap = p.heap) : Dead q id := by
  unfold Dead
  rw [hheap]
  exact h

theorem stopped_of_open (hopen : p.closed = false) : Stopped p :=
  fun hclosed => absurd (hclosed.symm.trans hopen) nofun

theorem same_call (p : Peer) (hook : HookCall) : Same p (p.call hook) :=
  ⟨rfl, rfl, rfl, rfl, rfl, rfl, rfl⟩

theorem same_refuse (p : Peer) (refusal : MuxRefusal) : Same p (p.refuse refusal) :=
  ⟨rfl, rfl, rfl, rfl, rfl, rfl, rfl⟩

theorem same_bufferedAmount (p : Peer) : Same p p.bufferedAmount.2 := by
  unfold bufferedAmount
  cases hws : p.ws with
  | none => exact .refl p
  | some w =>
    refine ⟨rfl, rfl, rfl, rfl, rfl, ?_, ?_⟩
    · unfold MultiplexPeer.down
      rw [hws]
      rfl
    · rw [hws]
      rfl

/-- The effect of one operation on one channel: its object becomes `f ch`, the wire gets some
`frames` with its items and none of the others', and its story goes on. -/
structure Updates (p q : Peer) (id : Nat) (f : Channel → Channel) (frames : List Frame) : Prop where
  heap : q.heap = p.heap.modify id f
  lastId : q.lastId = p.lastId
  down : q.down = p.down ++ frames
  others : ∀ id', id' ≠ id → stream id' frames = []
  payloads : ∀ g ∈ frames, payload g ≤ MUX_FRAME

variable {f : Channel → Channel} {stories' : Nat → Story}

theorem Sound.update {frames : List Frame} (h : Sound p stories) (hch : p.heap.lookup id = some ch)
    (hup : Updates p q id f frames) (hchannels : q.channels = p.channels)
    (hpending : q.pendingBytes = p.pendingBytes - binaryBytes ch.queue + binaryBytes (f ch).queue)
    (hbound : q.pendingBytes ≤ MUX_SOCKET_BUFFER)
    (hothers : ∀ id', id' ≠ id → stories' id' = stories id')
    (hlive : (f ch).dead = false → ch.dead = false)
    (hwrites : Writes (f ch) (stream id p.down ++ stream id frames) (stories' id)) :
    Sound q stories' := by
  have hall : ∀ {P : Nat → Channel → Prop},
      (∀ id' ch', id' ≠ id → p.heap.lookup id' = some ch' → P id' ch') → P id (f ch) →
        ∀ id' ch', q.heap.lookup id' = some ch' → P id' ch' := by
    rw [hup.heap]
    exact Table.forall_modify hch
  have hstream : ∀ id', stream id' q.down = stream id' p.down ++ stream id' frames := by
    intro id'
    rw [hup.down]
    exact List.flatMap_append
  refine ⟨hall (fun id' ch' hne hch' => ?_) ?_, ?_, hbound, ?_, ?_, fun id' hid' => ?_, ?_, ?_, ?_,
    fun g hg => ?_⟩
  · rw [hstream, hup.others id' hne, List.append_nil, hothers id' hne]
    exact h.channel id' ch' hch'
  · rw [hstream]
    exact hwrites
  · have htotal := Table.total_modify (g := f) (fun ch : Channel => binaryBytes ch.queue) hch
    rw [hup.heap, hpending, h.pending]
    omega
  · rw [hup.lastId]
    exact hall (fun id' ch' _ => h.known id' ch') (h.known id ch hch)
  · rw [hup.lastId]
    exact h.lastId
  · rw [hup.lastId] at hid'
    have hne : id' ≠ id := fun heq =>
      absurd (h.known id ch hch) (Nat.not_le_of_lt (heq ▸ hid'))
    rw [hstream, hup.others id' hne, List.append_nil, hothers id' hne]
    exact h.fresh id' hid'
  · rw [hchannels]
    exact hall (fun id' ch' _ => h.listed id' ch') fun hlive' => h.listed id ch hch (hlive hlive')
  · rw [hchannels]
    exact h.nodup
  · rw [hchannels, hup.lastId]
    exact h.members
  · rw [hup.down] at hg
    rcases List.mem_append.1 hg with hg | hg
    · exact h.frames g hg
    · exact hup.payloads g hg

/-- An operation on one channel that writes nothing. -/
theorem Sound.amend {n : Int} (h : Sound p stories) (hch : p.heap.lookup id = some ch)
    (hpending : n = p.pendingBytes - binaryBytes ch.queue + binaryBytes (f ch).queue)
    (hbound : n ≤ MUX_SOCKET_BUFFER) (hothers : ∀ id', id' ≠ id → stories' id' = stories id')
    (hlive : (f ch).dead = false → ch.dead = false)
    (hwrites : Writes (f ch) (stream id p.down) (stories' id)) :
    Sound { p with heap := p.heap.modify id f, pendingBytes := n } stories' := by
  refine h.update hch
    ⟨rfl, rfl, (List.append_nil _).symm, fun _ _ => rfl, nofun⟩ rfl hpending hbound
    hothers hlive ?_
  change Writes _ (_ ++ []) _
  rw [List.append_nil]
  exact hwrites

/-- An object, if there is one, changes in ways that are not about output. -/
theorem Sound.put (h : Sound p stories) (hf : ∀ ch, p.heap.lookup id = some ch →
      (f ch).available = ch.available ∧ (f ch).queued = ch.queued ∧ (f ch).queue = ch.queue ∧
        (f ch).dead = ch.dead) :
    Sound (p.put id f) stories := by
  cases hch : p.heap.lookup id with
  | none =>
    unfold MultiplexPeer.put
    rw [Table.modify_of_lookup_eq_none hch]
    exact h
  | some ch =>
    obtain ⟨havailable, hqueued, hqueue, hdead⟩ := hf ch hch
    refine h.amend hch ?_ h.bound (fun _ _ => rfl) (fun hlive => hdead.symm.trans hlive) ?_
    · rw [hqueue]
      omega
    · exact (h.channel id ch hch).of_eq havailable hqueued hqueue hdead

theorem Stopped.put (h : Stopped p)
    (hdead : ∀ ch, p.heap.lookup id = some ch → ch.dead = true → (f ch).dead = true) :
    Stopped (p.put id f) := by
  intro hclosed id' ch' hch'
  change (p.heap.modify id f).lookup id' = some ch' at hch'
  rw [Table.lookup_modify] at hch'
  split at hch'
  · next heq =>
    obtain ⟨ch, hch, rfl⟩ := Option.map_eq_some_iff.1 hch'
    rw [heq] at hch
    exact hdead ch hch (h hclosed id ch hch)
  · exact h hclosed id' ch' hch'

theorem dead_put (hf : ∀ ch, (f ch).dead = true) : Dead (p.put id f) id := by
  intro ch hch
  change (p.heap.modify id f).lookup id = some ch at hch
  rw [Table.lookup_modify, if_pos rfl] at hch
  obtain ⟨ch, -, rfl⟩ := Option.map_eq_some_iff.1 hch
  exact hf ch

theorem Sound.remove (h : Sound p stories) (hdead : Dead p id) : Sound (p.remove id) stories :=
  { h with
    listed id' ch hch hlive := by
      have hne : id' ≠ id := by
        rintro rfl
        have hboth := (hdead ch hch).symm.trans hlive
        cases hboth
      exact (List.mem_erase_of_ne hne).2 (h.listed id' ch hch hlive)
    nodup := h.nodup.erase id
    members id' hid' := h.members id' (List.mem_of_mem_erase hid') }

theorem Healthy.remove (h : Healthy p stories) (hdead : Dead p id) :
    Healthy (p.remove id) stories :=
  ⟨h.toSound.remove hdead, h.stopped⟩

theorem Sound.mark (h : Sound p stories) (id : Nat) (hid : id ≤ p.lastId) :
    Sound p fun id' => if id' = id then { stories id' with aborted := true } else stories id' :=
  { h with
    channel id' ch hch := by
      split
      · exact (h.channel id' ch hch).mark
      · exact h.channel id' ch hch
    fresh id' hid' := by
      have hne : id' ≠ id := fun heq => absurd hid (Nat.not_le_of_lt (heq ▸ hid'))
      rw [if_neg hne]
      exact h.fresh id' hid' }

/-! ## Closing down -/

/-- The part of an abort before its control frame. -/
def kill (id : Nat) (ch : Channel) (p : Peer) : Peer :=
  { p with heap := p.heap.modify id Channel.killed, pendingBytes := p.pendingBytes - ch.queued }

/-- An abort leaves a channel that is over as it is, and closes one that lives. -/
theorem abortThrough_kills (control : Nat → String → Peer → Peer) (id : Nat) (p : Peer) :
    (abortThrough control id p = p ∧ Dead p id) ∨
      ∃ ch, p.heap.lookup id = some ch ∧ ch.dead = false ∧
        Same ((control id "CLOSE" (p.kill id ch)).remove id) (abortThrough control id p) := by
  unfold abortThrough Dead
  cases hch : p.heap.lookup id with
  | none => exact .inl ⟨rfl, nofun⟩
  | some ch =>
    dsimp only
    have hkill : ((p.put id fun ch => { ch with dead := true }).release ch.queued).put id
        (fun ch => { ch with queued := 0, queue := [] }) = p.kill id ch := by
      unfold kill MultiplexPeer.put release
      rw [Table.modify_modify]
      rfl
    rw [hkill]
    split
    · next hdead =>
      refine .inl ⟨rfl, fun ch' hch' => ?_⟩
      cases hch'
      exact hdead
    · next hlive =>
      refine .inr ⟨ch, rfl, by simpa using hlive, ?_⟩
      split
      · exact same_call _ _
      · exact .refl _

/-- The channel is over, and the others stay over. -/
theorem dead_kill (hch : p.heap.lookup id = some ch) {id' : Nat} (hd : id' = id ∨ Dead p id') :
    Dead (p.kill id ch) id' := fun ch' hch' =>
  Table.forall_modify (f := Channel.killed) (P := fun id' ch' => id' = id ∨ Dead p id' → ch'.dead)
    hch (fun _ ch' hne hch' hd => hd.resolve_left hne ch' hch') (fun _ => rfl) id' ch' hch' hd

theorem sound_kill (h : Sound p stories) (hch : p.heap.lookup id = some ch)
    (hlive : ch.dead = false) : Sound (p.kill id ch) stories := by
  have hwrites := h.channel id ch hch
  have hpending : (p.kill id ch).pendingBytes = p.pendingBytes - binaryBytes ch.queue := by
    unfold kill
    rw [hwrites.queued]
  refine h.amend (f := Channel.killed) hch ?_ ?_ (fun _ _ => rfl) (fun _ => hlive) ?_
  · exact hpending.trans (Int.add_zero _).symm
  · have hbound := h.bound
    change (p.kill id ch).pendingBytes ≤ _
    omega
  · exact hwrites.killed hlive

/-- What stopping one channel of a stopped peer does: nothing is written. -/
structure Silences (p q : Peer) (id : Nat) : Prop where
  dead : Dead q id
  kept : ∀ id', Dead p id' → Dead q id'
  closed : q.closed = p.closed
  down : q.down = p.down
  socket : q.ws.isSome = p.ws.isSome

theorem silences_abort (p : Peer) (id : Nat) :
    Silences p (abortThrough (fun _ _ => controlStopped) id p) id := by
  rcases abortThrough_kills (fun _ _ => controlStopped) id p with
    ⟨heq, hdead⟩ | ⟨ch, hch, -, hsame⟩
  · rw [heq]
    exact ⟨hdead, fun _ hd => hd, rfl, rfl, rfl⟩
  · have hread := same_bufferedAmount (p.kill id ch)
    have hheap := hsame.heap.trans hread.heap
    exact ⟨(dead_kill hch (.inl rfl)).same hheap, fun _ hd => (dead_kill hch (.inr hd)).same hheap,
      hsame.closed.trans hread.closed, hsame.down.trans hread.down,
      hsame.socket.trans hread.socket⟩

theorem sound_abortStopped (h : Sound p stories) (id : Nat) :
    Sound (abortThrough (fun _ _ => controlStopped) id p) stories := by
  rcases abortThrough_kills (fun _ _ => controlStopped) id p with
    ⟨heq, -⟩ | ⟨ch, hch, hlive, hsame⟩
  · rw [heq]
    exact h
  · have hread := same_bufferedAmount (p.kill id ch)
    have hremoved := ((sound_kill h hch hlive).same hread).remove
      ((dead_kill hch (.inl rfl)).same hread.heap)
    exact hremoved.same hsame

/-- What stopping the peer does. -/
structure Stops (p q : Peer) : Prop where
  dead : ∀ id, Dead q id
  closed : q.closed = true
  down : q.down = p.down

theorem Stops.stopped (h : Stops p q) : Stopped q :=
  fun _ => h.dead

theorem stops_stop (h : Healthy p stories) : Healthy p.stop stories ∧ Stops p p.stop := by
  unfold stop
  split
  · next hclosed => exact ⟨h, h.stopped hclosed, hclosed, rfl⟩
  · -- Along the loop: every channel passed is dead, and the dead stay dead.
    have hloop : ∀ (ids : List Nat) (q : Peer), Sound q stories →
        let r := ids.foldl (fun p id => abortThrough (fun _ _ => controlStopped) id p) q
        Sound r stories ∧ (∀ id ∈ ids, Dead r id) ∧ (∀ id, Dead q id → Dead r id) ∧
          r.closed = q.closed ∧ r.down = q.down := by
      intro ids
      induction ids with
      | nil => exact fun q hq => ⟨hq, nofun, fun _ hd => hd, rfl, rfl⟩
      | cons id ids ih =>
        intro q hq
        have hstep := silences_abort q id
        obtain ⟨hsound, hpassed, hkept, hclosed, hdown⟩ := ih _ (sound_abortStopped hq id)
        refine ⟨hsound, ?_, fun id' hd => hkept id' (hstep.kept id' hd),
          hclosed.trans hstep.closed, hdown.trans hstep.down⟩
        intro id' hid'
        rcases List.mem_cons.1 hid' with rfl | hid'
        · exact hkept _ hstep.dead
        · exact hpassed id' hid'
    have hclosing : Sound { p with closed := true } stories :=
      ⟨h.channel, h.pending, h.bound, h.known, h.lastId, h.fresh, h.listed, h.nodup, h.members,
        h.frames⟩
    obtain ⟨hsound, hpassed, hkept, hclosed, hdown⟩ :=
      hloop p.channels { p with closed := true } hclosing
    generalize p.channels.foldl (fun p id => abortThrough (fun _ _ => controlStopped) id p)
      { p with closed := true } = r at *
    have hws : Same r { r with ws := r.ws.map WireSocket.close } := by
      refine ⟨rfl, rfl, rfl, rfl, rfl, ?_, ?_⟩
      · unfold MultiplexPeer.down
        cases r.ws <;> rfl
      · cases r.ws <;> rfl
    have hdead : ∀ id, Dead r id := by
      intro id
      by_cases hid : id ∈ p.channels
      · exact hpassed id hid
      · refine hkept id fun ch hch => ?_
        cases hdead : ch.dead with
        | true => rfl
        | false => exact absurd (h.listed id ch hch hdead) hid
    have hstops : Stops p { r with ws := r.ws.map WireSocket.close } :=
      ⟨hdead, hclosed, hws.down.trans hdown⟩
    exact ⟨⟨hsound.same hws, hstops.stopped⟩, hstops⟩

/-- A control frame is sent as it is, or the peer is stopped and nothing is. -/
theorem control_sends_or_stops (h : Healthy p stories) (id : Nat) (text : String) :
    (Healthy (p.control id text) stories ∧ Stops p (p.control id text)) ∨
      ∃ q, Same p q ∧ q.closed = false ∧
        p.control id text = q.sendFrame (.text (address id text)) := by
  have hread := same_bufferedAmount p
  unfold control
  dsimp only
  by_cases hfull : p.bufferedAmount.1.any (MUX_SOCKET_BUFFER ≤ ·) = true
  · left
    rw [if_pos hfull]
    obtain ⟨hhealthy, hstops⟩ := stops_stop (h.same hread)
    rw [if_pos hstops.closed]
    exact ⟨hhealthy, hstops.dead, hstops.closed, hstops.down.trans hread.down⟩
  · rw [if_neg hfull]
    by_cases hclosed : p.bufferedAmount.2.closed = true
    · left
      rw [if_pos hclosed]
      exact ⟨h.same hread, (h.same hread).stopped hclosed, hclosed, hread.down⟩
    · right
      rw [if_neg hclosed]
      exact ⟨_, hread, by simpa using hclosed, rfl⟩

theorem down_sendFrame_of_socket (hws : p.ws.isSome = true) (f : Frame) :
    (p.sendFrame f).down = p.down ++ [f] := by
  unfold MultiplexPeer.down sendFrame
  cases hsome : p.ws with
  | none => rw [hsome] at hws; cases hws
  | some w => rfl

theorem stream_close (id : Nat) : stream id [.text (address id "CLOSE")] = [.close] := by
  unfold stream
  rw [List.flatMap_singleton, itemsOn_address, if_pos rfl]
  rfl

theorem stream_text_other {id' : Nat} (hne : id' ≠ id) (text : String) :
    stream id' [.text (address id text)] = [] := by
  unfold stream
  rw [List.flatMap_singleton, itemsOn_address, if_neg hne]

/-- The channel gives up its queue and its `CLOSE` goes out, if there is a socket. -/
theorem sound_sendClose (h : Sound p stories) (hch : p.heap.lookup id = some ch)
    (hlive : ch.dead = false) (hall : (stories id).aborted = false → ch.queue = [])
    (hf : f ch = ch.killed) (hheap : q.heap = p.heap.modify id f) (hlast : q.lastId = p.lastId)
    (hchannels : q.channels = p.channels)
    (hpending : q.pendingBytes = p.pendingBytes - binaryBytes ch.queue)
    (hdown : q.down = p.down) : Sound (q.sendFrame (.text (address id "CLOSE"))) stories := by
  have hwrites := h.channel id ch hch
  have hpending' : q.pendingBytes =
      p.pendingBytes - binaryBytes ch.queue + binaryBytes (f ch).queue := by
    rw [hpending, hf]
    exact (Int.add_zero _).symm
  have hbound : q.pendingBytes ≤ MUX_SOCKET_BUFFER := by
    have := h.bound
    omega
  rcases down_sendFrame q (.text (address id "CLOSE")) with hsent | hsent <;> rw [hdown] at hsent
  · refine h.update hch
      ⟨hheap, hlast, hsent.trans (List.append_nil _).symm, fun _ _ => rfl, nofun⟩ hchannels
      hpending' hbound (fun _ _ => rfl) (fun _ => hlive) ?_
    rw [hf]
    change Writes _ (_ ++ []) _
    rw [List.append_nil]
    exact hwrites.killed hlive
  · refine h.update hch ⟨hheap, hlast, hsent, fun id' hne => stream_text_other hne _, ?_⟩ hchannels
      hpending' hbound (fun _ _ => rfl) (fun _ => hlive) ?_
    · intro g hg
      rw [List.mem_singleton.1 hg]
      exact Nat.zero_le _
    · rw [hf, stream_close]
      exact hwrites.closed hlive hall

theorem healthy_abort (h : Healthy p stories) (id : Nat)
    (haborted : (stories id).aborted = true) : Healthy (p.abort id) stories := by
  unfold abort
  rcases abortThrough_kills control id p with ⟨heq, -⟩ | ⟨ch, hch, hlive, hsame⟩
  · rw [heq]
    exact h
  · have hkilled : Healthy (p.kill id ch) stories :=
      ⟨sound_kill h.toSound hch hlive, fun hclosed _ => dead_kill hch (.inr (h.stopped hclosed _))⟩
    have hdone : Healthy (control id "CLOSE" (p.kill id ch)) stories ∧
        Dead (control id "CLOSE" (p.kill id ch)) id := by
      rcases control_sends_or_stops hkilled id "CLOSE" with
        ⟨hhealthy, hstops⟩ | ⟨q, hread, hopen, heq⟩
      · exact ⟨hhealthy, hstops.dead id⟩
      · rw [heq]
        have hqueued : (p.kill id ch).pendingBytes = p.pendingBytes - binaryBytes ch.queue := by
          unfold kill
          rw [(h.channel id ch hch).queued]
        have hall : (stories id).aborted = false → ch.queue = [] := fun hkept =>
          absurd (haborted.symm.trans hkept) nofun
        have hsound := sound_sendClose h.toSound hch hlive hall rfl hread.heap hread.lastId
          hread.channels (hread.pendingBytes.trans hqueued) hread.down
        exact ⟨⟨hsound, stopped_of_open hopen⟩, (dead_kill hch (.inl rfl)).same hread.heap⟩
    exact (hdone.1.remove hdone.2).same hsame

end MultiplexPeer

end EmulateComputer
