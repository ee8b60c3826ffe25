import Mathlib.Algebra.BigOperators.Ring.Finset
import EmulateComputer.Relay.ChannelOutput

/-!
# OutputRuns — the output of a peer over whole runs

Every operation of the peer keeps it `Healthy`, with the stories brought up to date by what the
operation accepts, grants or aborts (`Op.tell`).  The loop of `drain` moves items from the front of
the queue to the end of the stream.  A control frame may stop the peer in the middle of it; then
the channel is dead, its queue is empty, and nothing more is written.
-/

namespace EmulateComputer

open Mux

namespace MultiplexPeer

/-! ## One turn of the drain loop -/

namespace Writes

variable {ch : Channel} {stream : List Item} {story : Story} {rest : List Frame}

/-- A channel with something to write is not over. -/
theorem live_of_queue (h : Writes ch stream story) {message : Frame}
    (hqueue : ch.queue = message :: rest) : ch.dead = false := by
  cases hdead : ch.dead with
  | false => rfl
  | true =>
    have hnil := h.emptied hdead
    rw [hqueue] at hnil
    cases hnil

theorem shiftText (h : Writes ch stream story) (hlive : ch.dead = false) {text : String}
    (hqueue : ch.queue = .text text :: rest) :
    Writes { ch with queue := ch.queue.tail } (stream ++ textItem text.toList) story := by
  refine of_live hlive h.available ?_ ?_ ?_
  · have hqueued := h.queued
    rw [hqueue] at hqueued ⊢
    rw [hqueued]
    simp [binaryBytes]
  · rw [byteCount_append, byteCount_textItem]
    exact h.credit
  · have haccepted := h.live hlive
    rw [hqueue] at haccepted ⊢
    rw [← haccepted]
    simp [items]

/-- The queue once the first `count` bytes of its head are gone. -/
def afterHead (bytes : List U8) (count : Nat) (queue : List Frame) : List Frame :=
  if count = bytes.length then queue.tail else .binary (bytes.drop count) :: queue.tail

variable {bytes : List U8} {count : Nat}

theorem binaryBytes_afterHead (hcount : count ≤ bytes.length) (rest : List Frame) :
    binaryBytes (afterHead bytes count (.binary bytes :: rest)) + count =
      binaryBytes (.binary bytes :: rest) := by
  unfold afterHead
  split
  · next heq =>
    simp [binaryBytes, heq]
    omega
  · simp [binaryBytes]
    omega

theorem items_afterHead (rest : List Frame) :
    (bytes.take count).map Item.byte ++
      (afterHead bytes count (.binary bytes :: rest)).flatMap items =
      (Frame.binary bytes :: rest).flatMap items := by
  unfold afterHead
  split
  · next heq => simp [items, heq]
  · simp only [List.tail_cons, List.flatMap_cons, items]
    rw [← List.append_assoc, ← List.map_append, List.take_append_drop]

theorem sendHead (h : Writes ch stream story) (hlive : ch.dead = false)
    (hqueue : ch.queue = .binary bytes :: rest) (hcount : count ≤ bytes.length)
    (havailable : count ≤ ch.available) :
    Writes { ch with
        available := ch.available - count
        queued := ch.queued - count
        queue := afterHead bytes count ch.queue }
      (stream ++ (bytes.take count).map .byte) story := by
  refine of_live hlive (Nat.le_trans (Nat.sub_le _ _) h.available) ?_ ?_ ?_
  · have hqueued := h.queued
    have hbytes := binaryBytes_afterHead hcount rest
    rw [← hqueue] at hbytes
    dsimp only
    omega
  · have hcredit := h.credit
    rw [byteCount_append, byteCount_bytes, List.length_take_of_le hcount]
    dsimp only
    omega
  · rw [← h.live hlive, List.append_assoc, hqueue]
    exact congrArg (stream ++ ·) (items_afterHead rest)

end Writes

variable {p q : Peer} {stories : Nat → Story} {id : Nat} {ch : Channel}

/-! ## Draining a channel -/

theorem same_writable (p : Peer) : Same p p.writable.2 := by
  unfold writable
  split
  · exact .refl p
  · exact same_bufferedAmount p

theorem writable_true (h : p.writable.1 = true) : p.closed = false ∧ p.ws.isSome = true := by
  unfold writable at h
  split at h
  · cases h
  · next hopen =>
    refine ⟨by simpa using hopen, ?_⟩
    unfold bufferedAmount at h
    cases hws : p.ws with
    | none =>
      rw [hws] at h
      cases h
    | some w => rfl

/-- A channel that is being drained dies only with its peer. -/
def Draining (p : Peer) (id : Nat) : Prop :=
  ∀ ch, p.heap.lookup id = some ch → ch.dead = true → p.closed = true

/-- What holds of the peer all along the loop. -/
structure Drains (p : Peer) (stories : Nat → Story) (id : Nat) : Prop where
  sound : Sound p stories
  stopped : Stopped p
  draining : Draining p id

theorem Drains.healthy (h : Drains p stories id) : Healthy p stories :=
  ⟨h.sound, h.stopped⟩

theorem Drains.same (h : Drains p stories id) (hsame : Same p q) : Drains q stories id := by
  refine ⟨h.sound.same hsame, h.stopped.same hsame, ?_⟩
  unfold Draining
  rw [hsame.heap, hsame.closed]
  exact h.draining

theorem draining_of_live (hch : p.heap.lookup id = some ch) (hlive : ch.dead = false) :
    Draining p id := by
  intro ch' hch' hdead
  rw [hch] at hch'
  cases hch'
  exact absurd (hdead.symm.trans hlive) nofun

theorem Stopped.open_of_live (h : Stopped p) (hch : p.heap.lookup id = some ch)
    (hlive : ch.dead = false) : p.closed = false := by
  cases hclosed : p.closed with
  | false => rfl
  | true => exact absurd ((h hclosed id ch hch).symm.trans hlive) nofun

variable {rest : List Frame} {bytes : List U8} {text : String} {count : Nat}

theorem drains_shiftText (h : Drains p stories id) (hch : p.heap.lookup id = some ch)
    (hws : p.ws.isSome = true) (hqueue : ch.queue = .text text :: rest) :
    Drains ((p.control id text).put id fun ch => { ch with queue := ch.queue.tail }) stories
      id := by
  have hwrites := h.sound.channel id ch hch
  have hlive := hwrites.live_of_queue hqueue
  rcases control_sends_or_stops h.healthy id text with ⟨hhealthy, hstops⟩ | ⟨q, hsame, hopen, heq⟩
  · -- The peer has stopped: the queue is empty already.
    refine ⟨hhealthy.toSound.put fun ch' hch' => ⟨rfl, rfl, ?_, rfl⟩,
      hstops.stopped.put fun _ _ hdead => hdead, fun _ _ _ => hstops.closed⟩
    rw [(hhealthy.channel id ch' hch').emptied (hstops.dead id ch' hch')]
    rfl
  · rw [heq]
    have hdown : (q.sendFrame (.text (address id text))).down =
        p.down ++ [.text (address id text)] := by
      rw [down_sendFrame_of_socket (hsame.socket.trans hws), hsame.down]
    refine ⟨?_, stopped_of_open hopen, ?_⟩
    · refine h.sound.update (f := fun ch => { ch with queue := ch.queue.tail }) hch
        ⟨?_, hsame.lastId, hdown, fun id' hne => stream_text_other hne text, ?_⟩ hsame.channels
        ?_ ?_ (fun _ _ => rfl) (fun hl => hl) ?_
      · change q.heap.modify id _ = _
        rw [hsame.heap]
      · intro g hg
        rw [List.mem_singleton.1 hg]
        exact Nat.zero_le _
      · refine hsame.pendingBytes.trans ?_
        rw [hqueue]
        simp [binaryBytes]
      · exact hsame.pendingBytes.trans_le h.sound.bound
      · have hitems : stream id [.text (address id text)] = textItem text.toList := by
          unfold stream
          rw [List.flatMap_singleton, itemsOn_address, if_pos rfl]
        rw [hitems]
        exact hwrites.shiftText hlive hqueue
    · rw [← hsame.heap] at hch
      exact draining_of_live (Table.lookup_modify_self hch) hlive

theorem drains_sendHead (h : Drains p stories id) (hch : p.heap.lookup id = some ch)
    (hws : p.ws.isSome = true) (hqueue : ch.queue = .binary bytes :: rest)
    (hcount : count ≤ bytes.length) (havailable : count ≤ ch.available)
    (hframe : count ≤ MUX_FRAME) : Drains (p.sendHead id bytes count) stories id := by
  have hwrites := h.sound.channel id ch hch
  have hid : id < 2 ^ 32 := Nat.lt_of_le_of_lt (h.sound.known id ch hch) h.sound.lastId
  have hlive := hwrites.live_of_queue hqueue
  let f : Channel → Channel := fun ch =>
    { ch with
      available := ch.available - count
      queued := ch.queued - count
      queue := Writes.afterHead bytes count ch.queue }
  have hheap : (p.sendHead id bytes count).heap = p.heap.modify id f := by
    unfold MultiplexPeer.sendHead MultiplexPeer.put release binary
    dsimp only
    rw [Table.modify_modify]
    rfl
  have hdown : (p.sendHead id bytes count).down =
      p.down ++ [.binary (encodeData id (bytes.take count))] :=
    down_sendFrame_of_socket hws _
  have hitems : ∀ id', stream id' [.binary (encodeData id (bytes.take count))] =
      if id' = id then (bytes.take count).map .byte else [] := by
    intro id'
    unfold stream
    rw [List.flatMap_singleton, itemsOn_encodeData hid]
  have hbytes := Writes.binaryBytes_afterHead hcount rest
  rw [← hqueue] at hbytes
  have hpending : (p.sendHead id bytes count).pendingBytes = p.pendingBytes - count := rfl
  refine ⟨?_, stopped_of_open (h.stopped.open_of_live hch hlive), ?_⟩
  · refine h.sound.update (f := f) hch ⟨hheap, rfl, hdown, ?_, ?_⟩ rfl ?_ ?_ (fun _ _ => rfl)
      (fun hl => hl) ?_
    · intro id' hne
      rw [hitems, if_neg hne]
    · intro g hg
      rw [List.mem_singleton.1 hg]
      unfold payload
      dsimp only
      rw [length_encodeData, List.length_take_of_le hcount]
      omega
    · change _ = _ - _ + ((binaryBytes (Writes.afterHead bytes count ch.queue) : Nat) : Int)
      omega
    · have hbound := h.sound.bound
      omega
    · rw [hitems, if_pos rfl]
      exact hwrites.sendHead hlive hqueue hcount havailable
  · have hput : (p.sendHead id bytes count).heap.lookup id = some (f ch) := by
      rw [hheap]
      exact Table.lookup_modify_self hch
    exact draining_of_live hput hlive

/-- How often the loop can still go round. -/
def turnsLeft (p : Peer) (id : Nat) : Nat :=
  (p.heap.lookup id).elim 0 fun ch => drainTurns ch.queue

theorem turnsLeft_shiftText (h : Drains p stories id) (hch : p.heap.lookup id = some ch)
    (hqueue : ch.queue = .text text :: rest) :
    turnsLeft ((p.control id text).put id fun ch => { ch with queue := ch.queue.tail }) id <
      turnsLeft p id := by
  have hleft : turnsLeft p id = drainTurns rest + 1 := by
    unfold turnsLeft
    rw [hch, Option.elim_some, hqueue]
    simp [drainTurns, Nat.add_comm]
  have hlookup : ∀ q : Peer, turnsLeft (q.put id fun ch => { ch with queue := ch.queue.tail }) id =
      (q.heap.lookup id).elim 0 fun ch => drainTurns ch.queue.tail := by
    intro q
    unfold turnsLeft MultiplexPeer.put
    rw [Table.lookup_modify, if_pos rfl]
    cases q.heap.lookup id <;> rfl
  rw [hleft, hlookup]
  rcases control_sends_or_stops h.healthy id text with ⟨hhealthy, hstops⟩ | ⟨q, hsame, -, heq⟩
  · cases hch' : (p.control id text).heap.lookup id with
    | none => exact Nat.succ_pos _
    | some ch' =>
      have hnil := (hhealthy.channel id ch' hch').emptied (hstops.dead id ch' hch')
      rw [Option.elim_some, hnil]
      exact Nat.succ_pos _
  · rw [heq]
    change (q.heap.lookup id).elim 0 _ < _
    rw [hsame.heap, hch, Option.elim_some, hqueue]
    exact Nat.lt_succ_self _

theorem turnsLeft_sendHead (hch : p.heap.lookup id = some ch)
    (hqueue : ch.queue = .binary bytes :: rest) (hpos : count ≠ 0) (hcount : count ≤ bytes.length) :
    turnsLeft (p.sendHead id bytes count) id < turnsLeft p id := by
  unfold turnsLeft MultiplexPeer.sendHead MultiplexPeer.put release binary
  dsimp only
  rw [Table.modify_modify, Table.lookup_modify, if_pos rfl, hch]
  simp only [Option.map_some, Option.elim_some, Function.comp_apply, hqueue]
  split
  · simp [drainTurns]
    omega
  · simp [drainTurns]
    omega

/-- One turn: the loop ends, or goes round with fewer turns left. -/
theorem drainLoop_turn (h : Drains p stories id) :
    (∃ q, Drains q stories id ∧ ∀ fuel, drainLoop id (fuel + 1) p = q) ∨
      ∃ q, Drains q stories id ∧ turnsLeft q id < turnsLeft p id ∧
        ∀ fuel, drainLoop id (fuel + 1) p = drainLoop id fuel q := by
  simp only [drainLoop]
  cases hch : p.heap.lookup id with
  | none => exact .inl ⟨p, h, fun _ => rfl⟩
  | some channel =>
    dsimp only
    cases hqueue : channel.queue with
    | nil => exact .inl ⟨p, h, fun _ => rfl⟩
    | cons message rest =>
      have hsame := same_writable p
      have hwritable := writable_true (p := p)
      rcases hw : p.writable with ⟨_ | _, q⟩ <;> rw [hw] at hsame hwritable
      · exact .inl ⟨q, h.same hsame, fun _ => rfl⟩
      · have hq := h.same hsame
        have hws : q.ws.isSome = true := hsame.socket.trans (hwritable rfl).2
        have hch' : q.heap.lookup id = some channel := by
          rw [hsame.heap]
          exact hch
        have hleft : turnsLeft q id = turnsLeft p id := by
          unfold turnsLeft
          rw [hsame.heap]
        rw [← hleft]
        cases message with
        | text text =>
          exact .inr ⟨_, drains_shiftText hq hch' hws hqueue, turnsLeft_shiftText hq hch' hqueue,
            fun _ => rfl⟩
        | binary bytes =>
          dsimp only
          split
          · exact .inl ⟨q, hq, fun _ => rfl⟩
          · next hpos =>
            exact .inr ⟨_, drains_sendHead hq hch' hws hqueue (by omega) (by omega) (by omega),
              turnsLeft_sendHead hch' hqueue hpos (by omega), fun _ => rfl⟩

theorem drains_drainLoop (fuel : Nat) (h : Drains p stories id) :
    Drains (drainLoop id fuel p) stories id := by
  induction fuel generalizing p with
  | zero => exact h
  | succ fuel ih =>
    rcases drainLoop_turn h with ⟨q, hq, heq⟩ | ⟨q, hq, -, heq⟩ <;> rw [heq]
    · exact hq
    · exact ih hq

/-- The fuel is enough: more of it changes nothing. -/
theorem drainLoop_enough {n m : Nat} (h : Drains p stories id) (hn : turnsLeft p id ≤ n)
    (hm : turnsLeft p id ≤ m) : drainLoop id (n + 1) p = drainLoop id (m + 1) p := by
  induction hk : turnsLeft p id using Nat.strongRecOn generalizing n m p with
  | ind k ih =>
    rcases drainLoop_turn h with ⟨q, -, heq⟩ | ⟨q, hq, hless, heq⟩
    · rw [heq, heq]
    · -- Both sides still have fuel.
      obtain ⟨n, rfl⟩ := Nat.exists_eq_succ_of_ne_zero (Nat.ne_zero_of_lt (hless.trans_le hn))
      obtain ⟨m, rfl⟩ := Nat.exists_eq_succ_of_ne_zero (Nat.ne_zero_of_lt (hless.trans_le hm))
      rw [heq, heq]
      exact ih _ (hk ▸ hless) hq (by omega) (by omega) rfl

theorem same_tellPause (p : Peer) (id : Nat) : Same p (tellPause id p) := by
  unfold tellPause
  split
  · exact .refl p
  · split
    · exact .refl p
    · split
      · exact same_call _ _
      · exact (same_writable p).trans (same_call _ _)

/-- An orderly close: the `CLOSE` goes out behind everything. -/
theorem healthy_finishClose (h : Drains p stories id) : Healthy (finishClose id p) stories := by
  unfold finishClose
  cases hch : p.heap.lookup id with
  | none => exact h.healthy
  | some channel =>
    dsimp only
    split
    · next hdone =>
      refine Healthy.remove ?_ (dead_put fun _ => rfl)
      rcases control_sends_or_stops h.healthy id "CLOSE" with
        ⟨hhealthy, hstops⟩ | ⟨q, hsame, hopen, heq⟩
      · -- The peer has stopped, so the channel is dead as it is.
        exact ⟨hhealthy.toSound.put fun ch' hch' =>
          ⟨rfl, rfl, rfl, (hstops.dead id ch' hch').symm⟩, hstops.stopped.put fun _ _ _ => rfl⟩
      · rw [heq]
        have hempty : binaryBytes channel.queue = 0 := by
          rw [hdone.2]
          rfl
        have hlive : channel.dead = false := by
          cases hdead : channel.dead with
          | false => rfl
          | true =>
            have hclosed := h.draining channel hch hdead
            rw [← hsame.closed, hopen] at hclosed
            cases hclosed
        have hkilled : { channel with dead := true } = channel.killed := by
          have hqueued := (h.sound.channel id channel hch).queued
          rw [hempty] at hqueued
          unfold Channel.killed
          rw [← hdone.2]
          congr 1
        have hpending : q.pendingBytes = p.pendingBytes - binaryBytes channel.queue := by
          rw [hsame.pendingBytes, hempty]
          exact (Int.sub_zero _).symm
        refine ⟨?_, stopped_of_open hopen⟩
        exact sound_sendClose (q := q.put id fun ch => { ch with dead := true }) h.sound hch hlive
          (fun _ => hdone.2) hkilled (congrArg (Table.modify · id _) hsame.heap) hsame.lastId
          hsame.channels hpending hsame.down
    · exact h.healthy

theorem healthy_drainChannel (h : Healthy p stories) (id : Nat) :
    Healthy (p.drainChannel id) stories := by
  unfold drainChannel
  cases hch : p.heap.lookup id with
  | none => exact h
  | some channel =>
    dsimp only
    split
    · exact h
    · next hlive =>
      have hdrains : Drains p stories id :=
        ⟨h.toSound, h.stopped, draining_of_live hch (by simpa using hlive)⟩
      exact healthy_finishClose
        ((drains_drainLoop (drainTurns channel.queue + 1) hdrains).same (same_tellPause _ _))

theorem healthy_drain (h : Healthy p stories) : Healthy p.drain stories := by
  refine List.foldlRecOn (motive := (Healthy · stories)) _ _ h fun p h id _ => ?_
  split
  · exact healthy_drainChannel h id
  · exact h

/-! ## Operations and stories -/

inductive Op
  | message (frame : Frame)
  | drain
  | sendText (id : Nat) (text : String)
  | sendBinary (id : Nat) (bytes : List U8)
  | close (id : Nat)
  | abort (id : Nat)
  | stop
  | attach (id : Nat)
  | ack (id bytes : Nat)

def Op.run (p : Peer) : Op → Peer
  | .message frame => p.message frame
  | .drain => p.drain
  | .sendText id text => p.sendText id text
  | .sendBinary id bytes => p.sendBinary id bytes
  | .close id => p.close id
  | .abort id => p.abort id
  | .stop => p.stop
  | .attach id => p.attach id
  | .ack id bytes => p.ack id bytes

def revise (id : Nat) (f : Story → Story) (stories : Nat → Story) : Nat → Story :=
  fun id' => if id' = id then f (stories id') else stories id'

def Story.stay (story : Story) : Story :=
  story

def Story.abort (story : Story) : Story :=
  { story with aborted := true }

def Story.accept (items : List Item) (story : Story) : Story :=
  { story with accepted := story.accepted ++ items }

def Story.grant (bytes : Nat) (story : Story) : Story :=
  { story with granted := story.granted + bytes }

/-- What the next step of a channel's story is, given its object. -/
def tellOf (p : Peer) (id : Nat) (next : Channel → Story → Story) (stories : Nat → Story) :
    Nat → Story :=
  match p.heap.lookup id with
  | none => stories
  | some ch => revise id (next ch) stories

def tellText (text : String) (ch : Channel) : Story → Story :=
  if ch.dead then Story.stay
  else if 32 ≤ ch.queue.length then Story.abort
  else Story.accept (textItem text.toList)

def tellBinary (p : Peer) (bytes : List U8) (ch : Channel) : Story → Story :=
  if ch.dead then Story.stay
  else if ch.queued + bytes.length > MUX_WINDOW + MUX_FRAME ∨
      p.pendingBytes + bytes.length > MUX_SOCKET_BUFFER then Story.abort
  else Story.accept (bytes.map .byte)

/-- Data from the client beyond the receive window. -/
def tellReceive (data : List U8) (ch : Channel) : Story → Story :=
  if ch.dead ∨ ch.closing ∨ !ch.data then Story.stay
  else if (MUX_WINDOW : Int) < ch.incoming + data.length then Story.abort
  else Story.stay

def tellCommand (command : List Char) (ch : Channel) : Story → Story :=
  if command = "CLOSE".toList then Story.abort
  else
    match credit command "WINDOW" with
    | .ok (some bytes) =>
      if MUX_WINDOW < ch.available + bytes then Story.stay else Story.grant bytes
    | _ => Story.stay

def tellDispatch (p : Peer) (stories : Nat → Story) : Frame → Nat → Story
  | .binary bytes =>
    match decodeData bytes with
    | .error _ => stories
    | .ok (id, data) => if id ∈ p.channels then tellOf p id (tellReceive data) stories else stories
  | .text text =>
    match decodeControl text.toList with
    | .error _ => stories
    | .ok (id, command) =>
      if (Text.stripPrefix "CONNECT " command).isSome ∨
          (Text.stripPrefix "RESOLVE " command).isSome then stories
      else if id ∈ p.channels then tellOf p id (tellCommand command) stories
      else stories

def tellMessage (p : Peer) (frame : Frame) (stories : Nat → Story) : Nat → Story :=
  if p.closed ∨ frame = .text "PING" then stories else tellDispatch p stories frame

/-- How the stories go on with an operation: what it accepts, what the client grants, and which
channel it aborts. -/
def Op.tell (p : Peer) (stories : Nat → Story) : Op → Nat → Story
  | .message frame => tellMessage p frame stories
  | .sendText id text => tellOf p id (tellText text) stories
  | .sendBinary id bytes => tellOf p id (tellBinary p bytes) stories
  | .abort id => tellOf p id (fun _ => Story.abort) stories
  | .drain | .close _ | .stop | .attach _ | .ack _ _ => stories

/-- The peers that any operations lead to, with the stories of their channels.  `readings` is what
the socket's buffer shows whenever it is looked at. -/
inductive Runs (maxChannels : Nat) (readings : Option (List Nat)) : Peer → (Nat → Story) → Prop
  | new : Runs maxChannels readings
      (MultiplexPeer.new maxChannels (readings.map fun r => { sent := [], readings := r }))
        fun _ => {}
  | step {p : Peer} {stories : Nat → Story} (op : Op)
      (before : Runs maxChannels readings p stories) :
      Runs maxChannels readings (op.run p) (op.tell p stories)

@[simp] theorem revise_self (f : Story → Story) : revise id f stories id = f (stories id) :=
  if_pos rfl

theorem revise_other (f : Story → Story) {id' : Nat} (hne : id' ≠ id) :
    revise id f stories id' = stories id' :=
  if_neg hne

theorem revise_stay : revise id Story.stay stories = stories := by
  funext id'
  unfold revise
  split <;> rfl

theorem tellOf_stay (p : Peer) (id : Nat) :
    tellOf p id (fun _ => Story.stay) stories = stories := by
  unfold tellOf
  split
  · rfl
  · exact revise_stay

section

variable (h : Healthy p stories) {f : Channel → Channel}

include h

/-- A channel takes something more to write. -/
theorem Healthy.accept (hch : p.heap.lookup id = some ch)
    (hlive : ch.dead = false) (message : Frame)
    (hf : ∀ ch : Channel, f ch = { ch with
      queued := ch.queued + binaryBytes [message], queue := ch.queue ++ [message] })
    (hroom : p.pendingBytes + binaryBytes [message] ≤ MUX_SOCKET_BUFFER) :
    Healthy { p.put id f with pendingBytes := p.pendingBytes + binaryBytes [message] }
      (revise id (Story.accept (items message)) stories) := by
  have hwrites := h.channel id ch hch
  have hqueue : (f ch).queue = ch.queue ++ [message] := by rw [hf]
  have hdead : (f ch).dead = false := by rw [hf]; exact hlive
  have havailable : (f ch).available = ch.available := by rw [hf]
  have hsum : binaryBytes (f ch).queue = binaryBytes ch.queue + binaryBytes [message] := by
    rw [hqueue]
    simp [binaryBytes]
  refine ⟨h.toSound.amend hch ?_ hroom (fun _ hne => revise_other _ hne) (fun _ => hlive) ?_,
    stopped_of_open (h.stopped.open_of_live hch hlive)⟩
  · omega
  · rw [revise_self]
    refine .of_live hdead (by rw [havailable]; exact hwrites.available) ?_
      (by rw [havailable]; exact hwrites.credit) ?_
    · rw [hsum, Nat.cast_add, ← hwrites.queued, hf]
    · rw [hqueue, List.flatMap_append, ← List.append_assoc, hwrites.live hlive,
        List.flatMap_singleton]
      rfl

/-- An object, if there is one, changes in ways that are not about output. -/
theorem Healthy.put (id : Nat)
    (hf : ∀ ch, (f ch).available = ch.available ∧ (f ch).queued = ch.queued ∧
      (f ch).queue = ch.queue ∧ (f ch).dead = ch.dead) : Healthy (p.put id f) stories :=
  ⟨h.toSound.put fun ch _ => hf ch, h.stopped.put fun ch _ hdead => (hf ch).2.2.2.trans hdead⟩

/-- A channel that is told to give up. -/
theorem healthy_tellAbort (hch : p.heap.lookup id = some ch) :
    Healthy (p.abort id) (revise id Story.abort stories) := by
  have hmarked : Healthy p (revise id Story.abort stories) :=
    ⟨h.toSound.mark id (h.known id ch hch), h.stopped⟩
  refine healthy_abort hmarked id ?_
  rw [revise_self]
  rfl

theorem healthy_tellOf_abort (id : Nat) :
    Healthy (p.abort id) (tellOf p id (fun _ => Story.abort) stories) := by
  unfold tellOf
  cases hch : p.heap.lookup id with
  | none =>
    unfold abort abortThrough
    rw [hch]
    exact h
  | some ch => exact healthy_tellAbort h hch

theorem healthy_sendText (id : Nat) (text : String) :
    Healthy (p.sendText id text) (tellOf p id (tellText text) stories) := by
  unfold sendText tellOf
  cases hch : p.heap.lookup id with
  | none => exact h
  | some ch =>
    unfold tellText
    dsimp only
    split
    · rw [revise_stay]
      exact h
    · next hlive =>
      split
      · exact healthy_tellAbort h hch
      · have hzero : (binaryBytes [.text text] : Int) = 0 := rfl
        have haccept := h.accept hch (by simpa using hlive) (.text text)
          (f := fun ch => { ch with queue := ch.queue ++ [.text text] })
          (fun ch => by rw [hzero, Int.add_zero]) (by rw [hzero, Int.add_zero]; exact h.bound)
        rw [hzero, Int.add_zero] at haccept
        exact healthy_drainChannel haccept id

theorem healthy_sendBinary (id : Nat) (bytes : List U8) :
    Healthy (p.sendBinary id bytes) (tellOf p id (tellBinary p bytes) stories) := by
  unfold sendBinary tellOf
  cases hch : p.heap.lookup id with
  | none => exact h
  | some ch =>
    unfold tellBinary
    dsimp only
    split
    · rw [revise_stay]
      exact h
    · next hlive =>
      by_cases hover : ch.queued + bytes.length > MUX_WINDOW + MUX_FRAME
      · rw [if_pos hover, if_pos (Or.inl hover)]
        exact healthy_tellAbort h hch
      · rw [if_neg hover]
        by_cases hfull : p.pendingBytes + bytes.length > MUX_SOCKET_BUFFER
        · have hreserve : p.reserve bytes.length = none := if_pos hfull
          rw [hreserve, if_pos (Or.inr hfull)]
          exact healthy_tellAbort h hch
        · have hreserve : p.reserve bytes.length =
              some { p with pendingBytes := p.pendingBytes + bytes.length } := if_neg hfull
          have hlength : binaryBytes [.binary bytes] = bytes.length := by simp [binaryBytes]
          rw [hreserve, if_neg (by rintro (hover' | hfull') <;> contradiction)]
          have haccept := h.accept hch (by simpa using hlive) (.binary bytes)
            (f := fun ch => { ch with
              queued := ch.queued + bytes.length, queue := ch.queue ++ [.binary bytes] })
            (fun ch => by rw [hlength]) (by rw [hlength]; omega)
          exact healthy_drainChannel haccept id

theorem healthy_close (id : Nat) : Healthy (p.close id) stories := by
  have hput := h.put id (f := fun ch => { ch with closing := true }) fun _ => ⟨rfl, rfl, rfl, rfl⟩
  exact healthy_drainChannel hput id

/-! ## Messages of the client -/

theorem healthy_receive (id : Nat) (data : List U8) :
    Healthy (p.receive id data) (tellOf p id (tellReceive data) stories) := by
  unfold receive tellOf
  cases hch : p.heap.lookup id with
  | none => exact h
  | some ch =>
    unfold tellReceive
    dsimp only
    split
    · rw [revise_stay]
      exact h
    · have hput := h.put id (f := fun ch => { ch with incoming := ch.incoming + data.length })
        fun _ => ⟨rfl, rfl, rfl, rfl⟩
      split
      · exact healthy_tellAbort (hput.same (same_refuse _ .windowExceeded))
          (Table.lookup_modify_self hch)
      · rw [revise_stay]
        exact hput.same (same_call _ _)

theorem Healthy.grant (hch : p.heap.lookup id = some ch)
    {bytes : Nat} (hfits : ¬ MUX_WINDOW < ch.available + bytes) :
    Healthy (p.put id fun ch => { ch with available := ch.available + bytes })
      (revise id (Story.grant bytes) stories) := by
  have hwrites := h.channel id ch hch
  refine ⟨h.toSound.amend hch ?_ h.bound (fun _ hne => revise_other _ hne) (fun hlive => hlive) ?_,
    h.stopped.put fun _ _ hdead => hdead⟩
  · dsimp only
    omega
  · rw [revise_self]
    refine { hwrites with available := Nat.le_of_not_lt hfits, credit := ?_ }
    have hcredit := hwrites.credit
    unfold Story.grant
    dsimp only
    omega

end

/-- A message is handled with its story, or refused with none. -/
def Answers (stories stories' : Nat → Story) : Except String Peer → Prop
  | .ok q => Sound q stories' ∧ Stopped q
  | .error _ => stories' = stories

theorem Healthy.answers {stories' : Nat → Story} (h : Healthy q stories') :
    Answers stories stories' (.ok q) :=
  ⟨h.toSound, h.stopped⟩

theorem answers_window (h : Healthy p stories) (id bytes : Nat) :
    Answers stories
      (tellOf p id (fun ch =>
        if MUX_WINDOW < ch.available + bytes then Story.stay else Story.grant bytes) stories)
      (p.window id bytes) := by
  unfold window tellOf
  cases hch : p.heap.lookup id with
  | none => exact h.answers
  | some ch =>
    dsimp only
    split
    · exact revise_stay
    · next hfits => exact (healthy_drainChannel (h.grant hch hfits) id).answers

theorem answers_onCommand (h : Healthy p stories) (id : Nat) (command : List Char) :
    Answers stories
      (if id ∈ p.channels then tellOf p id (tellCommand command) stories else stories)
      (p.onCommand id command) := by
  unfold onCommand
  by_cases hid : id ∈ p.channels
  · rw [if_neg (not_not.2 hid), if_pos hid]
    unfold tellCommand
    by_cases hclose : command = "CLOSE".toList
    · simp only [if_pos hclose]
      exact (healthy_tellOf_abort h id).answers
    · simp only [if_neg hclose]
      cases credit command "WINDOW" with
      | error error => exact tellOf_stay p id
      | ok bytes =>
        cases bytes with
        | some bytes => exact answers_window h id bytes
        | none =>
          dsimp only
          rw [tellOf_stay]
          split
          · exact (h.same (same_call _ _)).answers
          · rfl
  · rw [if_pos hid, if_neg hid]
    exact h.answers

/-- A frame that no channel's object and no number still to come has a part in. -/
theorem Sound.sendOther (h : Sound p stories) {f : Frame}
    (hitems : ∀ id', (p.heap.lookup id').isSome ∨ p.lastId < id' → itemsOn id' f = [])
    (hpayload : payload f ≤ MUX_FRAME) : Sound (p.sendFrame f) stories := by
  have hstream : ∀ id', (p.heap.lookup id').isSome ∨ p.lastId < id' →
      stream id' (p.sendFrame f).down = stream id' p.down := by
    intro id' hid'
    rcases down_sendFrame p f with hdown | hdown <;> rw [hdown]
    rw [stream_append, hitems id' hid', List.append_nil]
  refine { h with
    channel := fun id' ch' hch' => ?_
    fresh := fun id' hid' => ?_
    frames := fun g hg => ?_ }
  · have hsome : (p.heap.lookup id').isSome := by
      change p.heap.lookup id' = some ch' at hch'
      rw [hch']
      rfl
    rw [hstream id' (Or.inl hsome)]
    exact h.channel id' ch' hch'
  · rw [hstream id' (Or.inr hid')]
    exact h.fresh id' hid'
  · rcases down_sendFrame p f with hdown | hdown <;> rw [hdown] at hg
    · exact h.frames g hg
    · rcases List.mem_append.1 hg with hg | hg
      · exact h.frames g hg
      · rw [List.mem_singleton.1 hg]
        exact hpayload

/-- An acknowledgement, which is no part of a stream. -/
theorem healthy_ack (h : Healthy p stories) (id bytes : Nat) :
    Healthy (p.ack id bytes) stories := by
  have hput := h.put id (f := fun ch => { ch with incoming := ch.incoming - bytes })
    fun _ => ⟨rfl, rfl, rfl, rfl⟩
  unfold MultiplexPeer.ack
  rcases control_sends_or_stops hput id s!"ACK {bytes}" with ⟨hstopped, -⟩ | ⟨q, hsame, hopen, heq⟩
  · exact hstopped
  · rw [heq]
    refine ⟨(hput.toSound.same hsame).sendOther (fun id' _ => ?_) (Nat.zero_le _),
      stopped_of_open hopen⟩
    have hnone : textItem s!"ACK {bytes}".toList = [] := if_pos <| Option.isSome_of_eq_some <|
      Text.stripPrefix_eq_some_iff.2 (Frame.toList_counted "ACK " bytes)
    rw [itemsOn_address, hnone, ite_self]

/-- A control frame for a number without an object. -/
theorem healthy_controlOther (h : Healthy p stories) (hid : id ≤ p.lastId)
    (hnone : p.heap.lookup id = none) (text : String) :
    Healthy (p.control id text) stories ∧
      ((p.control id text).closed = false →
        (p.control id text).heap.lookup id = none ∧ id ≤ (p.control id text).lastId) := by
  rcases control_sends_or_stops h id text with ⟨hhealthy, hstops⟩ | ⟨q, hsame, hopen, heq⟩
  · exact ⟨hhealthy, fun hopen => absurd (hstops.closed.symm.trans hopen) nofun⟩
  · rw [heq]
    have hlookup : q.heap.lookup id = none := by
      rw [hsame.heap]
      exact hnone
    have hlast : id ≤ q.lastId := hid.trans_eq hsame.lastId.symm
    refine ⟨⟨(h.toSound.same hsame).sendOther ?_ (Nat.zero_le _), stopped_of_open hopen⟩,
      fun _ => ⟨hlookup, hlast⟩⟩
    intro id' hid'
    have hne : id' ≠ id := by
      rintro rfl
      rcases hid' with hsome | hfresh
      · rw [hlookup] at hsome
        cases hsome
      · exact absurd hlast (Nat.not_le_of_lt hfresh)
    rw [itemsOn_address, if_neg hne]

theorem Sound.raise (h : Sound p stories) (hnew : p.lastId < id) (hid : id < 2 ^ 32) :
    Sound { p with lastId := id } stories :=
  { h with
    known id' ch hch := (h.known id' ch hch).trans (Nat.le_of_lt hnew)
    lastId := hid
    fresh id' hid' := h.fresh id' (Nat.lt_trans hnew hid')
    members id' hid' := (h.members id' hid').trans (Nat.le_of_lt hnew) }

/-- A new channel, under a number that nothing has been said about. -/
theorem healthy_insert (h : Sound p stories) (hopen : p.closed = false)
    (hnew : p.lastId < id) (hid : id < 2 ^ 32) :
    Healthy { p with lastId := id, heap := p.heap.insert id {}, channels := p.channels ++ [id] }
      stories := by
  have hnone : id ∉ p.heap := by
    intro hmem
    obtain ⟨ch, hch⟩ := Table.mem_iff.1 hmem
    exact absurd (h.known id ch hch) (Nat.not_le_of_lt hnew)
  obtain ⟨hstream, hstory⟩ := h.fresh id hnew
  have hr := h.raise hnew hid
  refine ⟨?_, stopped_of_open hopen⟩
  refine ⟨Table.forall_insert (fun id' ch' _ => h.channel id' ch') ?_, ?_, h.bound,
    Table.forall_insert (fun id' ch' _ => hr.known id' ch') le_rfl, hid, hr.fresh,
    Table.forall_insert (fun id' ch' _ hch' hlive =>
      List.mem_append_left _ (h.listed id' ch' hch' hlive)) ?_, ?_, fun id' hid' => ?_, h.frames⟩
  · rw [hstory]
    change Writes _ (stream id p.down) _
    rw [hstream]
    exact Writes.new
  · rw [Table.total_insert _ hnone, h.pending]
    simp [binaryBytes]
  · exact fun _ => List.mem_append_right _ (List.mem_singleton_self id)
  · have hlisted : id ∉ p.channels := fun hmem =>
      absurd (h.members id hmem) (Nat.not_le_of_lt hnew)
    rw [← List.concat_eq_append]
    exact h.nodup.concat hlisted
  · rcases List.mem_append.1 hid' with hid' | hid'
    · exact hr.members id' hid'
    · exact (List.mem_singleton.1 hid').le

theorem answers_openChannel (h : Healthy p stories) (hopen : p.closed = false) (hid : id < 2 ^ 32)
    (command : List Char) : Answers stories stories (p.openChannel id command) := by
  unfold openChannel
  split
  · rfl
  · next hnew =>
    have hnew' : p.lastId < id := Nat.lt_of_not_le hnew
    dsimp only
    split
    · have hraised : Healthy { p with lastId := id } stories :=
        ⟨h.toSound.raise hnew' hid, h.stopped⟩
      have hnone : p.heap.lookup id = none := by
        cases hch : p.heap.lookup id with
        | none => rfl
        | some ch => exact absurd (h.known id ch hch) (Nat.not_le_of_lt hnew')
      obtain ⟨hfirst, hkept⟩ := healthy_controlOther hraised (Nat.le_refl id) hnone
        "ERR connection cap reached"
      generalize control id "ERR connection cap reached" { p with lastId := id } = q at *
      cases hq : q.closed with
      | false =>
        obtain ⟨hnone', hlast⟩ := hkept hq
        exact (healthy_controlOther hfirst hlast hnone' "CLOSE").1.answers
      | true =>
        -- The peer stopped over the first frame and sends no second one.
        rcases control_sends_or_stops hfirst id "CLOSE" with ⟨hsecond, -⟩ | ⟨_, hsame, hopen', _⟩
        · exact hsecond.answers
        · rw [hsame.closed, hq] at hopen'
          cases hopen'
    · exact ((healthy_insert h.toSound hopen hnew' hid).same (same_call _ _)).answers

theorem answers_dispatch (h : Healthy p stories) (hopen : p.closed = false) (frame : Frame) :
    Answers stories (tellDispatch p stories frame) (p.dispatch frame) := by
  unfold dispatch tellDispatch
  cases frame with
  | binary bytes =>
    dsimp only
    cases decodeData bytes with
    | error error => rfl
    | ok result =>
      obtain ⟨id, data⟩ := result
      dsimp only
      split
      · exact (healthy_receive h id data).answers
      · exact h.answers
  | text text =>
    dsimp only
    cases hdecode : decodeControl text.toList with
    | error error => rfl
    | ok result =>
      obtain ⟨id, command⟩ := result
      dsimp only
      split
      · exact answers_openChannel h hopen (lt_of_decodeControl hdecode) command
      · exact answers_onCommand h id command

theorem healthy_message (h : Healthy p stories) (frame : Frame) :
    Healthy (p.message frame) (tellMessage p frame stories) := by
  unfold message tellMessage
  by_cases hclosed : p.closed = true
  · rw [if_pos hclosed, if_pos (Or.inl hclosed)]
    exact h
  · rw [if_neg hclosed]
    by_cases hping : frame = .text "PING"
    · rw [if_pos hping, if_pos (Or.inr hping)]
      exact ⟨h.toSound.sendOther (fun id' _ => itemsOn_pong id') (Nat.zero_le _), h.stopped⟩
    · rw [if_neg hping, if_neg (by rintro (hc | hp) <;> contradiction)]
      have hanswers := answers_dispatch h (by simpa using hclosed) frame
      cases hresult : p.dispatch frame with
      | ok q =>
        rw [hresult] at hanswers
        exact ⟨hanswers.1, hanswers.2⟩
      | error error =>
        -- The peer is as it was before the message, and stops.
        rw [hresult] at hanswers
        rw [show tellDispatch p stories frame = stories from hanswers]
        exact (stops_stop (h.same (same_refuse p (.thrown error)))).1

/-! ## Whole runs -/

theorem healthy_run (h : Healthy p stories) (op : Op) : Healthy (op.run p) (op.tell p stories) := by
  cases op with
  | message frame => exact healthy_message h frame
  | drain => exact healthy_drain h
  | sendText id text => exact healthy_sendText h id text
  | sendBinary id bytes => exact healthy_sendBinary h id bytes
  | close id => exact healthy_close h id
  | abort id => exact healthy_tellOf_abort h id
  | stop => exact (stops_stop h).1
  | attach id => exact h.put id fun _ => ⟨rfl, rfl, rfl, rfl⟩
  | ack id bytes => exact healthy_ack h id bytes

theorem healthy_of_runs {maxChannels : Nat} {readings : Option (List Nat)}
    (hr : Runs maxChannels readings p stories) : Healthy p stories := by
  induction hr with
  | new =>
    have hdown : (MultiplexPeer.new maxChannels (readings.map fun r =>
        ({ sent := [], readings := r } : Wire))).down = [] := by
      cases readings <;> rfl
    refine ⟨⟨nofun, rfl, ?_, nofun, ?_, ?_, nofun, .nil, nofun, ?_⟩, nofun⟩
    · exact Int.natCast_nonneg _
    · exact Nat.two_pow_pos 32
    · intro id _
      rw [hdown]
      exact ⟨rfl, rfl⟩
    · rw [hdown]
      nofun
  | step op _ ih => exact healthy_run ih op

/-- The sum over the map is the sum over all objects: one that has left the map has nothing in its
queue. -/
theorem pendingBytes_eq_sum (h : Sound p stories) :
    p.pendingBytes = (p.channels.map fun id => (p.heap.lookup id).elim 0 (·.queued)).sum := by
  have hcover : ∀ id ch, p.heap.lookup id = some ch → binaryBytes ch.queue ≠ 0 →
      id ∈ p.channels := by
    intro id ch hch hne
    refine h.listed id ch hch ?_
    cases hdead : ch.dead with
    | false => rfl
    | true =>
      rw [(h.channel id ch hch).emptied hdead] at hne
      exact absurd rfl hne
  rw [h.pending, Table.total_eq_sum_of_cover _ h.nodup hcover, Nat.cast_list_sum, List.map_map]
  refine congrArg List.sum (List.map_congr_left fun id _ => ?_)
  cases hch : p.heap.lookup id with
  | none => simp [hch]
  | some ch =>
    simp only [Function.comp_apply, hch, Option.elim_some]
    exact (h.channel id ch hch).queued.symm

/-- The accounts of a peer and the output of its channels, after any operations and whatever the
socket's buffer shows. -/
theorem channelOutput_of_runs {maxChannels : Nat} {readings : Option (List Nat)}
    (hr : Runs maxChannels readings p stories) :
    (∀ id ch, p.heap.lookup id = some ch →
      ch.available ≤ MUX_WINDOW ∧ ch.queued = binaryBytes ch.queue ∧
        InOrder (stream id p.down) (stories id) ∧
        byteCount (stream id p.down) ≤ (stories id).granted + MUX_WINDOW) ∧
      p.pendingBytes = (p.channels.map fun id => (p.heap.lookup id).elim 0 (·.queued)).sum ∧
      p.pendingBytes ≤ MUX_SOCKET_BUFFER ∧
      ∀ f ∈ p.down, payload f ≤ MUX_FRAME := by
  have hsound := (healthy_of_runs hr).toSound
  refine ⟨fun id ch hch => ?_, pendingBytes_eq_sum hsound, hsound.bound, hsound.frames⟩
  have hwrites := hsound.channel id ch hch
  refine ⟨hwrites.available, hwrites.queued, ?_, ?_⟩
  · cases hdead : ch.dead with
    | true => exact hwrites.ended hdead
    | false =>
      refine ⟨stream id p.down, [], (List.append_nil _).symm, ?_, Or.inl rfl⟩
      rw [← hwrites.live hdead]
      exact List.prefix_append _ _
  · have hcredit := hwrites.credit
    omega

/-- A channel that is opened, written to, read from and closed in order. -/
theorem channelOutput_orderly :
    ∃ p stories, Runs 4 (some []) p stories ∧
      p.down = [.text "1 OK", .binary [0, 0, 0, 1, 7, 8], .text "1 ACK 3", .text "1 CLOSE"] ∧
      InOrder (stream 1 p.down) (stories 1) := by
  have hrun : Runs 4 (some []) _ _ :=
    (((((((Runs.new.step (.message (.text "1 CONNECT h:1"))).step
      (.attach 1)).step (.sendText 1 "OK")).step
      (.message (.binary [0, 0, 0, 1, 4, 5, 6]))).step
      (.sendBinary 1 [7, 8])).step (.ack 1 3)).step (.close 1))
  refine ⟨_, _, hrun, ?_, ?_⟩
  · decide
  · exact ((channelOutput_of_runs hrun).1 1 _ rfl).2.2.1

end MultiplexPeer

end EmulateComputer
