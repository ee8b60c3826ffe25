import EmulateComputer.Relay.CreditLink

/-!
# CreditClient — the native client's operations as moves of credit

The client's host environment is a network: one link to the relay while the client is connected,
and the links it has hung up on, whose relay end may still be at work.  Everything the network may
decide (which writes and reads fail or would block, when a dial succeeds, how time passes) is read
from scripts.

`Inv` says that the client's counts add up, that every link keeps `LinkOk`, and that no message has
been refused over credit.  Every operation of the transport keeps it.
-/

namespace EmulateComputer

open Mux

/-- What a read of the socket finds. -/
inductive Arrival
  | next
  | later
  | ping
  | pong
  | closed
  | broken
  deriving DecidableEq

/-- The network as the client's host environment. -/
structure Net where
  link : Option Link
  /-- The links the client has hung up on. -/
  old : List Link
  maxChannels : Nat
  clock : Nat
  delays : List Nat
  io : List IoResult
  dials : List DialResult
  spawns : List Bool
  arrivals : List Arrival

def Message.toFrame : Message → Option Frame
  | .text line => some (.text line)
  | .binary data => some (.binary data)
  | .ping | .pong | .close | .frame => none

def Frame.toMessage : Frame → Message
  | .text line => .text line
  | .binary bytes => .binary bytes

namespace Net

def tick (n : Net) : Net :=
  { n with clock := n.clock + n.delays.headD 0, delays := n.delays.tail }

def write (n : Net) (message : Message) : Net :=
  { n with link := n.link.map fun l => { l with up := l.up ++ message.toFrame.toList } }

def plug (n : Net) : Net :=
  { n with
    link := some ⟨[], MultiplexPeer.new n.maxChannels (some ⟨[], []⟩)⟩
    old := n.link.toList ++ n.old }

def hangUp (n : Net) : Net :=
  { n with link := none, old := n.link.toList ++ n.old }

def readFrame (n : Net) : ReadResult × Net :=
  match n.link.bind Link.takeDown with
  | none => (.wouldBlock, n)
  | some (f, l) => (.ok f.toMessage, { n with link := some l })

/-- What a read can do to the network: take a frame, or leave the links alone. -/
inductive Reads (n : Net) : ReadResult × Net → Prop
  | frame {l l' : Link} {f : Frame} {n' : Net} (hlink : n.link = some l)
      (htake : l.takeDown = some (f, l')) (hlink' : n'.link = some l') (hold : n'.old = n.old) :
      Reads n (.ok f.toMessage, n')
  | other {result : ReadResult} {n' : Net} (hlink : n'.link = n.link) (hold : n'.old = n.old)
      (hresult : ∀ message, result = .ok message → message = .ping ∨ message = .pong ∨
        message = .close) : Reads n (result, n')

instance : RelayHost Net where
  spawnDial n _ := (n.spawns.headD true, { n.tick with spawns := n.spawns.tail })
  tryRecv n :=
    let result := n.dials.headD .empty
    let n := { n.tick with dials := n.dials.tail }
    (result, if result = .connected then n.plug else n)
  write n message := (n.io.headD .ok, { (n.tick).write message with io := n.io.tail })
  flush n := (n.io.headD .ok, { n.tick with io := n.io.tail })
  read n :=
    let rest := { n.tick with arrivals := n.arrivals.tail }
    match n.arrivals.headD .next with
    | .next => rest.readFrame
    | .later => (.wouldBlock, rest)
    | .ping => (.ok .ping, rest)
    | .pong => (.ok .pong, rest)
    | .closed => (.ok .close, rest)
    | .broken => (.failed, rest)
  hangUp := hangUp
  now := clock

theorem tryRecv_eq (n : Net) : RelayHost.tryRecv n = (n.dials.headD .empty,
    if n.dials.headD .empty = .connected then plug { n.tick with dials := n.dials.tail }
    else { n.tick with dials := n.dials.tail }) :=
  rfl

theorem reads_read (n : Net) : Reads n (RelayHost.read n) := by
  change Reads n (match n.arrivals.headD .next with
    | .next => readFrame { n.tick with arrivals := n.arrivals.tail }
    | .later => (.wouldBlock, { n.tick with arrivals := n.arrivals.tail })
    | .ping => (.ok .ping, { n.tick with arrivals := n.arrivals.tail })
    | .pong => (.ok .pong, { n.tick with arrivals := n.arrivals.tail })
    | .closed => (.ok .close, { n.tick with arrivals := n.arrivals.tail })
    | .broken => (.failed, { n.tick with arrivals := n.arrivals.tail }))
  cases n.arrivals.headD .next with
  | next =>
    unfold readFrame
    cases hbind : ({ n.tick with arrivals := n.arrivals.tail } : Net).link.bind
        Link.takeDown with
    | none => exact .other rfl rfl nofun
    | some r =>
      obtain ⟨l, hl, htake⟩ := Option.bind_eq_some_iff.1 hbind
      exact .frame hl htake rfl rfl
  | later => exact .other rfl rfl nofun
  | ping => exact .other rfl rfl fun message h => .inl (ReadResult.ok.inj h).symm
  | pong => exact .other rfl rfl fun message h => .inr (.inl (ReadResult.ok.inj h).symm)
  | closed => exact .other rfl rfl fun message h => .inr (.inr (ReadResult.ok.inj h).symm)
  | broken => exact .other rfl rfl nofun

end Net

namespace TungsteniteTransport

abbrev Client := TungsteniteTransport Net

/-- A refusal that is not about credit or windows. -/
def Refusal.Harmless (refusal : Refusal) : Prop :=
  refusal = .malformed ∨ refusal = .closed

/-- No amount under way on any channel. -/
abbrev nothing : ConnId → Nat := fun _ => 0

/-- The client's counts add up and stay in their bounds. -/
structure Counts (channels : ClientChannels) (pending next : Nat) : Prop where
  pending_eq : pending = channels.total (·.pending)
  pending_le : ∀ id ch, channels.lookup id = some ch → ch.pending ≤ WINDOW
  received_le : ∀ id ch, channels.lookup id = some ch → ch.received ≤ WINDOW
  buffer : pending ≤ BUFFER
  known : ∀ id ch, channels.lookup id = some ch → id ≤ next

structure Inv (t : Client) (unsent owed : ConnId → Nat) : Prop where
  counts : Counts t.channels t.pending t.next
  next : t.next ≤ U32_MAX
  /-- Nothing has been read without a connection. -/
  quiet : t.connection ≠ .live → ∀ id, receivedOn t.channels id = 0
  link : ∀ l, t.host.link = some l → LinkOk t.next t.channels unsent owed l
  old : ∀ l ∈ t.host.old, LinkOk t.next ∅ nothing nothing l
  refusals : ∀ r ∈ t.refusals, r.Harmless

/-- What the invariant looks at. -/
def books (t : Client) :=
  (t.channels, t.pending, t.next, t.connection, t.refusals, t.host.link, t.host.old)

/-! ## The client's table -/

section Counts

variable {channels : ClientChannels} {pending next : Nat} {id : ConnId} {ch : Channel}

theorem counts_empty (next : Nat) : Counts ∅ 0 next :=
  ⟨rfl, nofun, nofun, Nat.zero_le _, nofun⟩

@[simp]
theorem roomFor_empty (id : ConnId) : roomFor ∅ id = 0 :=
  rfl

@[simp]
theorem receivedOn_empty (id : ConnId) : receivedOn ∅ id = 0 :=
  rfl

theorem Counts.insert (h : Counts channels pending next) :
    Counts (channels.insert (next + 1) {}) pending (next + 1) := by
  have hnew : next + 1 ∉ channels := by
    intro hmem
    obtain ⟨ch, hch⟩ := Table.mem_iff.1 hmem
    exact Nat.not_succ_le_self next (h.known _ ch hch)
  refine ⟨?_, Table.forall_insert (fun id ch _ => h.pending_le id ch) (Nat.zero_le _),
    Table.forall_insert (fun id ch _ => h.received_le id ch) (Nat.zero_le _), h.buffer,
    Table.forall_insert (fun id ch _ hch => (h.known id ch hch).trans (Nat.le_succ next)) le_rfl⟩
  rw [Table.total_insert _ hnew, ← h.pending_eq, Nat.zero_add]

theorem Counts.erase (h : Counts channels pending next) (hch : channels.lookup id = some ch) :
    Counts (channels.erase id) (pending - ch.pending) next := by
  have htotal := Table.total_erase (·.pending) hch
  refine ⟨?_, Table.forall_erase h.pending_le, Table.forall_erase h.received_le,
    (Nat.sub_le _ _).trans h.buffer, Table.forall_erase h.known⟩
  rw [h.pending_eq]
  omega

variable {f : Channel → Channel}

theorem Counts.modify (h : Counts channels pending next) (hch : channels.lookup id = some ch)
    {pending' : Nat} (hpending : pending' + ch.pending = pending + (f ch).pending)
    (hwindow : (f ch).pending ≤ WINDOW) (hreceived : (f ch).received ≤ WINDOW)
    (hbuffer : pending' ≤ BUFFER) : Counts (channels.modify id f) pending' next := by
  have htotal := Table.total_modify (g := f) (·.pending) hch
  have hsum := h.pending_eq
  exact ⟨by omega, Table.forall_modify hch (fun id ch _ => h.pending_le id ch) hwindow,
    Table.forall_modify hch (fun id ch _ => h.received_le id ch) hreceived, hbuffer,
    Table.forall_modify hch (fun id ch _ => h.known id ch) (h.known id ch hch)⟩

theorem Counts.le_pending (h : Counts channels pending next)
    (hch : channels.lookup id = some ch) : ch.pending ≤ pending := by
  have htotal := Table.total_erase (·.pending) hch
  rw [h.pending_eq]
  omega

section

variable (hch : channels.lookup id = some ch)

include hch

theorem roomFor_modify (f : Channel → Channel) (id' : ConnId) : roomFor (channels.modify id f) id' =
      if id' = id then MUX_WINDOW - (f ch).pending else roomFor channels id' :=
  Table.elim_modify hch id'

theorem receivedOn_modify (f : Channel → Channel)
    (id' : ConnId) : receivedOn (channels.modify id f) id' =
      if id' = id then (f ch).received else receivedOn channels id' :=
  Table.elim_modify hch id'

theorem roomFor_of_lookup : roomFor channels id = MUX_WINDOW - ch.pending :=
  Table.elim_of_lookup hch

theorem receivedOn_of_lookup : receivedOn channels id = ch.received :=
  Table.elim_of_lookup hch

end

theorem roomFor_erase_le (channels : ClientChannels) (id id' : ConnId) :
    roomFor (channels.erase id) id' ≤ roomFor channels id' :=
  Table.elim_erase_le channels id id'

theorem receivedOn_erase_le (channels : ClientChannels) (id id' : ConnId) :
    receivedOn (channels.erase id) id' ≤ receivedOn channels id' :=
  Table.elim_erase_le channels id id'

theorem Counts.touch (h : Counts channels pending next) (id : ConnId)
    (hpending : ∀ ch, (f ch).pending = ch.pending)
    (hreceived : ∀ ch, (f ch).received ≤ ch.received) :
    Counts (channels.modify id f) pending next := by
  cases hch : channels.lookup id with
  | none =>
    rw [Table.modify_of_lookup_eq_none hch]
    exact h
  | some ch =>
    exact h.modify hch (by rw [hpending]) (hpending ch ▸ h.pending_le id ch hch)
      ((hreceived ch).trans (h.received_le id ch hch)) h.buffer

theorem roomFor_touch (channels : ClientChannels) (id : ConnId)
    (hpending : ∀ ch, (f ch).pending = ch.pending) (id' : ConnId) :
    roomFor (channels.modify id f) id' = roomFor channels id' :=
  Table.elim_modify_of_eq (fun ch => by rw [hpending]) channels id id'

theorem receivedOn_touch_le (channels : ClientChannels) (id : ConnId)
    (hreceived : ∀ ch, (f ch).received ≤ ch.received) (id' : ConnId) :
    receivedOn (channels.modify id f) id' ≤ receivedOn channels id' :=
  Table.elim_modify_le hreceived channels id id'

end Counts

variable {t t' : Client} {unsent owed unsent' owed' : ConnId → Nat} {channels : ClientChannels}

/-- Without a client's part, whatever the client had promised. -/
theorem linkOk_abandon {next : Nat} {l : Link}
    (h : LinkOk next channels unsent owed l) : LinkOk next ∅ nothing nothing l := by
  exact h.recount (Nat.le_refl next) (fun id => by rw [roomFor_empty]; exact Nat.zero_le _)
    (fun id => by rw [receivedOn_empty]; exact Nat.zero_le _)

namespace Inv

/-- The host's scripts and clock, and the client's bookkeeping of time and events, do not matter. -/
theorem congr (h : Inv t unsent owed) (hsame : t'.books = t.books) : Inv t' unsent owed := by
  simp only [books, Prod.mk.injEq] at hsame
  obtain ⟨hchannels, hpending, hnext, hconnection, hrefusals, hlink, hold⟩ := hsame
  constructor
  · rw [hchannels, hpending, hnext]; exact h.counts
  · rw [hnext]; exact h.next
  · rw [hconnection, hchannels]; exact h.quiet
  · rw [hlink, hnext, hchannels]; exact h.link
  · rw [hold, hnext]; exact h.old
  · rw [hrefusals]; exact h.refusals

theorem mono (h : Inv t unsent owed) (hunsent : ∀ id, unsent' id ≤ unsent id)
    (howed : ∀ id, owed' id ≤ owed id) : Inv t unsent' owed' :=
  { h with
    link := fun l hl => (h.link l hl).recount (Nat.le_refl _)
      (fun id => Nat.add_le_add_left (hunsent id) _) (fun id => Nat.add_le_add_left (howed id) _) }

/-- Giving the connection up clears every promise. -/
theorem fail (h : Inv t unsent owed) (unsent' owed' : ConnId → Nat) : Inv t.fail unsent' owed' :=
  { h with
    counts := counts_empty t.next
    quiet _ id := receivedOn_empty id
    link l hl := by cases hl
    old l hl := by
      rcases List.mem_append.1 hl with hl | hl
      · exact linkOk_abandon (h.link l (Option.mem_toList.1 hl))
      · exact h.old l hl }

/-! ## Writing -/

section Write

variable {message : Message} {f : Frame} (hframe : message.toFrame = some f)
variable (hdata : ∀ id, f.dataBytes id + unsent' id ≤ unsent id)
variable (hcredit : ∀ id, f.creditBytes id + owed' id ≤ owed id)
variable (hnamed : ∀ id, f.channel = some id → id ≤ t.next) (hbad : ¬ f.BadCredit)

include hframe hdata hcredit hnamed hbad

theorem write (h : Inv t unsent owed) :
    Inv { t with host := (RelayHost.write t.host message).2 } unsent' owed' :=
  { h with
    link := by
      intro l hl
      obtain ⟨l', hl', rfl⟩ := Option.map_eq_some_iff.1 hl
      rw [hframe]
      exact (h.link l' hl').push hdata hcredit hnamed hbad
    old := h.old }

theorem send (h : Inv t unsent owed) : Inv (t.send message).2 unsent' owed' := by
  have hwritten := h.write hframe hdata hcredit hnamed hbad
  unfold TungsteniteTransport.send
  split
  · exact h.mono (fun id => (Nat.le_add_left _ _).trans (hdata id))
      (fun id => (Nat.le_add_left _ _).trans (hcredit id))
  · dsimp only
    split
    · exact h.fail _ _
    · rcases hw : RelayHost.write t.host message with ⟨result, host⟩
      rw [hw] at hwritten
      cases result with
      | failed => exact hwritten.fail _ _
      | ok | wouldBlock => exact hwritten.congr rfl

end Write

variable {id : ConnId}

/-- A command that grants nothing. -/
theorem control (h : Inv t unsent owed) (hid : id ≤ t.next) {text : String}
    (hother : Text.stripPrefix "WINDOW " text.toList = none) :
    Inv (t.control id text).2 unsent owed := by
  have hcredit := Frame.creditBytes_address_of_other hother id
  refine h.send (f := .text (address id text)) rfl (fun id' => ?_) (fun id' => ?_)
    (fun id' hid' => ?_) (hcredit id).2
  · rw [Frame.dataBytes_text, Nat.zero_add]
  · rw [(hcredit id').1, Nat.zero_add]
  · rw [Frame.channel_address hid']
    exact hid

theorem flush (h : Inv t unsent owed) : Inv t.flush.2 unsent owed := by
  have hflushed : Inv { t with host := (RelayHost.flush t.host).2 } unsent owed :=
    h.congr rfl
  unfold TungsteniteTransport.flush
  split
  · exact h
  · rcases hf : RelayHost.flush t.host with ⟨result, host⟩
    rw [hf] at hflushed
    cases result with
    | ok => exact hflushed.congr rfl
    | wouldBlock => exact hflushed
    | failed => exact hflushed.fail _ _

/-! ## The client's operations -/

theorem recount (h : Inv t unsent owed) (hhost : t'.host = t.host)
    (hconnection : t'.connection = t.connection) (hnext : t'.next = t.next)
    (hrefusals : t'.refusals = t.refusals) (hcounts : Counts t'.channels t'.pending t'.next)
    (hreceived : t.connection ≠ .live → ∀ id, receivedOn t'.channels id ≤ receivedOn t.channels id)
    (hsend : ∀ id, roomFor t'.channels id + unsent' id ≤ roomFor t.channels id + unsent id)
    (hheld : ∀ id, receivedOn t'.channels id + owed' id ≤ receivedOn t.channels id + owed id) :
    Inv t' unsent' owed' where
  counts := hcounts
  next := by rw [hnext]; exact h.next
  quiet hlive id := by
    have hdead : t.connection ≠ .live := hconnection ▸ hlive
    exact Nat.le_zero.1 (h.quiet hdead id ▸ hreceived hdead id)
  link := by
    rw [hhost, hnext]
    exact fun l hl => (h.link l hl).recount (Nat.le_refl _) hsend hheld
  old := by rw [hhost, hnext]; exact h.old
  refusals := by rw [hrefusals]; exact h.refusals

theorem erase (h : Inv t unsent owed) {id : ConnId} {ch : Channel}
    (hch : t.channels.lookup id = some ch) : Inv { t with
      channels := t.channels.erase id, pending := t.pending - ch.pending } unsent owed :=
  h.recount rfl rfl rfl rfl (h.counts.erase hch) (fun _ => receivedOn_erase_le _ id)
    (fun id' => Nat.add_le_add_right (roomFor_erase_le _ id id') _)
    (fun id' => Nat.add_le_add_right (receivedOn_erase_le _ id id') _)

theorem dial (h : Inv t nothing nothing) (url : String) : Inv (t.dial url).2 nothing nothing := by
  unfold TungsteniteTransport.dial
  split
  · next hidle =>
    have hquiet := h.quiet (by rw [hidle]; decide)
    have hhost : Inv { t with host := (RelayHost.spawnDial t.host url).2 } nothing nothing :=
      h.congr rfl
    rcases hspawn : RelayHost.spawnDial t.host url with ⟨_ | _, host⟩ <;> rw [hspawn] at hhost
    · exact hhost
    · exact { hhost with quiet := fun _ => hquiet }
  · exact h

theorem addChannel (h : Inv t nothing nothing) (hnext : t.next ≠ U32_MAX) :
    Inv t.addChannel nothing nothing where
  counts := h.counts.insert
  next := Nat.succ_le_of_lt (Nat.lt_of_le_of_ne h.next hnext)
  quiet hlive id := by
    have hzero := h.quiet hlive id
    refine (Table.elim_insert t.channels (t.next + 1) {} id).trans ?_
    split
    · rfl
    · exact hzero
  link l hl := (h.link l hl).addChannel
  old l hl := (h.old l hl).recount (Nat.le_succ _) (fun _ => Nat.le_refl _) fun _ => Nat.le_refl _
  refusals := h.refusals

theorem connect (h : Inv t nothing nothing) (url : String) :
    Inv (t.connect url).2 nothing nothing := by
  unfold TungsteniteTransport.connect
  split
  · exact h
  · next hfree =>
    have hdial := h.dial url
    have hsame : (t.dial url).2.next = t.next := by
      unfold TungsteniteTransport.dial
      split
      · rcases RelayHost.spawnDial t.host url with ⟨_ | _, host⟩ <;> rfl
      · rfl
    rcases hd : t.dial url with ⟨_ | _, t'⟩ <;> rw [hd] at hdial hsame
    · exact hdial
    · exact hdial.addChannel fun hmax => hfree (.inr (hsame ▸ hmax))

/-- A command that starts with another letter grants nothing. -/
theorem stripPrefix_window_of_other {start : String} {text : List Char} {c : Char}
    {cs : List Char} (hstart : start.toList = c :: cs) (hc : c ≠ 'W')
    (h : (Text.stripPrefix start text).isSome) : Text.stripPrefix "WINDOW " text = none := by
  obtain ⟨rest, hrest⟩ := Option.isSome_iff_exists.1 h
  rw [Text.stripPrefix_eq_some_iff, hstart] at hrest
  cases hwindow : Text.stripPrefix "WINDOW " text with
  | none => rfl
  | some rest' =>
    rw [Text.stripPrefix_eq_some_iff, hrest] at hwindow
    exact absurd (List.cons.inj hwindow).1 hc

/-- A flag of a channel is set. -/
theorem touch (h : Inv t unsent owed) (id : ConnId) {f : Channel → Channel}
    (hpending : ∀ ch, (f ch).pending = ch.pending)
    (hreceived : ∀ ch, (f ch).received = ch.received) : Inv (t.modifyChannel id f) unsent owed := by
  have hheld := receivedOn_touch_le t.channels id fun ch => (hreceived ch).le
  exact h.recount rfl rfl rfl rfl (h.counts.touch id hpending fun ch => (hreceived ch).le)
    (fun _ => hheld)
    (fun id' => Nat.add_le_add_right (roomFor_touch t.channels id hpending id').le _)
    (fun id' => Nat.add_le_add_right (hheld id') _)

theorem sendText (h : Inv t nothing nothing) (id : ConnId) (text : String) :
    Inv (t.sendText id text).2 nothing nothing := by
  unfold TungsteniteTransport.sendText
  cases hch : t.channels.lookup id with
  | none => exact h
  | some channel =>
    have hid := h.counts.known id channel hch
    dsimp only
    split
    · exact h
    · split
      · split
        · exact h
        · next hstarts =>
          have hother : Text.stripPrefix "WINDOW " text.toList = none := by
            have hcommand : startsCommand text = true := by simpa using hstarts
            rcases Bool.or_eq_true_iff.1 hcommand with hc | hc
            · exact stripPrefix_window_of_other rfl (by decide) hc
            · exact stripPrefix_window_of_other rfl (by decide) hc
          have hstarted := h.touch id (f := fun ch => { ch with started := true })
            (fun _ => rfl) (fun _ => rfl)
          exact hstarted.control hid hother
      · split
        · exact h
        · next hfin =>
          rw [not_not] at hfin
          rw [hfin]
          exact h.control hid (by decide)

def on (id : ConnId) (n : Nat) : ConnId → Nat :=
  fun id' => if id = id' then n else 0

/-- The frames of a message carry its bytes, and no more. -/
theorem sum_chunks_le (fuel : Nat) (data : List U8) :
    ((chunks fuel data).map List.length).sum ≤ data.length := by
  induction fuel generalizing data with
  | zero => exact Nat.zero_le _
  | succ fuel ih =>
    cases data with
    | nil => exact Nat.zero_le _
    | cons b data =>
      have hrest := ih ((b :: data).drop FRAME)
      have hcut : ((b :: data).take FRAME).length + ((b :: data).drop FRAME).length =
          (b :: data).length := by
        rw [← List.length_append, List.take_append_drop]
      simp only [chunks, List.map_cons, List.sum_cons]
      omega

/-- Chunk after chunk, what is left unsent shrinks by what is written. -/
theorem sendChunks (chunks : List (List U8)) (t : Client)
    (h : Inv t (on id (chunks.map List.length).sum) nothing) (hid : id ≤ t.next) :
    Inv (TungsteniteTransport.sendChunks id chunks t).2 nothing nothing := by
  induction chunks generalizing t with
  | nil => exact h.mono (fun _ => Nat.zero_le _) (fun _ => Nat.zero_le _)
  | cons chunk rest ih =>
    have hword : id < 2 ^ 32 := Nat.lt_of_le_of_lt (hid.trans h.next) (by decide)
    have hsent : Inv (t.send (.binary (encodeData id chunk))).2
        (on id (rest.map List.length).sum) nothing := by
      refine h.send rfl (fun id' => ?_) (fun _ => Nat.le_refl _) (fun id' hid' => ?_)
        (Frame.not_badCredit_binary _)
      · have hbytes := Frame.dataBytes_encodeData hword id' chunk
        simp only [on, List.map_cons, List.sum_cons]
        by_cases heq : id = id'
        · simp only [if_pos heq] at hbytes ⊢
          omega
        · simp only [if_neg heq] at hbytes ⊢
          exact hbytes
      · rw [Frame.channel_encodeData hword hid']
        exact hid
    have hnext := next_send t (.binary (encodeData id chunk))
    unfold TungsteniteTransport.sendChunks
    rw [show Bytes.toBE 4 (BitVec.ofNat 32 id) ++ chunk = encodeData id chunk from rfl]
    rcases hs : t.send (.binary (encodeData id chunk)) with ⟨_ | _, t'⟩ <;>
      rw [hs] at hsent hnext
    · exact hsent.mono (fun _ => Nat.zero_le _) (fun _ => Nat.zero_le _)
    · exact ih t' hsent (hid.trans_eq hnext.symm)

theorem sendBinary (h : Inv t nothing nothing) (id : ConnId) (data : List U8) :
    Inv (t.sendBinary id data).2 nothing nothing := by
  unfold TungsteniteTransport.sendBinary
  cases hch : t.channels.lookup id with
  | none => exact h
  | some channel =>
    dsimp only
    split
    · exact h
    · next hroom =>
      rw [not_or, not_or] at hroom
      obtain ⟨-, hwindow, hbuffer⟩ := hroom
      have hcounted : Inv { t.modifyChannel id fun ch =>
          { ch with pending := ch.pending + data.length } with
          pending := t.pending + data.length } (on id data.length) nothing := by
        have hroom := roomFor_modify hch fun ch =>
          { ch with pending := ch.pending + data.length }
        have hsame := receivedOn_touch_le t.channels id
          (f := fun ch => { ch with pending := ch.pending + data.length }) fun _ => Nat.le_refl _
        refine h.recount rfl rfl rfl rfl (h.counts.modify hch (by dsimp only; omega)
          (Nat.le_of_not_lt hwindow) (h.counts.received_le id channel hch)
          (Nat.le_of_not_lt hbuffer)) (fun _ => hsame) (fun id' => ?_) hsame
        change roomFor (t.channels.modify id _) id' + on id data.length id' ≤
          roomFor t.channels id' + 0
        rw [hroom]
        unfold on
        by_cases heq : id' = id
        · rw [if_pos heq, if_pos heq.symm, heq, roomFor_of_lookup hch]
          dsimp only
          change ¬ MUX_WINDOW < channel.pending + data.length at hwindow
          omega
        · rw [if_neg heq, if_neg (Ne.symm heq)]
      refine sendChunks _ _ (hcounted.mono (fun id' => ?_) fun _ => Nat.le_refl _)
        (h.counts.known id channel hch)
      have hsum := sum_chunks_le data.length data
      unfold on
      split
      · exact hsum
      · exact Nat.le_refl _

theorem close (h : Inv t nothing nothing) (id : ConnId) : Inv (t.close id) nothing nothing := by
  unfold TungsteniteTransport.close
  cases hch : t.channels.lookup id with
  | none => exact h.congr rfl
  | some channel =>
    have herased := h.erase hch
    dsimp only
    split
    · have hclosed := (herased.control (h.counts.known id channel hch)
        (by decide : Text.stripPrefix "WINDOW " "CLOSE".toList = none)).flush
      exact hclosed.congr rfl
    · exact herased.congr rfl

/-! ## Reading -/

/-- What a frame carries is no longer on the link and not yet in the client's counts. -/
theorem take {l l' : Link} {f : Frame} (h : Inv t nothing nothing) (hl : t.host.link = some l)
    (htake : l.takeDown = some (f, l')) {host : Net} (hlink : host.link = some l')
    (hold : host.old = t.host.old) (receivedAt : Option Nat) :
    Inv { t with host, receivedAt } f.ackBytes f.dataBytes :=
  { h with
    link l'' hl'' := by
      obtain rfl : l' = l'' := Option.some.inj (hlink.symm.trans hl'')
      exact (h.link l hl).take htake
    old := by
      rw [hold]
      exact h.old }

/-- A message is handled, or refused for a reason that is not about credit. -/
def Settled : Except Refusal Client → Prop
  | .ok t => Inv t nothing nothing
  | .error refusal => refusal.Harmless

section Receive

variable {f : Frame} {l : Link} {ch : Channel} (h : Inv t f.ackBytes f.dataBytes)
variable (hl : t.host.link = some l) (hlive : t.connection = .live)

include h

/-- A frame may be read and passed over. -/
theorem ignored : Inv t nothing nothing :=
  h.mono (fun _ => Nat.zero_le _) fun _ => Nat.zero_le _

include hl hlive

theorem onCommand (hack : ¬ f.BadAck) {line : String} (hf : f = .text line) {command : List Char}
    (hsplit : splitControl line.toList = some (id, command))
    (hch : t.channels.lookup id = some ch) : Settled (t.onCommand id ch command) := by
  unfold TungsteniteTransport.onCommand
  cases hstrip : Text.stripPrefix "ACK " command with
  | some value =>
    dsimp only
    cases hread : positive value WINDOW with
    | none => exact absurd ⟨line, id, command, value, hf, hsplit, hstrip, hread⟩ hack
    | some bytes =>
      have hbytes : ∀ id', f.ackBytes id' = if id = id' then bytes else 0 := by
        rw [hf]
        exact Frame.ackBytes_of_split hsplit hstrip hread
      -- The account says that so much is outstanding.
      have hle : bytes ≤ ch.pending := by
        have htotal := (h.link l hl).upload id
        simp only [Credit.Account.total, MultiplexPeer.upload, roomFor_of_lookup hch, hbytes,
          if_pos] at htotal
        omega
      have htotal := h.counts.le_pending hch
      dsimp only
      rw [if_neg (Nat.not_lt.2 hle)]
      refine h.recount rfl rfl rfl rfl (h.counts.modify hch ?_ ?_ (h.counts.received_le id ch hch)
        ((Nat.sub_le _ _).trans h.counts.buffer)) (fun hdead => absurd hlive hdead) (fun id' => ?_)
        fun id' => ?_
      · dsimp only
        omega
      · exact (Nat.sub_le _ _).trans (h.counts.pending_le id ch hch)
      · change roomFor (t.channels.modify id _) id' + 0 ≤ _
        rw [roomFor_modify hch, hbytes]
        by_cases heq : id' = id
        · rw [if_pos heq, if_pos heq.symm, heq, roomFor_of_lookup hch]
          dsimp only
          omega
        · rw [if_neg heq]
          exact Nat.le_add_right _ _
      · exact (receivedOn_touch_le t.channels id (fun _ => by rfl) id').trans
          (Nat.le_add_right _ _)
  | none =>
    dsimp only
    split
    · exact (h.ignored.erase hch).congr rfl
    · split
      · exact h.ignored.congr rfl
      · exact .inl rfl

theorem onData {data bytes : List U8} (hf : f = .binary data)
    (hsplit : splitData data = some (id, bytes)) (hch : t.channels.lookup id = some ch) :
    Settled (t.onData id ch bytes) := by
  have hbytes : ∀ id', f.dataBytes id' = if id = id' then bytes.length else 0 := by
    rw [hf]
    exact Frame.dataBytes_of_decode (Frame.decodeData_of_splitData hsplit)
  -- The account says that the data fits the window.
  have hle : ch.received + bytes.length ≤ WINDOW := by
    have htotal := (h.link l hl).download id
    simp only [Credit.Account.total, MultiplexPeer.download, receivedOn_of_lookup hch, hbytes,
      if_pos] at htotal
    change _ ≤ MUX_WINDOW
    omega
  unfold TungsteniteTransport.onData
  rw [if_neg (Nat.not_lt.2 hle)]
  refine h.recount rfl rfl rfl rfl (h.counts.modify hch rfl (h.counts.pending_le id ch hch) hle
    h.counts.buffer) (fun hdead => absurd hlive hdead) (fun id' => ?_) fun id' => ?_
  · exact (roomFor_touch t.channels id (fun _ => by rfl) id').le.trans (Nat.le_add_right _ _)
  · change receivedOn (t.channels.modify id _) id' + 0 ≤ _
    rw [receivedOn_modify hch, hbytes]
    by_cases heq : id' = id
    · rw [if_pos heq, if_pos heq.symm, heq, receivedOn_of_lookup hch]
      exact Nat.le_refl _
    · rw [if_neg heq]
      exact Nat.le_add_right _ _

/-- A frame of the relay is settled by the client. -/
theorem receive (hack : ¬ f.BadAck) : Settled ((t.receive f.toMessage).map (·.2)) := by
  cases hf : f with
  | text line =>
    simp only [Frame.toMessage, TungsteniteTransport.receive]
    split
    · exact h.ignored
    · split
      · exact .inl rfl
      · cases hsplit : splitControl line.toList with
        | none => exact .inl rfl
        | some ic =>
          obtain ⟨id, command⟩ := ic
          dsimp only
          cases hch : t.channels.lookup id with
          | none => exact h.ignored
          | some ch =>
            have hsettled := h.onCommand hl hlive hack hf hsplit hch
            dsimp only
            revert hsettled
            cases t.onCommand id ch command with
            | ok t₂ => exact fun hinv => hinv
            | error refusal => exact fun hharmless => hharmless
  | binary data =>
    simp only [Frame.toMessage, TungsteniteTransport.receive]
    cases hsplit : splitData data with
    | none => exact .inl rfl
    | some ib =>
      obtain ⟨id, bytes⟩ := ib
      dsimp only
      cases hch : t.channels.lookup id with
      | none => exact h.ignored
      | some ch =>
        have hsettled := h.onData hl hlive hf hsplit hch
        dsimp only
        revert hsettled
        cases t.onData id ch bytes with
        | ok t₂ => exact fun hinv => hinv
        | error refusal => exact fun hharmless => hharmless

end Receive

/-! ## Polling -/

theorem openWaiting (h : Inv t nothing nothing) : Inv t.openWaiting nothing nothing := by
  refine List.foldlRecOn (motive := fun t => Inv t nothing nothing) _ _ h fun t h id _ => ?_
  split
  · exact h
  · split
    · exact h
    · exact (h.touch id (f := fun ch => { ch with opened := true }) (fun _ => rfl)
        fun _ => rfl).congr rfl

theorem refuse (h : Inv t unsent owed) {refusal : Refusal} (hharmless : refusal.Harmless) :
    Inv { t with refusals := t.refusals ++ [refusal] } unsent owed :=
  { h with
    refusals := fun r hr => by
      rcases List.mem_append.1 hr with hr | hr
      · exact h.refusals r hr
      · rw [List.mem_singleton.1 hr]
        exact hharmless }

theorem readLoop (h : Inv t nothing nothing) (reads bytes : Nat) :
    Inv (TungsteniteTransport.readLoop reads bytes t) nothing nothing := by
  induction reads generalizing t bytes with
  | zero => exact h
  | succ reads ih =>
    unfold TungsteniteTransport.readLoop
    split
    · exact h
    · next hgo =>
      rw [not_or, not_not] at hgo
      have hreads := Net.reads_read t.host
      rcases hr : RelayHost.read t.host with ⟨result, host⟩
      rw [hr] at hreads
      cases hreads with
      | @frame l l' f _ hlink htake hlink' hold =>
        have htaken := h.take hlink htake hlink' hold (some (RelayHost.now host))
        have hmem : f ∈ l.peer.down := by
          rw [(Link.takeDown_eq_some htake).1]
          exact List.mem_cons_self
        have hsettled := htaken.receive hlink' hgo.2 ((h.link l hlink).good.acks f hmem)
        dsimp only
        cases hresult : TungsteniteTransport.receive
            { t with host, receivedAt := some (RelayHost.now host) } f.toMessage with
        | ok r =>
          rw [hresult] at hsettled
          exact ih hsettled _
        | error refusal =>
          rw [hresult] at hsettled
          exact (htaken.ignored.refuse hsettled).fail nothing nothing
      | other hlink hold hresult =>
        have hhost : Inv { t with host } nothing nothing :=
          h.congr (by simp only [books, hlink, hold])
        cases result with
        | wouldBlock => exact hhost
        | failed => exact hhost.fail nothing nothing
        | ok message =>
          have htimed : Inv { t with host, receivedAt := some (RelayHost.now host) }
              nothing nothing :=
            h.congr (by simp only [books, hlink, hold])
          rcases hresult message rfl with rfl | rfl | rfl
          · exact ih htimed _
          · exact ih htimed _
          · exact (htimed.refuse (.inr rfl)).fail nothing nothing

/-! ### Granting credit -/

/-- What a list of grants comes to on one channel. -/
def grantsOn (consumed : List (ConnId × Nat)) (id : ConnId) : Nat :=
  (consumed.map fun c => on c.1 c.2 id).sum

@[simp]
theorem grantsOn_cons (c : ConnId × Nat) (consumed : List (ConnId × Nat)) (id : ConnId) :
    grantsOn (c :: consumed) id = on c.1 c.2 id + grantsOn consumed id := by
  simp [grantsOn]

/-- Grant after grant, what is owed becomes credit in flight. -/
theorem grantAll (consumed : List (ConnId × Nat)) (t : Client)
    (h : Inv t nothing (grantsOn consumed))
    (hconsumed : ∀ c ∈ consumed, 0 < c.2 ∧ c.2 ≤ WINDOW ∧ c.1 ≤ t.next) :
    Inv (consumed.foldl (fun t c => (t.control c.1 s!"WINDOW {c.2}").2) t) nothing nothing := by
  induction consumed generalizing t with
  | nil => exact h.mono (fun _ => Nat.le_refl _) (fun _ => Nat.zero_le _)
  | cons c rest ih =>
    obtain ⟨hpos, hwindow, hid⟩ := hconsumed c List.mem_cons_self
    have hcredit := Frame.creditBytes_grant hpos hwindow c.1
    have hsent : Inv (t.control c.1 s!"WINDOW {c.2}").2 nothing (grantsOn rest) := by
      refine h.send (f := .text (address c.1 s!"WINDOW {c.2}")) rfl (fun _ => Nat.le_refl _)
        (fun id => ?_) (fun id hid' => ?_) (hcredit c.1).2
      · exact Nat.add_le_add_right (hcredit id).1 _
      · rw [Frame.channel_address hid']
        exact hid
    refine ih _ hsent fun c' hc' => ?_
    have hnext : (t.control c.1 s!"WINDOW {c.2}").2.next = t.next := next_send t _
    rw [hnext]
    exact hconsumed c' (List.mem_cons_of_mem c hc')

theorem grantFor_eq_some {c : ConnId × Nat} (h : t.grantFor id = some c) :
    c.1 = id ∧ 0 < c.2 ∧ ∃ ch, t.channels.lookup id = some ch ∧ c.2 = ch.received := by
  unfold grantFor at h
  split at h
  · next ch hch =>
    split at h
    · next hpos =>
      cases h
      exact ⟨rfl, hpos, ch, hch, rfl⟩
    · cases h
  · cases h

/-- Each channel is granted once, and no more than it has received. -/
theorem grantsOn_filterMap_le {ids : List ConnId} (hids : ids.Nodup) (id : ConnId) :
    grantsOn (ids.filterMap t.grantFor) id ≤ if id ∈ ids then receivedOn t.channels id else 0 := by
  induction ids with
  | nil => exact Nat.le_refl _
  | cons id' ids ih =>
    obtain ⟨hnot, hrest⟩ := List.nodup_cons.1 hids
    have hih := ih hrest
    cases hgrant : t.grantFor id' with
    | none =>
      rw [List.filterMap_cons_none hgrant]
      refine hih.trans ?_
      by_cases hmem : id ∈ ids
      · rw [if_pos hmem, if_pos (List.mem_cons_of_mem id' hmem)]
      · rw [if_neg hmem]
        exact Nat.zero_le _
    | some c =>
      obtain ⟨hc, -, ch, hch, hreceived⟩ := grantFor_eq_some hgrant
      rw [List.filterMap_cons_some hgrant, grantsOn_cons]
      unfold on
      by_cases heq : id' = id
      · subst heq
        rw [if_neg hnot] at hih
        rw [if_pos hc, if_pos List.mem_cons_self, receivedOn_of_lookup hch, hreceived]
        omega
      · have hother : id ∈ id' :: ids ↔ id ∈ ids := by
          rw [List.mem_cons, or_iff_right (Ne.symm heq)]
        rw [if_neg (hc ▸ heq), Nat.zero_add]
        simp only [hother]
        exact hih

/-- The counts of received bytes are reset. -/
theorem receivedOn_reset (ids : List ConnId) (channels : ClientChannels) (id : ConnId) :
    receivedOn (resetReceived ids channels) id ≤
      if id ∈ ids then 0 else receivedOn channels id := by
  induction ids generalizing channels with
  | nil => exact Nat.le_refl _
  | cons id' ids ih =>
    refine (ih _).trans ?_
    have hzero : receivedOn (channels.modify id' fun ch => { ch with received := 0 }) id ≤
        if id = id' then 0 else receivedOn channels id := by
      unfold receivedOn
      rw [Table.lookup_modify]
      split
      · cases channels.lookup id <;> exact Nat.le_refl _
      · exact Nat.le_refl _
    by_cases hmem : id ∈ ids
    · rw [if_pos hmem]
      exact Nat.zero_le _
    · rw [if_neg hmem]
      refine hzero.trans ?_
      by_cases heq : id = id'
      · rw [if_pos heq]
        exact Nat.zero_le _
      · rw [if_neg heq, if_neg (fun h => (List.mem_cons.1 h).elim heq hmem)]

theorem counts_reset (ids : List ConnId) {pending next : Nat} (h : Counts channels pending next) :
    Counts (resetReceived ids channels) pending next ∧
      ∀ id, roomFor (resetReceived ids channels) id = roomFor channels id := by
  induction ids generalizing channels with
  | nil => exact ⟨h, fun _ => rfl⟩
  | cons id' ids ih =>
    obtain ⟨hcounts, hroom⟩ := ih (h.touch id' (f := fun ch => { ch with received := 0 })
      (fun _ => rfl) fun _ => Nat.zero_le _)
    refine ⟨hcounts, fun id => (hroom id).trans ?_⟩
    exact roomFor_touch channels id' (f := fun ch => { ch with received := 0 }) (fun _ => rfl) id

section

variable (h : Inv t nothing nothing)

include h

theorem grant : Inv t.grant nothing nothing := by
  have hnodup : t.ids.Nodup :=
    (List.perm_insertionSort (· ≤ ·) t.channels.keys).nodup_iff.2 t.channels.keys_nodup
  obtain ⟨hcounts, hroom⟩ := counts_reset t.ids h.counts
  have hreset := receivedOn_reset t.ids t.channels
  have hle : ∀ id, receivedOn t.takeReceived.2.channels id +
      grantsOn (t.ids.filterMap t.grantFor) id ≤ receivedOn t.channels id + 0 := by
    intro id
    have hgrants := grantsOn_filterMap_le (t := t) hnodup id
    have hzero := hreset id
    change receivedOn (resetReceived t.ids t.channels) id + _ ≤ _
    split at hgrants <;> rename_i hmem
    · rw [if_pos hmem] at hzero
      omega
    · rw [if_neg hmem] at hzero
      omega
  have htaken : Inv t.takeReceived.2 nothing (grantsOn (t.ids.filterMap t.grantFor)) :=
    h.recount rfl rfl rfl rfl hcounts (fun _ id => (Nat.le_add_right _ _).trans (hle id))
      (fun id => Nat.add_le_add_right (hroom id).le _) hle
  refine grantAll _ _ htaken fun c hc => ?_
  obtain ⟨id, -, hgrant⟩ := List.mem_filterMap.1 hc
  obtain ⟨rfl, hpos, ch, hch, hreceived⟩ := grantFor_eq_some hgrant
  exact ⟨hpos, hreceived ▸ h.counts.received_le _ ch hch, h.counts.known _ ch hch⟩

theorem keepAlive : Inv t.keepAlive nothing nothing := by
  unfold TungsteniteTransport.keepAlive
  dsimp only
  split
  · exact h.fail _ _
  · split
    · have hsent : Inv (t.send (.text "PING")).2 nothing nothing := by
        refine h.send (f := .text "PING") rfl (fun _ => Nat.le_refl _) (fun id => ?_)
          (fun id hid => ?_) ?_
        · exact Nat.le_refl _
        · cases hid
        · rintro ⟨line, id, command, error, heq, hdecode, -⟩
          cases heq
          cases hdecode
      exact hsent.congr rfl
    · exact h

theorem plug (hquiet : ∀ id, receivedOn t.channels id = 0) (connection : Connection) :
    Inv { t with host := t.host.plug, connection } nothing nothing :=
  { h with
    quiet _ := hquiet
    link l hl := by
      cases hl
      exact LinkOk.new t.next hquiet _
    old l hl := by
      rcases List.mem_append.1 hl with hl | hl
      · exact linkOk_abandon (h.link l (Option.mem_toList.1 hl))
      · exact h.old l hl }

theorem finishDial : Inv t.finishDial.2 nothing nothing := by
  unfold TungsteniteTransport.finishDial
  split
  · exact h
  · next hdialing =>
    rw [not_not] at hdialing
    have hquiet := h.quiet (by rw [hdialing]; decide)
    have hwaited : Inv { t with host := { t.host.tick with dials := t.host.dials.tail } }
        nothing nothing :=
      h.congr rfl
    rw [Net.tryRecv_eq]
    cases t.host.dials.headD .empty with
    | connected => exact (hwaited.plug hquiet .live).congr rfl
    | refused => exact hwaited.fail _ _
    | empty => exact hwaited

theorem turn : Inv t.turn nothing nothing := by
  have hflush := h.flush
  unfold TungsteniteTransport.turn
  rcases hf : t.flush with ⟨_ | _, t₁⟩ <;> rw [hf] at hflush
  · exact hflush
  · exact (hflush.openWaiting.readLoop MAX_READS 0).grant.keepAlive.flush

theorem poll (now : U64) : Inv (t.poll now).2 nothing nothing := by
  have hdial := h.finishDial
  unfold TungsteniteTransport.poll
  rcases hd : t.finishDial with ⟨_ | _, t₁⟩ <;> rw [hd] at hdial
  · exact hdial.congr rfl
  · exact hdial.turn.congr rfl

end

end Inv

end TungsteniteTransport

end EmulateComputer
