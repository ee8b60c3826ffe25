import EmulateComputer.Relay.PeerAccounts

/-!
# CreditLink — one connection between the native client and the relay

A `Link` is the relay's peer and the frames on their way to it; the frames on their way to the
client are on the peer's wire.  `LinkOk` is the invariant of a link, in terms of the client's
channels: for every channel the two credit accounts hold at most a window.  A channel that the
client has given up has no client's part in its accounts, so the invariant survives a close and,
with no channels at all, the end of the connection, after which the relay may still handle what was
sent.

While the client is inside an operation, data may be counted as pending and not yet be written, and
credit may be taken from a channel and not yet be granted.  These amounts stand in the accounts as
`unsent` and `owed`.
-/

namespace EmulateComputer

open Mux Credit MultiplexPeer

structure Link where
  up : List Frame
  peer : Peer

abbrev ClientChannels := Table ConnId TungsteniteTransport.Channel

/-- What the client may still send on a channel. -/
def roomFor (channels : ClientChannels) (id : ConnId) : Nat :=
  (channels.lookup id).elim 0 (MUX_WINDOW - ·.pending)

/-- What the client has read on a channel since it last granted credit. -/
def receivedOn (channels : ClientChannels) (id : ConnId) : Nat :=
  (channels.lookup id).elim 0 (·.received)

/-- A refusal that is not about credit or windows. -/
def Harmless (refusal : MuxRefusal) : Prop :=
  refusal ≠ .windowExceeded ∧ refusal ≠ .thrown "excess credit" ∧
    refusal ≠ .thrown "invalid credit"

instance (refusal : MuxRefusal) : Decidable (Harmless refusal) :=
  inferInstanceAs (Decidable (_ ∧ _))

structure LinkOk (next : Nat) (channels : ClientChannels) (unsent owed : ConnId → Nat)
    (l : Link) : Prop where
  good : l.peer.Good
  upload : ∀ id, (l.peer.upload id (roomFor channels id) (dataIn l.up id + unsent id)).total ≤
    MUX_WINDOW
  download : ∀ id, (l.peer.download id (receivedOn channels id + owed id)
    (creditIn l.up id)).total ≤ MUX_WINDOW
  /-- Nothing has been said about a channel the relay has not heard of. -/
  fresh : ∀ id, l.peer.lastId < id → dataIn l.peer.down id = 0 ∧ acksIn l.peer.down id = 0 ∧
    creditIn l.up id = 0 ∧ receivedOn channels id + owed id = 0
  named : ∀ f ∈ l.up, ∀ id, f.channel = some id → id ≤ next
  lastId : l.peer.lastId ≤ next
  credits : ∀ f ∈ l.up, ¬ f.BadCredit
  refusals : ∀ r ∈ l.peer.refusals, Harmless r

namespace LinkOk

variable {next : Nat} {channels : ClientChannels} {unsent owed : ConnId → Nat}
variable {p q : Peer} {up : List Frame} {f : Frame}

variable {id : Nat} {command : List Char} {error line : String}

/-- A channel the relay has not heard of has no object. -/
theorem counts_of_fresh (hp : p.Good) (hid : p.lastId < id) :
    p.available id = 0 ∧ p.incoming id = 0 := by
  have hnone : p.heap.lookup id = none := by
    cases hch : p.heap.lookup id with
    | none => rfl
    | some ch => exact absurd (hp.known id ch hch) (Nat.not_le_of_lt hid)
  unfold MultiplexPeer.available MultiplexPeer.incoming
  rw [hnone]
  exact ⟨rfl, rfl⟩

/-- The relay moves credit as it should. -/
theorem serves (h : LinkOk next channels unsent owed ⟨up, p⟩) (hserves : p.Serves q) :
    LinkOk next channels unsent owed ⟨up, q⟩ where
  good := hserves.good h.good
  upload id := (hserves.upload h.good id _ _).total_le.trans (h.upload id)
  download id := (hserves.download h.good id _ _).total_le.trans (h.download id)
  fresh id hid := by
    have hid' : p.lastId < id := by rw [← hserves.lastId]; exact hid
    obtain ⟨hdata, hacks, hcredit, hheld⟩ := h.fresh id hid'
    obtain ⟨hav, hin⟩ := counts_of_fresh h.good hid'
    have hdown := (hserves.download h.good id 0 0).total_le
    have hup := (hserves.upload h.good id 0 0).total_le
    simp only [Account.total, MultiplexPeer.download, MultiplexPeer.upload] at hdown hup
    rw [hav, hdata] at hdown
    rw [hin, hacks] at hup
    dsimp only
    exact ⟨by omega, by omega, hcredit, hheld⟩
  named := h.named
  lastId := hserves.lastId.trans_le h.lastId
  credits := h.credits
  refusals := by
    rw [hserves.refusals]
    exact h.refusals

/-- A frame that the relay passes over. -/
theorem drop (h : LinkOk next channels unsent owed ⟨f :: up, p⟩) :
    LinkOk next channels unsent owed ⟨up, p⟩ where
  good := h.good
  upload id := by
    refine le_trans (Step.total_le ?_) (h.upload id)
    refine .forget (Nat.le_refl _) ?_ (Nat.le_refl _) (Nat.le_refl _)
    change dataIn up id + unsent id ≤ dataIn (f :: up) id + unsent id
    rw [dataIn_cons]
    omega
  download id := by
    refine le_trans (Step.total_le ?_) (h.download id)
    refine .forget (Nat.le_refl _) (Nat.le_refl _) (Nat.le_refl _) ?_
    change creditIn up id ≤ creditIn (f :: up) id
    rw [creditIn_cons]
    omega
  fresh id hid := by
    obtain ⟨hdata, hacks, hcredit, hheld⟩ := h.fresh id hid
    exact ⟨hdata, hacks, (Nat.add_eq_zero_iff.1 hcredit).2, hheld⟩
  named g hg := h.named g (List.mem_cons_of_mem f hg)
  lastId := h.lastId
  credits g hg := h.credits g (List.mem_cons_of_mem f hg)
  refusals := h.refusals

/-- The peer stops over a message, for a reason that is not about credit. -/
theorem refuse (h : LinkOk next channels unsent owed ⟨up, p⟩) (herror : Harmless (.thrown error)) :
    LinkOk next channels unsent owed ⟨up, (p.refuse (.thrown error)).stop⟩ := by
  have hrefuse : LinkOk next channels unsent owed ⟨up, p.refuse (.thrown error)⟩ :=
    ⟨⟨h.good.plain, h.good.incoming, h.good.known, h.good.lastId, h.good.acks⟩, h.upload,
      h.download, h.fresh, h.named, h.lastId, h.credits, fun r hr => by
        rcases List.mem_append.1 hr with hr | hr
        · exact h.refusals r hr
        · rw [List.mem_singleton.1 hr]
          exact herror⟩
  exact hrefuse.serves (still_stop _).serves

/-! ## Messages of the client -/

/-- Data for a channel: the account has room for what is in flight. -/
theorem receive {bytes data : List U8} (hdecode : decodeData bytes = .ok (id, data))
    (h : LinkOk next channels unsent owed ⟨.binary bytes :: up, p⟩) :
    LinkOk next channels unsent owed ⟨up, p.receive id data⟩ := by
  have hbytes := Frame.dataBytes_of_decode hdecode
  have hd := h.drop
  unfold MultiplexPeer.receive
  cases hch : p.heap.lookup id with
  | none => exact hd
  | some channel =>
    have hin := incoming_eq_of_lookup hch
    have hnonneg : 0 ≤ p.incoming id := h.good.incoming id
    have hroom := Account.held_add_le (n := data.length) (h.upload id) (by
      change data.length ≤ dataIn (.binary bytes :: up) id + unsent id
      rw [dataIn_cons, hbytes, if_pos rfl]
      omega)
    change (p.incoming id).toNat + data.length ≤ MUX_WINDOW at hroom
    have hfits : ¬ (MUX_WINDOW : Int) < channel.incoming + data.length := by omega
    dsimp only
    split
    · exact hd
    · have hput : LinkOk next channels unsent owed ⟨up, p.put id fun ch =>
          { ch with incoming := ch.incoming + data.length }⟩ := by
        refine ⟨?_, fun id' => ?_, fun id' => ?_, hd.fresh, hd.named, hd.lastId, hd.credits,
          hd.refusals⟩
        · exact good_put hch _ h.good (h.good.plain id channel hch) (by
            dsimp only
            omega)
        · refine le_trans (Step.total_le ?_) (h.upload id')
          refine .deliver (if id = id' then data.length else 0) rfl ?_ ?_ rfl
          · change dataIn up id' + unsent id' + _ = dataIn (.binary bytes :: up) id' + unsent id'
            rw [dataIn_cons, hbytes]
            omega
          · change (MultiplexPeer.incoming _ id').toNat = (p.incoming id').toNat + _
            rw [incoming_put hch]
            by_cases heq : id' = id
            · rw [if_pos heq, if_pos heq.symm, heq]
              dsimp only
              omega
            · rw [if_neg heq, if_neg (Ne.symm heq), Nat.add_zero]
        · refine le_trans (Step.total_le ?_) (hd.download id')
          refine .forget (le_of_eq ?_) (Nat.le_refl _) (Nat.le_refl _) (Nat.le_refl _)
          exact available_put_of_eq (fun _ => by rfl) p id id'
      exact hput.serves (still_call _ _).serves

/-- Credit for a channel: the account has room for what was granted. -/
theorem window {id bytes : Nat} (hdecode : decodeControl line.toList = .ok (id, command))
    (hcredit : credit command "WINDOW" = .ok (some bytes))
    (h : LinkOk next channels unsent owed ⟨.text line :: up, p⟩) :
    ∃ q, p.window id bytes = .ok q ∧ LinkOk next channels unsent owed ⟨up, q⟩ := by
  have hbytes := Frame.creditBytes_of_decode hdecode hcredit
  have hd := h.drop
  unfold MultiplexPeer.window
  cases hch : p.heap.lookup id with
  | none => exact ⟨p, rfl, hd⟩
  | some channel =>
    have hav := available_eq_of_lookup hch
    have hroom := Account.sender_add_le (n := bytes) (h.download id) (by
      change bytes ≤ creditIn (.text line :: up) id
      rw [creditIn_cons, hbytes, if_pos rfl]
      omega)
    change p.available id + bytes ≤ MUX_WINDOW at hroom
    have hfits : ¬ MUX_WINDOW < channel.available + bytes := by omega
    dsimp only
    rw [if_neg hfits]
    refine ⟨_, rfl, ?_⟩
    have hput : LinkOk next channels unsent owed ⟨up, p.put id fun ch =>
        { ch with available := ch.available + bytes }⟩ := by
      refine ⟨?_, fun id' => ?_, fun id' => ?_, hd.fresh, hd.named, hd.lastId, hd.credits,
        hd.refusals⟩
      · exact good_put hch _ h.good (h.good.plain id channel hch)
          (incoming_eq_of_lookup hch ▸ h.good.incoming id)
      · refine le_trans (Step.total_le ?_) (hd.upload id')
        refine .forget (Nat.le_refl _) (Nat.le_refl _) (le_of_eq ?_) (Nat.le_refl _)
        exact congrArg Int.toNat (incoming_put_of_eq (fun _ => by rfl) p id id')
      · refine le_trans (Step.total_le ?_) (h.download id')
        refine .credit (if id = id' then bytes else 0) ?_ rfl rfl ?_
        · change MultiplexPeer.available _ id' = p.available id' + _
          rw [available_put hch]
          by_cases heq : id' = id
          · rw [if_pos heq, if_pos heq.symm, heq, hav]
          · rw [if_neg heq, if_neg (Ne.symm heq), Nat.add_zero]
        · change creditIn up id' + _ = creditIn (.text line :: up) id'
          rw [creditIn_cons, hbytes, Nat.add_comm]
    exact hput.serves (serves_drainChannel id _ hput.good)

/-- The relay has heard of one more channel. -/
theorem raise (h : LinkOk next channels unsent owed ⟨up, p⟩) (hnew : p.lastId < id)
    (hnext : id ≤ next) (hid : id < 2 ^ 32) :
    LinkOk next channels unsent owed ⟨up, { p with lastId := id }⟩ :=
  { h with
    good := ⟨h.good.plain, h.good.incoming, fun id' ch hch =>
      (h.good.known id' ch hch).trans (Nat.le_of_lt hnew), hid, h.good.acks⟩
    fresh id' hid' := h.fresh id' (Nat.lt_trans hnew hid')
    lastId := hnext }

/-- A new channel starts with a full window: nothing of its credit is anywhere else. -/
theorem open_new (h : LinkOk next channels unsent owed ⟨up, p⟩) (hnew : p.lastId < id)
    (hnext : id ≤ next) (hid : id < 2 ^ 32) (ids : List Nat) :
    LinkOk next channels unsent owed
      ⟨up, { p with lastId := id, heap := p.heap.insert id {}, channels := ids }⟩ := by
  have hr := h.raise hnew hnext hid
  obtain ⟨hav, hin⟩ := counts_of_fresh h.good hnew
  have hin' : ∀ id', ((p.heap.insert id {}).lookup id').elim 0 (·.incoming) = p.incoming id' := by
    intro id'
    rw [Table.elim_insert]
    split
    · next heq => rw [heq, hin]
    · rfl
  refine ⟨⟨Table.forall_insert (fun id' ch _ => h.good.plain id' ch) nofun, fun id' => ?_,
    Table.forall_insert (fun id' ch _ => hr.good.known id' ch) le_rfl, hid, h.good.acks⟩,
    fun id' => ?_, fun id' => ?_, hr.fresh, h.named, hnext, h.credits, h.refusals⟩
  · exact (h.good.incoming id').trans_eq (hin' id').symm
  · refine le_trans (Step.total_le ?_) (h.upload id')
    refine .forget (Nat.le_refl _) (Nat.le_refl _) ?_ (Nat.le_refl _)
    exact (congrArg Int.toNat (hin' id')).le
  · by_cases heq : id' = id
    · obtain ⟨hdata, -, hcredit, hheld⟩ := h.fresh id hnew
      unfold MultiplexPeer.download MultiplexPeer.available
      dsimp only at hdata hcredit ⊢
      rw [Table.lookup_insert, if_pos heq, heq]
      change MUX_WINDOW + dataIn p.down id + (receivedOn channels id + owed id) +
        creditIn up id ≤ MUX_WINDOW
      omega
    · refine le_trans (Step.total_le ?_) (h.download id')
      refine .forget (le_of_eq ?_) (Nat.le_refl _) (Nat.le_refl _) (Nat.le_refl _)
      exact (Table.elim_insert p.heap id {} id').trans (if_neg heq)

theorem harmless_of_decodeData {bytes : List U8}
    (h : decodeData bytes = .error error) : Harmless (.thrown error) := by
  unfold decodeData at h
  dsimp only at h
  split_ifs at h <;> cases h <;> decide

theorem decodeControl_cases (text : List Char) :
    (∃ error, decodeControl text = .error error ∧ Harmless (.thrown error)) ∨
      ∃ id command, decodeControl text = .ok (id, command) ∧ id < 2 ^ 32 := by
  unfold decodeControl
  split
  · exact .inl ⟨_, rfl, by decide⟩
  · split
    · split
      · exact .inl ⟨_, rfl, by decide⟩
      · split
        · exact .inl ⟨_, rfl, by decide⟩
        · next hid => exact .inr ⟨_, _, rfl, by omega⟩
    · exact .inl ⟨_, rfl, by decide⟩

/-- A message is handled, or refused for a reason that is not about credit. -/
def Handled (next : Nat) (channels : ClientChannels) (unsent owed : ConnId → Nat)
    (up : List Frame) : Except String Peer → Prop
  | .ok q => LinkOk next channels unsent owed ⟨up, q⟩
  | .error error => Harmless (.thrown error)

theorem openChannel (h : LinkOk next channels unsent owed ⟨up, p⟩) (hnext : id ≤ next)
    (hid : id < 2 ^ 32) (command : List Char) :
    Handled next channels unsent owed up (p.openChannel id command) := by
  unfold MultiplexPeer.openChannel
  split
  · exact (by decide : Harmless (.thrown "channel reuse"))
  · next hnew =>
    dsimp only
    split
    · have hraise := h.raise (Nat.lt_of_not_le hnew) hnext hid
      exact (hraise.serves (serves_control (by decide) id _)).serves
        (serves_control (by decide) id _)
    · exact (h.open_new (Nat.lt_of_not_le hnew) hnext hid _).serves
        (still_call _ _).serves

theorem onCommand (hdecode : decodeControl line.toList = .ok (id, command))
    (h : LinkOk next channels unsent owed ⟨.text line :: up, p⟩) :
    Handled next channels unsent owed up (p.onCommand id command) := by
  unfold MultiplexPeer.onCommand
  split
  · exact h.drop
  · split
    · exact h.drop.serves (serves_abort id p)
    · split
      · next error herror =>
        exact absurd ⟨line, id, command, error, rfl, hdecode, herror⟩
          (h.credits _ List.mem_cons_self)
      · next bytes hcredit =>
        obtain ⟨q, hq, hok⟩ := h.window hdecode hcredit
        rw [hq]
        exact hok
      · split
        · exact h.drop.serves (still_call _ _).serves
        · exact (by decide : Harmless (.thrown "unknown control"))

theorem dispatch (h : LinkOk next channels unsent owed ⟨f :: up, p⟩) :
    Handled next channels unsent owed up (p.dispatch f) := by
  unfold MultiplexPeer.dispatch
  cases f with
  | binary bytes =>
    dsimp only
    split
    · next error herror => exact harmless_of_decodeData herror
    · next id data hdecode =>
      by_cases hmem : id ∈ p.channels
      · rw [if_pos hmem]
        exact h.receive hdecode
      · rw [if_neg hmem]
        exact h.drop
  | text line =>
    dsimp only
    rcases decodeControl_cases line.toList with
      ⟨error, herror, hharmless⟩ | ⟨id, command, hdecode, hid⟩
    · rw [herror]
      exact hharmless
    · have hnext : id ≤ next := by
        refine h.named (.text line) List.mem_cons_self id ?_
        simp only [Frame.channel, hdecode]
        rfl
      rw [hdecode]
      dsimp only
      split
      · exact h.drop.openChannel hnext hid command
      · exact h.onCommand hdecode

/-- The relay handles the next frame. -/
theorem message (h : LinkOk next channels unsent owed ⟨f :: up, p⟩) :
    LinkOk next channels unsent owed ⟨up, p.message f⟩ := by
  unfold MultiplexPeer.message
  split
  · exact h.drop
  · split
    · have hpong : TungsteniteTransport.splitControl "PONG".toList = none := by decide
      refine h.drop.serves (serves_sendFrame (f := .text "PONG") (fun _ => rfl)
        (fun _ => ?_) ?_ p)
      · simp only [Frame.ackBytes, hpong]
      · rintro ⟨line, id, command, value, heq, hsplit, -⟩
        cases heq
        cases hsplit
    · have hdispatch := h.dispatch
      cases hresult : p.dispatch f with
      | ok q =>
        rw [hresult] at hdispatch
        exact hdispatch
      | error error =>
        rw [hresult] at hdispatch
        exact h.drop.refuse hdispatch

end LinkOk

/-! ## What the relay does -/

/-- One action at the relay's end: the next frame arrives, the relay uses a channel, or the socket
reports on its buffer. -/
inductive RelayAct
  | deliver
  | attach (id : Nat)
  | ack (id bytes : Nat)
  | sendText (id : Nat) (text : String)
  | sendBinary (id : Nat) (bytes : List U8)
  | close (id : Nat)
  | abort (id : Nat)
  | drain
  | stop
  | readings (amounts : List Nat)

/-- The relay acknowledges what it has received and passed on, and the texts it sends (`OK`, `EOF`,
`ERR` and `IP`) are no acknowledgements. -/
def RelayAct.Allowed (l : Link) : RelayAct → Prop
  | ack id bytes =>
    0 < bytes ∧ ∃ ch, l.peer.heap.lookup id = some ch ∧ (bytes : Int) ≤ ch.incoming
  | sendText _ text => MultiplexPeer.Plain text
  | _ => True

def Link.act (l : Link) : RelayAct → Link
  | .deliver =>
    match l.up with
    | [] => l
    | f :: up => ⟨up, l.peer.message f⟩
  | .attach id => ⟨l.up, l.peer.attach id⟩
  | .ack id bytes => ⟨l.up, l.peer.ack id bytes⟩
  | .sendText id text => ⟨l.up, l.peer.sendText id text⟩
  | .sendBinary id bytes => ⟨l.up, l.peer.sendBinary id bytes⟩
  | .close id => ⟨l.up, l.peer.close id⟩
  | .abort id => ⟨l.up, l.peer.abort id⟩
  | .drain => ⟨l.up, l.peer.drain⟩
  | .stop => ⟨l.up, l.peer.stop⟩
  | .readings amounts =>
    ⟨l.up, { l.peer with ws := l.peer.ws.map fun w => { w with readings := amounts } }⟩

namespace LinkOk

variable {next : Nat} {channels : ClientChannels} {unsent owed : ConnId → Nat} {l : Link}

theorem act (h : LinkOk next channels unsent owed l) {a : RelayAct} (ha : a.Allowed l) :
    LinkOk next channels unsent owed (l.act a) := by
  obtain ⟨up, p⟩ := l
  cases a with
  | deliver =>
    cases up with
    | nil => exact h
    | cons f up => exact h.message
  | attach id => exact h.serves (still_attach id p).serves
  | ack id bytes =>
    obtain ⟨hpos, ch, hch, hheld⟩ := ha
    have hwindow : bytes ≤ MUX_WINDOW := by
      have htotal := Account.held_add_le (n := 0) (h.upload id) (Nat.zero_le _)
      change (p.incoming id).toNat + 0 ≤ MUX_WINDOW at htotal
      rw [incoming_eq_of_lookup hch] at htotal
      omega
    exact h.serves (serves_ack hch hpos hwindow hheld)
  | sendText id text => exact h.serves (serves_sendText ha id p h.good)
  | sendBinary id bytes => exact h.serves (serves_sendBinary id bytes p h.good)
  | close id => exact h.serves (serves_close id p h.good)
  | abort id => exact h.serves (serves_abort id p)
  | drain => exact h.serves (serves_drain p h.good)
  | stop => exact h.serves (still_stop p).serves
  | readings amounts =>
    have hstill : MultiplexPeer.Still p
        { p with ws := p.ws.map fun w => { w with readings := amounts } } := by
      refine ⟨rfl, rfl, ?_, .refl (fun _ => .refl) _⟩
      unfold MultiplexPeer.down
      cases p.ws <;> rfl
    exact h.serves hstill.serves

theorem new (next : Nat) {channels : ClientChannels}
    (hreceived : ∀ id, receivedOn channels id = 0) (maxChannels : Nat) :
    LinkOk next channels (fun _ => 0) (fun _ => 0)
      ⟨[], MultiplexPeer.new maxChannels (some ⟨[], []⟩)⟩ where
  good := ⟨nofun, fun _ => Int.le_refl 0, nofun, (by decide : 0 < 2 ^ 32), nofun⟩
  upload id := by
    have hroom : roomFor channels id ≤ MUX_WINDOW := by
      unfold roomFor
      cases channels.lookup id with
      | none => exact Nat.zero_le _
      | some ch => exact Nat.sub_le _ _
    exact hroom
  download id := by
    rw [hreceived]
    exact Nat.zero_le _
  fresh id _ := ⟨rfl, rfl, rfl, by rw [hreceived]⟩
  named := nofun
  lastId := Nat.zero_le next
  credits := nofun
  refusals := nofun

/-! ## What the client does to the link -/

variable {p : Peer} {up : List Frame} {f : Frame} {unsent' owed' : ConnId → Nat}

/-- The client writes a frame: its data was unsent, its credit was owed. -/
theorem push (h : LinkOk next channels unsent owed ⟨up, p⟩)
    (hdata : ∀ id, f.dataBytes id + unsent' id ≤ unsent id)
    (hcredit : ∀ id, f.creditBytes id + owed' id ≤ owed id)
    (hnamed : ∀ id, f.channel = some id → id ≤ next) (hbad : ¬ f.BadCredit) :
    LinkOk next channels unsent' owed' ⟨up ++ [f], p⟩ where
  good := h.good
  upload id := by
    refine le_trans (Step.total_le ?_) (h.upload id)
    refine .forget (Nat.le_refl _) ?_ (Nat.le_refl _) (Nat.le_refl _)
    change dataIn (up ++ [f]) id + unsent' id ≤ dataIn up id + unsent id
    have := hdata id
    rw [dataIn_append]
    omega
  download id := by
    -- Credit that was owed is released into the grants in flight.
    have hbound := h.download id
    have hmove := hcredit id
    simp only [Account.total, MultiplexPeer.download, creditIn_append] at hbound ⊢
    omega
  fresh id hid := by
    obtain ⟨hdown, hacks, hcred, hheld⟩ := h.fresh id hid
    have := hcredit id
    dsimp only at hcred ⊢
    rw [creditIn_append]
    exact ⟨hdown, hacks, by omega, by omega⟩
  named g hg id hid := by
    rcases List.mem_append.1 hg with hg | hg
    · exact h.named g hg id hid
    · rw [List.mem_singleton.1 hg] at hid
      exact hnamed id hid
  lastId := h.lastId
  credits g hg := by
    rcases List.mem_append.1 hg with hg | hg
    · exact h.credits g hg
    · rw [List.mem_singleton.1 hg]
      exact hbad
  refusals := h.refusals

/-- The client's own counts change: what it may send and what it holds must not grow by more than
what moves out of `unsent` and `owed`. -/
theorem recount {next' : Nat} {channels' : ClientChannels}
    (h : LinkOk next channels unsent owed l) (hnext : next ≤ next')
    (hsend : ∀ id, roomFor channels' id + unsent' id ≤ roomFor channels id + unsent id)
    (hheld : ∀ id, receivedOn channels' id + owed' id ≤ receivedOn channels id + owed id) :
    LinkOk next' channels' unsent' owed' l :=
  { h with
    upload id := by
      have hbound := h.upload id
      have hmove := hsend id
      simp only [Account.total, MultiplexPeer.upload] at hbound ⊢
      omega
    download id := by
      refine le_trans (Step.total_le ?_) (h.download id)
      exact .forget (Nat.le_refl _) (Nat.le_refl _) (hheld id) (Nat.le_refl _)
    fresh id hid := by
      obtain ⟨hdown, hacks, hcred, hzero⟩ := h.fresh id hid
      have := hheld id
      exact ⟨hdown, hacks, hcred, by omega⟩
    named g hg id hid := (h.named g hg id hid).trans hnext
    lastId := h.lastId.trans hnext }

/-- The client opens a channel under an id that nobody has used. -/
theorem addChannel (h : LinkOk next channels (fun _ => 0) (fun _ => 0) l) :
    LinkOk (next + 1) (channels.insert (next + 1) {}) (fun _ => 0) (fun _ => 0) l := by
  have hroom : ∀ id, roomFor (channels.insert (next + 1) {}) id =
      if id = next + 1 then MUX_WINDOW else roomFor channels id :=
    Table.elim_insert channels (next + 1) {}
  have hreceived : ∀ id, receivedOn (channels.insert (next + 1) {}) id ≤
      receivedOn channels id := by
    intro id
    refine (Table.elim_insert channels (next + 1) {} id).trans_le ?_
    split
    · exact Nat.zero_le _
    · exact Nat.le_refl _
  have hunused : ∀ id, next < id → dataIn l.up id = 0 ∧ acksIn l.peer.down id = 0 ∧
      l.peer.incoming id = 0 := by
    intro id hid
    have hheard := Nat.lt_of_le_of_lt h.lastId hid
    refine ⟨List.sum_eq_zero fun n hn => ?_, (h.fresh id hheard).2.1,
      (counts_of_fresh h.good hheard).2⟩
    obtain ⟨f, hf, rfl⟩ := List.mem_map.1 hn
    refine Frame.dataBytes_eq_zero fun hchannel => ?_
    exact Nat.not_le_of_lt hid (h.named f hf id hchannel)
  refine ⟨h.good, fun id => ?_, fun id => ?_, fun id hid => ?_, fun f hf id hid =>
    (h.named f hf id hid).trans (Nat.le_succ next), h.lastId.trans (Nat.le_succ next), h.credits,
    h.refusals⟩
  · by_cases heq : id = next + 1
    · obtain ⟨hdata, hacks, hin⟩ := hunused id (heq ▸ Nat.lt_succ_self next)
      simp only [Account.total, MultiplexPeer.upload, hdata, hacks, hin, hroom, if_pos heq]
      exact Nat.le_refl _
    · rw [hroom, if_neg heq]
      exact h.upload id
  · refine le_trans (Step.total_le ?_) (h.download id)
    exact .forget (Nat.le_refl _) (Nat.le_refl _) (hreceived id) (Nat.le_refl _)
  · obtain ⟨hdown, hacks, hcred, hzero⟩ := h.fresh id hid
    have := hreceived id
    exact ⟨hdown, hacks, hcred, by omega⟩

end LinkOk

def Link.takeDown (l : Link) : Option (Frame × Link) :=
  match l.peer.ws with
  | some ⟨f :: sent, readings⟩ =>
    some (f, { l with peer := { l.peer with ws := some ⟨sent, readings⟩ } })
  | _ => none

theorem Link.takeDown_eq_some {l l' : Link} {f : Frame} (h : l.takeDown = some (f, l')) :
    l.peer.down = f :: l'.peer.down ∧ l'.up = l.up ∧ l'.peer.heap = l.peer.heap ∧
      l'.peer.lastId = l.peer.lastId ∧ l'.peer.refusals = l.peer.refusals := by
  unfold Link.takeDown at h
  split at h
  · next f' sent readings hws =>
    cases h
    refine ⟨?_, rfl, rfl, rfl, rfl⟩
    unfold MultiplexPeer.down
    rw [hws]
    rfl
  · cases h

/-- What the client has read is credit to send and data to count, until it has done so. -/
theorem LinkOk.take {next : Nat} {channels : ClientChannels} {l l' : Link} {f : Frame}
    (h : LinkOk next channels (fun _ => 0) (fun _ => 0) l) (htake : l.takeDown = some (f, l')) :
    LinkOk next channels f.ackBytes f.dataBytes l' := by
  obtain ⟨hdown, hup, hheap, hlast, href⟩ := Link.takeDown_eq_some htake
  have hav : ∀ id, l'.peer.available id = l.peer.available id := fun id => by
    rw [MultiplexPeer.available, hheap, MultiplexPeer.available]
  have hin : ∀ id, l'.peer.incoming id = l.peer.incoming id := fun id => by
    rw [MultiplexPeer.incoming, hheap, MultiplexPeer.incoming]
  refine ⟨⟨?_, ?_, ?_, ?_, ?_⟩, fun id => ?_, fun id => ?_, fun id hid => ?_, ?_, ?_, ?_, ?_⟩
  · rw [hheap]; exact h.good.plain
  · exact fun id => (h.good.incoming id).trans_eq (hin id).symm
  · rw [hheap, hlast]; exact h.good.known
  · rw [hlast]; exact h.good.lastId
  · exact fun g hg => h.good.acks g (hdown ▸ List.mem_cons_of_mem f hg)
  · have hbound := h.upload id
    simp only [Account.total, MultiplexPeer.upload, hdown, hup, hin, acksIn_cons] at hbound ⊢
    omega
  · have hbound := h.download id
    simp only [Account.total, MultiplexPeer.download, hdown, hup, hav, dataIn_cons] at hbound ⊢
    omega
  · rw [hlast] at hid
    have hfresh := h.fresh id hid
    rw [hdown, dataIn_cons, acksIn_cons] at hfresh
    rw [hup]
    refine ⟨by omega, by omega, hfresh.2.2.1, by omega⟩
  · rw [hup]; exact h.named
  · rw [hlast]; exact h.lastId
  · rw [hup]; exact h.credits
  · rw [href]; exact h.refusals

end EmulateComputer
