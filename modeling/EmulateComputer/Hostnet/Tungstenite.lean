import EmulateComputer.Hostnet.RelayClient
import EmulateComputer.Lib.Decimal
import Mathlib.Data.List.Sort

/-!
# TungsteniteTransport — the native client's end of one WebSocket

One nonblocking WebSocket carries independent TCP and DNS channels.  The transport grants the relay
credit for what it has read at the end of every poll, and keeps count of the bytes it has sent and
the relay has not acknowledged.

The dialling thread, the WebSocket library and the clock are the host environment, a parameter.
The library keeps a frame that the socket would not take, so a write that would block has been
accepted.  Why a message was refused is lost in the source, where every refusal is `Err(())`; the
reasons are kept here, in the history variable `refusals`.
-/

namespace EmulateComputer

inductive Message
  | text (text : String)
  | binary (data : List U8)
  | ping
  | pong
  | close
  | frame
  deriving DecidableEq

/-- The length of the payload; the transport writes texts and binary frames only. -/
def Message.len : Message → Nat
  | .text string => string.utf8ByteSize
  | .binary data => data.length
  | .ping | .pong | .close | .frame => 0

inductive IoResult
  | ok
  | wouldBlock
  | failed
  deriving DecidableEq

inductive ReadResult
  | ok (message : Message)
  | wouldBlock
  | failed
  deriving DecidableEq

inductive DialResult
  | connected
  | refused
  | empty
  deriving DecidableEq

class RelayHost (ω : Type) where
  /-- Start a dialling thread; `false` if the thread cannot be started. -/
  spawnDial : ω → String → Bool × ω
  tryRecv : ω → DialResult × ω
  write : ω → Message → IoResult × ω
  flush : ω → IoResult × ω
  read : ω → ReadResult × ω
  /-- Drop the socket, or the channel to the dialling thread. -/
  hangUp : ω → ω
  /-- The monotonic clock, in nanoseconds. -/
  now : ω → Nat

namespace TungsteniteTransport

def WINDOW : Nat := 256 * 1024

def FRAME : Nat := 64 * 1024

def BUFFER : Nat := 1024 * 1024

def MAX_CHANNELS : Nat := 64

def MAX_READS : Nat := 64

def U32_MAX : Nat := 0xffffffff

def SECOND : Nat := 1000000000

inductive Connection
  | idle
  | handshaking
  | live
  deriving DecidableEq

structure Channel where
  opened : Bool := false
  started : Bool := false
  pending : Nat := 0
  received : Nat := 0
  deriving DecidableEq

inductive Refusal
  | malformed
  /-- An acknowledgement that is no number up to the window. -/
  | badAck
  /-- An acknowledgement of more than is outstanding. -/
  | excessAck
  /-- Data beyond the window. -/
  | windowExceeded
  | closed
  deriving DecidableEq

end TungsteniteTransport

structure TungsteniteTransport (ω : Type) where
  host : ω
  connection : TungsteniteTransport.Connection
  url : String
  next : Nat
  channels : Table ConnId TungsteniteTransport.Channel
  pending : Nat
  wireBuffered : Nat
  events : List TransportEvent
  receivedAt : Option Nat
  pingAt : Option Nat
  /-- History: every reason for which a message was refused. -/
  refusals : List TungsteniteTransport.Refusal

namespace TungsteniteTransport

variable {ω : Type} [RelayHost ω]

def new (host : ω) : TungsteniteTransport ω :=
  { host, connection := .idle, url := "", next := 0, channels := ∅, pending := 0,
    wireBuffered := 0, events := [], receivedAt := none, pingAt := none, refusals := [] }

/-- The channel ids in the order of the source's sorted map. -/
def ids (t : TungsteniteTransport ω) : List ConnId :=
  t.channels.keys.insertionSort (· ≤ ·)

def modifyChannel (t : TungsteniteTransport ω) (id : ConnId) (f : Channel → Channel) :
    TungsteniteTransport ω :=
  { t with channels := t.channels.modify id f }

def push (t : TungsteniteTransport ω) (event : TransportEvent) : TungsteniteTransport ω :=
  { t with events := t.events ++ [event] }

def fail (t : TungsteniteTransport ω) : TungsteniteTransport ω :=
  { t with
    host := RelayHost.hangUp t.host
    connection := .idle
    events := t.events ++ t.ids.map .error
    channels := ∅
    pending := 0
    wireBuffered := 0
    receivedAt := none
    pingAt := none }

def send (t : TungsteniteTransport ω) (message : Message) : Bool × TungsteniteTransport ω :=
  if t.connection ≠ .live then (false, t)
  else
    let len := message.len + 14
    if 2 * BUFFER < t.wireBuffered + len then (false, t.fail)
    else
      match RelayHost.write t.host message with
      | (.failed, host) => (false, fail { t with host })
      -- The library retains the frame when the socket would block.
      | (.ok, host) | (.wouldBlock, host) =>
        (true, { t with host, wireBuffered := t.wireBuffered + len })

@[simp]
theorem next_send (t : TungsteniteTransport ω) (message : Message) :
    (t.send message).2.next = t.next := by
  unfold send
  split
  · rfl
  · dsimp only
    split
    · rfl
    · rcases RelayHost.write t.host message with ⟨_ | _ | _, host⟩ <;> rfl

def control (t : TungsteniteTransport ω) (id : ConnId) (text : String) :
    Bool × TungsteniteTransport ω :=
  t.send (.text s!"{id} {text}")

def flush (t : TungsteniteTransport ω) : Bool × TungsteniteTransport ω :=
  if t.connection ≠ .live then (false, t)
  else
    match RelayHost.flush t.host with
    | (.ok, host) => (true, { t with host, wireBuffered := 0 })
    | (.wouldBlock, host) => (true, { t with host })
    | (.failed, host) => (false, fail { t with host })

/-! ## Receiving -/

/-- A positive number without a leading zero that fits 32 bits and the limit. -/
def positive (text : List Char) (max : Nat) : Option Nat :=
  match Decimal.positive text with
  | none => none
  | some n => if n ≤ U32_MAX ∧ n ≤ max then some n else none

def splitControl (text : List Char) : Option (ConnId × List Char) :=
  match Text.splitOnce ' ' text with
  | none => none
  | some (id, command) => (positive id U32_MAX).map (·, command)

def onCommand (t : TungsteniteTransport ω) (id : ConnId) (channel : Channel)
    (command : List Char) : Except Refusal (TungsteniteTransport ω) :=
  match Text.stripPrefix "ACK " command with
  | some bytes =>
    match positive bytes WINDOW with
    | none => .error .badAck
    | some bytes =>
      if channel.pending < bytes then .error .excessAck
      else
        .ok { t.modifyChannel id fun ch => { ch with pending := ch.pending - bytes } with
          pending := t.pending - bytes }
  | none =>
    if command = "CLOSE".toList then
      .ok <| push { t with
        pending := t.pending - channel.pending
        channels := t.channels.erase id } (.closed id)
    else if command = "OK".toList ∨ command = "EOF".toList ∨
        (Text.stripPrefix "ERR " command).isSome ∨ (Text.stripPrefix "IP " command).isSome then
      .ok (t.push (.text id (String.ofList command)))
    else .error .malformed

def onData (t : TungsteniteTransport ω) (id : ConnId) (channel : Channel) (bytes : List U8) :
    Except Refusal (TungsteniteTransport ω) :=
  if WINDOW < channel.received + bytes.length then .error .windowExceeded
  else
    .ok <| (t.modifyChannel id fun ch => { ch with received := ch.received + bytes.length }).push
      (.binary id bytes)

def splitData (data : List U8) : Option (ConnId × List U8) :=
  if data.length < 5 ∨ FRAME + 4 < data.length then none
  else
    let id := (Bytes.ofBE 32 (data.take 4)).toNat
    if id = 0 then none else some (id, data.drop 4)

/-- Handle one message and report how many bytes of data it had.  A refusal ends the connection, so
the channel's count it may already have raised is not kept. -/
def receive (t : TungsteniteTransport ω) (message : Message) :
    Except Refusal (Nat × TungsteniteTransport ω) :=
  match message with
  | .text text =>
    if text = "PONG" then .ok (0, t)
    else if 4096 < text.utf8ByteSize then .error .malformed
    else
      match splitControl text.toList with
      | none => .error .malformed
      | some (id, command) =>
        match t.channels.lookup id with
        | none => .ok (0, t)
        | some channel => (t.onCommand id channel command).map (0, ·)
  | .binary data =>
    match splitData data with
    | none => .error .malformed
    | some (id, bytes) =>
      match t.channels.lookup id with
      | none => .ok (bytes.length, t)
      | some channel => (t.onData id channel bytes).map (bytes.length, ·)
  | .close => .error .closed
  | .ping | .pong => .ok (0, t)
  | .frame => .error .malformed

/-! ## The transport's interface -/

def startsCommand (text : String) : Bool :=
  (Text.stripPrefix "CONNECT " text.toList).isSome ||
    (Text.stripPrefix "RESOLVE " text.toList).isSome

/-- Dial if there is no connection; `false` if the thread cannot be started or the connection is to
another relay. -/
def dial (t : TungsteniteTransport ω) (url : String) : Bool × TungsteniteTransport ω :=
  if t.connection = .idle then
    match RelayHost.spawnDial t.host url with
    | (false, host) => (false, { t with host })
    | (true, host) => (true, { t with host, connection := .handshaking, url })
  else (t.url = url, t)

def addChannel (t : TungsteniteTransport ω) : TungsteniteTransport ω :=
  { t with
    -- An idle guest may stop polling; elapsed idle time is not a missed pong.
    receivedAt := if t.channels.keys = [] ∧ t.connection = .live then
      some (RelayHost.now t.host) else t.receivedAt
    next := t.next + 1
    channels := t.channels.insert (t.next + 1) {} }

def connect (t : TungsteniteTransport ω) (url : String) : Option ConnId × TungsteniteTransport ω :=
  if MAX_CHANNELS ≤ t.channels.keys.length ∨ t.next = U32_MAX then (none, t)
  else
    match t.dial url with
    | (false, t) => (none, t)
    | (true, t) => (some (t.next + 1), t.addChannel)

def sendText (t : TungsteniteTransport ω) (id : ConnId) (text : String) :
    Bool × TungsteniteTransport ω :=
  match t.channels.lookup id with
  | none => (false, t)
  | some channel =>
    if !channel.opened ∨ 4000 < text.utf8ByteSize then (false, t)
    else if !channel.started then
      if !startsCommand text then (false, t)
      else (t.modifyChannel id fun ch => { ch with started := true }).control id text
    else if text ≠ "FIN" then (false, t)
    else t.control id text

/-- The data in frames of at most `FRAME` bytes; `fuel` bounds their number. -/
def chunks : Nat → List U8 → List (List U8)
  | 0, _ => []
  | _, [] => []
  | fuel + 1, data => data.take FRAME :: chunks fuel (data.drop FRAME)

def sendChunks (id : ConnId) : List (List U8) → TungsteniteTransport ω →
    Bool × TungsteniteTransport ω
  | [], t => (true, t)
  | chunk :: rest, t =>
    match t.send (.binary (Bytes.toBE 4 (BitVec.ofNat 32 id) ++ chunk)) with
    | (false, t) => (false, t)
    | (true, t) => sendChunks id rest t

def sendBinary (t : TungsteniteTransport ω) (id : ConnId) (data : List U8) :
    Bool × TungsteniteTransport ω :=
  match t.channels.lookup id with
  | none => (false, t)
  | some channel =>
    if !channel.started ∨ WINDOW < channel.pending + data.length ∨
        BUFFER < t.pending + data.length then (false, t)
    else
      sendChunks id (chunks data.length data)
        { t.modifyChannel id fun ch => { ch with pending := ch.pending + data.length } with
          pending := t.pending + data.length }

def bufferedAmount (t : TungsteniteTransport ω) (id : ConnId) : Nat :=
  match t.channels.lookup id with
  | none => WINDOW
  | some channel => max channel.pending (WINDOW - (BUFFER - t.pending))

def sendClose (t : TungsteniteTransport ω) (id : ConnId) : TungsteniteTransport ω :=
  (t.control id "CLOSE").2.flush.2

def close (t : TungsteniteTransport ω) (id : ConnId) : TungsteniteTransport ω :=
  let t := match t.channels.lookup id with
    | none => t
    | some channel =>
      let t := { t with channels := t.channels.erase id, pending := t.pending - channel.pending }
      if channel.started then t.sendClose id else t
  { t with events := t.events.filter fun event => event.conn ≠ id }

/-! ## Polling -/

/-- Report the channels that wait for the connection. -/
def openWaiting (t : TungsteniteTransport ω) : TungsteniteTransport ω :=
  t.ids.foldl (fun t id =>
    match t.channels.lookup id with
    | none => t
    | some channel =>
      if channel.opened then t
      else (t.modifyChannel id fun ch => { ch with opened := true }).push (.opened id)) t

def readLoop : Nat → Nat → TungsteniteTransport ω → TungsteniteTransport ω
  | 0, _, t => t
  | reads + 1, bytes, t =>
    if BUFFER ≤ bytes ∨ t.connection ≠ .live then t
    else
      match RelayHost.read t.host with
      | (.wouldBlock, host) => { t with host }
      | (.failed, host) => fail { t with host }
      | (.ok message, host) =>
        let t := { t with host, receivedAt := some (RelayHost.now host) }
        match t.receive message with
        | .ok (count, t) => readLoop reads (bytes + count) t
        | .error refusal => fail { t with refusals := t.refusals ++ [refusal] }

/-- The credit that a channel is owed, if any. -/
def grantFor (t : TungsteniteTransport ω) (id : ConnId) : Option (ConnId × Nat) :=
  match t.channels.lookup id with
  | some channel => if 0 < channel.received then some (id, channel.received) else none
  | none => none

def resetReceived (ids : List ConnId) (channels : Table ConnId Channel) : Table ConnId Channel :=
  ids.foldl (fun channels id => channels.modify id fun ch => { ch with received := 0 }) channels

/-- The counts of received bytes, reset, of the channels that have any. -/
def takeReceived (t : TungsteniteTransport ω) : List (ConnId × Nat) × TungsteniteTransport ω :=
  (t.ids.filterMap t.grantFor, { t with channels := resetReceived t.ids t.channels })

/-- Grant the relay credit for what has been read. -/
def grant (t : TungsteniteTransport ω) : TungsteniteTransport ω :=
  let (consumed, t) := t.takeReceived
  consumed.foldl (fun t c => (t.control c.1 s!"WINDOW {c.2}").2) t

/-- Give up a silent connection, or ask for a sign of life. -/
def keepAlive (t : TungsteniteTransport ω) : TungsteniteTransport ω :=
  let now := RelayHost.now t.host
  if t.receivedAt.any (60 * SECOND ≤ now - ·) then t.fail
  else if t.pingAt.any (20 * SECOND ≤ now - ·) then
    let t := (t.send (.text "PING")).2
    { t with pingAt := some (RelayHost.now t.host) }
  else t

/-- Look at the dialling thread; `false` while it is at work. -/
def finishDial (t : TungsteniteTransport ω) : Bool × TungsteniteTransport ω :=
  if t.connection ≠ .handshaking then (true, t)
  else
    match RelayHost.tryRecv t.host with
    | (.connected, host) =>
      let now := some (RelayHost.now host)
      (true, { t with host, connection := .live, receivedAt := now, pingAt := now })
    | (.refused, host) => (true, fail { t with host })
    | (.empty, host) => (false, { t with host })

def turn (t : TungsteniteTransport ω) : TungsteniteTransport ω :=
  match t.flush with
  | (false, t) => t
  | (true, t) => (keepAlive (grant (readLoop MAX_READS 0 t.openWaiting))).flush.2

def poll (t : TungsteniteTransport ω) (_nowMs : U64) :
    List TransportEvent × TungsteniteTransport ω :=
  let t := match t.finishDial with
    | (false, t) => t
    | (true, t) => t.turn
  (t.events, { t with events := [] })

instance : RelayTransport (TungsteniteTransport ω) where
  connect := connect
  sendText := sendText
  sendBinary := sendBinary
  bufferedAmount := bufferedAmount
  close := close
  poll := poll

end TungsteniteTransport

end EmulateComputer
