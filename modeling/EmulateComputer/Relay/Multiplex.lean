import EmulateComputer.Relay.MuxProtocol
import EmulateComputer.Lib.Table

/-!
# Multiplex — the relay's end of one WebSocket

A `MultiplexPeer` carries many flows over one WebSocket.  Each flow is a `Channel` with a queue of
texts and bytes for the client, the credit the client has granted, and a count of the bytes it has
sent and the relay has not yet passed on.

A channel object outlives its entry in the peer's map: the flow that holds it may still report
consumption on it.  So the objects stand in `heap`, under the id they were made with (a peer makes
one object per id), and `channels` is the key list of the map, in insertion order.  `hooks` is the
list of the calls made into the relay; what the relay does about them are later calls of the
operations below.

JavaScript numbers are integers where a count is lowered by what a caller says, and naturals where
the subtraction is visibly exact.
-/

namespace EmulateComputer

open Mux

/-- The WebSocket as the peer sees it. -/
class WireSocket (ω : Type) where
  sendText : ω → String → ω
  sendBinary : ω → List U8 → ω
  getBufferedAmount : ω → Nat × ω
  close : ω → ω

/-- A call into the relay. -/
inductive HookCall
  | opened (id : Nat) (command : List Char)
  | message (id : Nat) (message : Frame)
  | closed (id : Nat)
  | pause (id : Nat) (paused : Bool)
  deriving DecidableEq

/-- Why the peer turned the client away: an error thrown while a message was handled, or data
beyond the receive window. -/
inductive MuxRefusal
  | thrown (error : String)
  | windowExceeded
  deriving DecidableEq

namespace MultiplexPeer

structure Channel where
  queue : List Frame := []
  /-- Bytes of binary data in the queue. -/
  queued : Int := 0
  available : Nat := MUX_WINDOW
  incoming : Int := 0
  closing : Bool := false
  dead : Bool := false
  /-- The relay has attached its flow. -/
  data : Bool := false

end MultiplexPeer

structure MultiplexPeer (ω : Type) where
  heap : Table Nat MultiplexPeer.Channel
  channels : List Nat
  lastId : Nat
  pendingBytes : Int
  closed : Bool
  ws : Option ω
  maxChannels : Nat
  hooks : List HookCall
  /-- History: every reason for which a message was refused. -/
  refusals : List MuxRefusal

namespace MultiplexPeer

variable {ω : Type} [WireSocket ω]

def new (maxChannels : Nat) (ws : Option ω) : MultiplexPeer ω :=
  { heap := ∅, channels := [], lastId := 0, pendingBytes := 0, closed := false, ws, maxChannels,
    hooks := [], refusals := [] }

def put (p : MultiplexPeer ω) (id : Nat) (f : Channel → Channel) : MultiplexPeer ω :=
  { p with heap := p.heap.modify id f }

def call (p : MultiplexPeer ω) (hook : HookCall) : MultiplexPeer ω :=
  { p with hooks := p.hooks ++ [hook] }

def refuse (p : MultiplexPeer ω) (refusal : MuxRefusal) : MultiplexPeer ω :=
  { p with refusals := p.refusals ++ [refusal] }

def release (p : MultiplexPeer ω) (bytes : Int) : MultiplexPeer ω :=
  { p with pendingBytes := p.pendingBytes - bytes }

def remove (p : MultiplexPeer ω) (id : Nat) : MultiplexPeer ω :=
  { p with channels := p.channels.erase id }

def bufferedAmount (p : MultiplexPeer ω) : Option Nat × MultiplexPeer ω :=
  match p.ws with
  | none => (none, p)
  | some ws =>
    let (amount, ws) := WireSocket.getBufferedAmount ws
    (some amount, { p with ws := some ws })

/-! ## Closing down

`control` stops the peer when the socket's buffer is full, stopping aborts every channel, and an
abort sends `CLOSE` through `control`.  The recursion ends at once, since a stopped peer does not
stop again and sends nothing: all that is left of `control` then is its look at the buffer. -/

/-- `control` on a stopped peer. -/
def controlStopped (p : MultiplexPeer ω) : MultiplexPeer ω :=
  p.bufferedAmount.2

/-- `Channel.abort`, with the peer's `control` as a parameter. -/
def abortThrough (control : Nat → String → MultiplexPeer ω → MultiplexPeer ω) (id : Nat)
    (p : MultiplexPeer ω) : MultiplexPeer ω :=
  match p.heap.lookup id with
  | none => p
  | some channel =>
    if channel.dead then p
    else
      let p := (p.put id fun ch => { ch with dead := true }).release channel.queued
      let p := p.put id fun ch => { ch with queued := 0, queue := [] }
      let p := (control id "CLOSE" p).remove id
      if channel.data then p.call (.closed id) else p

def stop (p : MultiplexPeer ω) : MultiplexPeer ω :=
  if p.closed then p
  else
    let p := p.channels.foldl (fun p id => abortThrough (fun _ _ => controlStopped) id p)
      { p with closed := true }
    { p with ws := p.ws.map WireSocket.close }

def control (id : Nat) (text : String) (p : MultiplexPeer ω) : MultiplexPeer ω :=
  let (amount, p) := p.bufferedAmount
  let p := if amount.any (MUX_SOCKET_BUFFER ≤ ·) then p.stop else p
  if p.closed then p
  else { p with ws := p.ws.map (WireSocket.sendText · (address id text)) }

def abort (id : Nat) (p : MultiplexPeer ω) : MultiplexPeer ω :=
  abortThrough control id p

/-! ## Output of one channel -/

def writable (p : MultiplexPeer ω) : Bool × MultiplexPeer ω :=
  if p.closed then (false, p)
  else
    let (amount, p) := p.bufferedAmount
    (amount.any (· < MUX_SOCKET_BUFFER), p)

def binary (id : Nat) (bytes : List U8) (p : MultiplexPeer ω) : MultiplexPeer ω :=
  { p with ws := p.ws.map (WireSocket.sendBinary · (encodeData id bytes)) }

def reserve (bytes : Nat) (p : MultiplexPeer ω) : Option (MultiplexPeer ω) :=
  if p.pendingBytes + bytes > MUX_SOCKET_BUFFER then none
  else some { p with pendingBytes := p.pendingBytes + bytes }

/-- Send the first `count` bytes of the message at the head of the queue. -/
def sendHead (id : Nat) (message : List U8) (count : Nat) (p : MultiplexPeer ω) : MultiplexPeer ω :=
  let p := p.binary id (message.take count)
  let p := p.put id fun ch =>
    { ch with available := ch.available - count, queued := ch.queued - count }
  let p := p.release count
  p.put id fun ch =>
    { ch with
      queue := if count = message.length then ch.queue.tail
        else .binary (message.drop count) :: ch.queue.tail }

def drainLoop (id : Nat) : Nat → MultiplexPeer ω → MultiplexPeer ω
  | 0, p => p
  | fuel + 1, p =>
    match p.heap.lookup id with
    | none => p
    | some channel =>
      match channel.queue with
      | [] => p
      | message :: _ =>
        match p.writable with
        | (false, p) => p
        | (true, p) =>
          match message with
          | .text text =>
            let p := p.control id text
            -- The control frame may have stopped the peer and emptied the queue.
            drainLoop id fuel (p.put id fun ch => { ch with queue := ch.queue.tail })
          | .binary bytes =>
            let count := min bytes.length (min channel.available MUX_FRAME)
            if count = 0 then p else drainLoop id fuel (p.sendHead id bytes count)

/-- How often the loop can go round: once per text, at most once per byte. -/
def drainTurns (queue : List Frame) : Nat :=
  (queue.map fun
    | .text _ => 1
    | .binary bytes => bytes.length).sum

/-- Tell the relay whether to read from the flow's TCP connection. -/
def tellPause (id : Nat) (p : MultiplexPeer ω) : MultiplexPeer ω :=
  match p.heap.lookup id with
  | none => p
  | some channel =>
    if !channel.data then p
    else if channel.available = 0 ∨ channel.queue ≠ [] then p.call (.pause id true)
    else
      let (writable, p) := p.writable
      p.call (.pause id !writable)

/-- An orderly close ends once the queue is empty. -/
def finishClose (id : Nat) (p : MultiplexPeer ω) : MultiplexPeer ω :=
  match p.heap.lookup id with
  | none => p
  | some channel =>
    if channel.closing ∧ channel.queue = [] then
      ((p.control id "CLOSE").put id fun ch => { ch with dead := true }).remove id
    else p

def drainChannel (id : Nat) (p : MultiplexPeer ω) : MultiplexPeer ω :=
  match p.heap.lookup id with
  | none => p
  | some channel =>
    if channel.dead then p
    else finishClose id (tellPause id (drainLoop id (drainTurns channel.queue + 1) p))

/-- `MultiplexPeer.drain`: the map is walked while it changes, so a channel that has left it by the
time its turn comes is passed over. -/
def drain (p : MultiplexPeer ω) : MultiplexPeer ω :=
  p.channels.foldl (fun p id => if id ∈ p.channels then p.drainChannel id else p) p

/-! ## The channel's operations -/

def window (id : Nat) (bytes : Nat) (p : MultiplexPeer ω) : Except String (MultiplexPeer ω) :=
  match p.heap.lookup id with
  | none => .ok p
  | some channel =>
    if MUX_WINDOW < channel.available + bytes then .error "excess credit"
    else
      .ok ((p.put id fun ch => { ch with available := ch.available + bytes }).drainChannel id)

def receive (id : Nat) (bytes : List U8) (p : MultiplexPeer ω) : MultiplexPeer ω :=
  match p.heap.lookup id with
  | none => p
  | some channel =>
    if channel.dead ∨ channel.closing ∨ !channel.data then p
    else
      let p := p.put id fun ch => { ch with incoming := ch.incoming + bytes.length }
      if (MUX_WINDOW : Int) < channel.incoming + bytes.length then
        (p.refuse .windowExceeded).abort id
      else p.call (.message id (.binary bytes))

/-- The relay has passed bytes on. -/
def ack (id : Nat) (bytes : Nat) (p : MultiplexPeer ω) : MultiplexPeer ω :=
  (p.put id fun ch => { ch with incoming := ch.incoming - bytes }).control id s!"ACK {bytes}"

def sendText (id : Nat) (text : String) (p : MultiplexPeer ω) : MultiplexPeer ω :=
  match p.heap.lookup id with
  | none => p
  | some channel =>
    if channel.dead then p
    else if 32 ≤ channel.queue.length then p.abort id
    else (p.put id fun ch => { ch with queue := ch.queue ++ [.text text] }).drainChannel id

def sendBinary (id : Nat) (bytes : List U8) (p : MultiplexPeer ω) : MultiplexPeer ω :=
  match p.heap.lookup id with
  | none => p
  | some channel =>
    if channel.dead then p
    else if channel.queued + bytes.length > MUX_WINDOW + MUX_FRAME then p.abort id
    else
      match p.reserve bytes.length with
      | none => p.abort id
      | some p =>
        (p.put id fun ch =>
          { ch with
            queued := ch.queued + bytes.length
            queue := ch.queue ++ [.binary bytes] }).drainChannel id

def close (id : Nat) (p : MultiplexPeer ω) : MultiplexPeer ω :=
  (p.put id fun ch => { ch with closing := true }).drainChannel id

def attach (id : Nat) (p : MultiplexPeer ω) : MultiplexPeer ω :=
  p.put id fun ch => { ch with data := true }

/-! ## Messages from the client -/

def openChannel (id : Nat) (command : List Char) (p : MultiplexPeer ω) :
    Except String (MultiplexPeer ω) :=
  if id ≤ p.lastId then .error "channel reuse"
  else
    let p := { p with lastId := id }
    if p.maxChannels ≤ p.channels.length then
      .ok ((p.control id "ERR connection cap reached").control id "CLOSE")
    else
      .ok <| { p with heap := p.heap.insert id {}, channels := p.channels ++ [id] }.call
        (.opened id command)

def onCommand (id : Nat) (command : List Char) (p : MultiplexPeer ω) :
    Except String (MultiplexPeer ω) :=
  if id ∉ p.channels then .ok p
  else if command = "CLOSE".toList then .ok (p.abort id)
  else
    match credit command "WINDOW" with
    | .error error => .error error
    | .ok (some bytes) => p.window id bytes
    | .ok none =>
      if command = "FIN".toList then .ok (p.call (.message id (.text "FIN")))
      else .error "unknown control"

/-- The body of `message`, whose errors all leave the peer as it was. -/
def dispatch (message : Frame) (p : MultiplexPeer ω) : Except String (MultiplexPeer ω) :=
  match message with
  | .binary bytes =>
    match decodeData bytes with
    | .error error => .error error
    | .ok (id, data) => .ok (if id ∈ p.channels then p.receive id data else p)
  | .text text =>
    match decodeControl text.toList with
    | .error error => .error error
    | .ok (id, command) =>
      if (Text.stripPrefix "CONNECT " command).isSome ∨
          (Text.stripPrefix "RESOLVE " command).isSome then
        p.openChannel id command
      else p.onCommand id command

def message (message : Frame) (p : MultiplexPeer ω) : MultiplexPeer ω :=
  if p.closed then p
  else if message = .text "PING" then
    { p with ws := p.ws.map (WireSocket.sendText · "PONG") }
  else
    match p.dispatch message with
    | .ok p => p
    | .error error => (p.refuse (.thrown error)).stop

end MultiplexPeer

end EmulateComputer
