import EmulateComputer.Hostnet.Substrate
import EmulateComputer.Hostnet.Text
import EmulateComputer.Lib.Table

/-!
# RelayClient — the relay protocol as a substrate

`RelayClient` turns each TCP flow and each name lookup into one connection of a `RelayTransport`:
the handshake, the half-close, the error taxonomy and the back pressure are here, while the
transport only carries frames.  Transport events are looked at when the client is polled.

A connection carries one flow; `flows` is keyed by handle and `byConn` finds the flow of a
connection.
-/

namespace EmulateComputer

abbrev ConnId := Nat

inductive TransportEvent
  | opened (conn : ConnId)
  | text (conn : ConnId) (text : String)
  | binary (conn : ConnId) (data : List U8)
  | closed (conn : ConnId)
  | error (conn : ConnId)
  deriving DecidableEq

def TransportEvent.conn : TransportEvent → ConnId
  | opened id | text id _ | binary id _ | closed id | error id => id

/-- One logical channel per flow. -/
class RelayTransport (τ : Type) where
  connect : τ → String → Option ConnId × τ
  sendText : τ → ConnId → String → Bool × τ
  sendBinary : τ → ConnId → List U8 → Bool × τ
  bufferedAmount : τ → ConnId → Nat
  close : τ → ConnId → τ
  poll : τ → U64 → List TransportEvent × τ

/-- One to three decimal digits with a value below 256. -/
def parseOctet (part : List Char) : Option U8 :=
  if part.isEmpty || 3 < part.length || !part.all Char.isDigit then none
  else if Text.digitsValue part ≤ 255 then some (BitVec.ofNat 8 (Text.digitsValue part))
  else none

/-- Strict dotted-quad parser: no octal, no shorthand, no trailing junk. -/
def parseIpv4 (text : List Char) : Option Ipv4 :=
  match (Text.trim text).splitOn '.' with
  | [a, b, c, d] => do
    return { a := ← parseOctet a, b := ← parseOctet b, c := ← parseOctet c, d := ← parseOctet d }
  | _ => none

example : parseIpv4 "10.0.2.15".toList = some ⟨10, 0, 2, 15⟩ := by decide
example : parseIpv4 "1.2.3.256".toList = none := by decide

/-- Map the reason of a relay's `ERR` onto the error taxonomy. -/
def connectError (reason : List Char) : FlowError :=
  if reason = "ECONNREFUSED".toList then .connectionRefused
  else if reason = "ECONNRESET".toList then .reset
  else if reason = "ETIMEDOUT".toList then .timedOut
  else .unreachable

/-! ## The client -/

inductive FlowKind
  | tcp
  | dns
  deriving DecidableEq

inductive FlowState
  /-- Connection opening, or command sent and no `OK` yet. -/
  | connecting
  /-- The relay said `OK`; bytes flow. -/
  | opened
  /-- A terminal event has been emitted; reap on the next poll. -/
  | dead
  deriving DecidableEq

structure Flow where
  conn : ConnId
  kind : FlowKind
  state : FlowState
  /-- The first frame, sent once the transport reports the connection opened. -/
  command : String

structure RelayClient (τ : Type) where
  transport : τ
  url : String
  nextHandle : FlowHandle
  flows : Table FlowHandle Flow
  /-- Reverse index, so a transport event finds its flow in one step. -/
  byConn : Table ConnId FlowHandle
  events : List SubstrateEvent
  lastPollMs : U64

namespace RelayClient

/-- Ceiling on a connection's buffered-but-unsent bytes. -/
def SEND_CAP_BYTES : Nat := 256 * 1024

def ACTIVE_POLL_INTERVAL_MS : U64 := 5

variable {τ : Type}

def new (transport : τ) (url : String) : RelayClient τ :=
  { transport, url := String.ofList (Text.trim url.toList), nextHandle := 1, flows := ∅,
    byConn := ∅, events := [], lastPollMs := 0 }

def advance (c : RelayClient τ) (handle : FlowHandle) (state : FlowState)
    (event : SubstrateEvent) : RelayClient τ :=
  { c with
    flows := c.flows.modify handle fun flow => { flow with state }
    events := c.events ++ [event] }

/-- The connection went away, whatever the reason. -/
def gone (c : RelayClient τ) (handle : FlowHandle) : RelayClient τ :=
  match c.flows.lookup handle with
  | none => c
  | some flow =>
    match flow.state, flow.kind with
    | .dead, _ => c
    -- Never reached the relay, or it hung up before answering.
    | .connecting, .tcp => c.advance handle .dead (.tcpError handle .unreachable)
    | .connecting, .dns => c.advance handle .dead (.dnsFailed handle .servFail)
    -- A clean end arrives as the text `EOF`, so this flow was cut short.
    | .opened, _ => c.advance handle .dead (.tcpError handle .reset)

/-- What a name lookup makes of the relay's answer. -/
def dnsAnswer (handle : FlowHandle) (text : List Char) : SubstrateEvent :=
  match Text.stripPrefix "IP " text with
  | some list =>
    let addrs := (Text.splitWhitespace list).filterMap parseIpv4
    if addrs.isEmpty then .dnsFailed handle .servFail else .dnsResolved handle addrs
  | none =>
    .dnsFailed handle (if Text.contains text "nx".toList then .nxDomain else .servFail)

def onText (c : RelayClient τ) (handle : FlowHandle) (text : List Char) : RelayClient τ :=
  match c.flows.lookup handle with
  | none => c
  | some flow =>
    match flow.state, flow.kind with
    | .dead, _ => c
    | .connecting, .tcp =>
      if text = "OK".toList then c.advance handle .opened (.tcpConnected handle)
      else
        let reason := (Text.stripPrefix "ERR " text).getD text
        c.advance handle .dead (.tcpError handle (connectError reason))
    | .connecting, .dns => c.advance handle .dead (dnsAnswer handle text)
    | .opened, .tcp =>
      if text = "EOF".toList then c.advance handle .dead (.tcpClosed handle) else c
    | .opened, .dns => c

section Transport

variable [RelayTransport τ]

/-- Open one connection and arrange for `command` to be its first frame. -/
def connect (c : RelayClient τ) (kind : FlowKind) (command : String) : FlowHandle × RelayClient τ :=
  let handle := c.nextHandle
  match RelayTransport.connect c.transport c.url with
  | (none, transport) =>
    -- Never reached the relay: the event of a socket that died before answering.
    let event := match kind with
      | .tcp => SubstrateEvent.tcpError handle .unreachable
      | .dns => SubstrateEvent.dnsFailed handle .servFail
    (handle, { c with transport, nextHandle := handle + 1, events := c.events ++ [event] })
  | (some conn, transport) =>
    (handle,
      { c with
        transport, nextHandle := handle + 1
        byConn := c.byConn.insert conn handle
        flows := c.flows.insert handle { conn, kind, state := .connecting, command } })

def onTransport (c : RelayClient τ) (event : TransportEvent) : RelayClient τ :=
  match c.byConn.lookup event.conn with
  | none => c
  | some handle =>
    match event with
    | .opened conn =>
      match c.flows.lookup handle with
      | none => c
      | some flow =>
        if flow.state = .connecting then
          match RelayTransport.sendText c.transport conn flow.command with
          | (true, transport) => { c with transport }
          | (false, transport) => gone { c with transport } handle
        else c
    | .text _ text => c.onText handle (Text.trimEndLines text.toList)
    | .binary _ data =>
      match c.flows.lookup handle with
      | none => c
      | some flow =>
        if flow.state = .opened ∧ flow.kind = .tcp ∧ data ≠ [] then
          { c with events := c.events ++ [.tcpData handle data] }
        else c
    | .closed _ | .error _ => c.gone handle

def reap (c : RelayClient τ) (handle : FlowHandle) : RelayClient τ :=
  match c.flows.lookup handle with
  | none => c
  | some flow =>
    { c with
      flows := c.flows.erase handle
      byConn := c.byConn.erase flow.conn
      transport := RelayTransport.close c.transport flow.conn }

def tcpConnect (c : RelayClient τ) (dst : Ipv4) (port : U16) : FlowHandle × RelayClient τ :=
  c.connect .tcp
    s!"CONNECT {dst.a.toNat}.{dst.b.toNat}.{dst.c.toNat}.{dst.d.toNat}:{port.toNat}"

def dnsResolve (c : RelayClient τ) (name : String) : FlowHandle × RelayClient τ :=
  c.connect .dns s!"RESOLVE {name}"

/-- Accept only what keeps the transport under the cap; the remainder stays with the caller. -/
def tcpSend (c : RelayClient τ) (flow : FlowHandle) (data : List U8) : Nat × RelayClient τ :=
  match c.flows.lookup flow with
  | none => (0, c)
  | some entry =>
    if entry.state ≠ .opened ∨ data = [] then (0, c)
    else
      let room := SEND_CAP_BYTES - RelayTransport.bufferedAmount c.transport entry.conn
      let accepted := min data.length room
      if accepted = 0 then (0, c)
      else
        match RelayTransport.sendBinary c.transport entry.conn (data.take accepted) with
        | (true, transport) => (accepted, { c with transport })
        | (false, transport) => (0, gone { c with transport } flow)

def tcpClose (c : RelayClient τ) (flow : FlowHandle) : RelayClient τ :=
  match c.flows.lookup flow with
  | none => c
  | some entry =>
    match entry.state with
    -- Half-close: the relay keeps streaming the response, ending with `EOF`.
    | .opened =>
      match RelayTransport.sendText c.transport entry.conn "FIN" with
      | (true, transport) => { c with transport }
      | (false, transport) => gone { c with transport } flow
    -- Nothing to half-close yet; the transport need not report the end of this connection.
    | .connecting =>
      gone { c with transport := RelayTransport.close c.transport entry.conn } flow
    | .dead => c

/-- Drop a flow, its connection and the events queued for it. -/
def tcpAbort (c : RelayClient τ) (flow : FlowHandle) : RelayClient τ :=
  let marked := { c with flows := c.flows.modify flow fun entry => { entry with state := .dead } }
  let reaped := marked.reap flow
  { reaped with events := reaped.events.filter fun event => event.eventFlow ≠ flow }

def deadFlows (c : RelayClient τ) : List FlowHandle :=
  (c.flows.entries.filter fun e => e.2.state = .dead).map (·.1)

def poll (c : RelayClient τ) (nowMs : U64) : List SubstrateEvent × RelayClient τ :=
  let (batch, transport) := RelayTransport.poll c.transport nowMs
  let c := batch.foldl onTransport { c with transport, lastPollMs := nowMs }
  let drained := c.events
  let c := { c with events := [] }
  (drained, c.deadFlows.foldl reap c)

def nextDeadlineMs (c : RelayClient τ) : Option U64 :=
  if !c.events.isEmpty then some c.lastPollMs
  else if !c.flows.keys.isEmpty then some (c.lastPollMs + ACTIVE_POLL_INTERVAL_MS)
  else none

instance : SocketSubstrate (RelayClient τ) where
  tcpConnect := tcpConnect
  tcpSend := tcpSend
  tcpClose := tcpClose
  tcpAbort := tcpAbort
  dnsResolve := dnsResolve
  poll := poll
  nextDeadlineMs := nextDeadlineMs

end Transport

end RelayClient

end EmulateComputer
