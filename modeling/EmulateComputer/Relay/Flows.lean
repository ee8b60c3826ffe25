import EmulateComputer.Relay.Multiplex
import EmulateComputer.Relay.Limits

/-!
# Flows — the relay behind the multiplexed WebSockets

A `Relay` joins each admitted channel to a TCP connection.  What the client sends and what the TCP
peer sends go through one queue per flow, `pending`, whose head is charged to the client's quota
before it is passed on; client bytes that the TCP socket does not take at once wait in `backlog`.

Objects are numbers here: `heap` holds the flow objects and `peers` the WebSocket sessions, with
`flows` and `sessions` for the two sets the relay keeps.  `data` is the flow attached to a channel.
A suspended asynchronous call is data too: an admission that waits for the limiter stands in
`admissions`, a command that waits for its addresses in `task`.

A channel calls back into the relay while the relay calls it.  `callPeer` makes the call and then
heeds the hooks it made, in order.  The only hooks made there are `close` and `pause`; a channel
whose `close` hook runs has been aborted, and closing it again only sets its flag (`finishDead`).

The fields of `Flow` and `Relay` under "History" are read by no function of the relay.
-/

namespace EmulateComputer

def FLOW_BUFFER_LIMIT : Nat := 1024 * 1024

def RELAY_BUFFER_LIMIT : Nat := 8 * FLOW_BUFFER_LIMIT

structure RelayConfig where
  /-- Permit loopback / RFC1918 / link-local / CGNAT destinations. -/
  allowPrivate : Bool
  /-- Destination port allowlist; empty means any. -/
  ports : List Nat
  /-- Per-flow byte ceiling, both directions. -/
  maxBytes : Nat
  /-- Concurrent flows for this process. -/
  maxConns : Nat
  idleTimeoutMs : Nat
  finIdleMs : Nat

/-- The address library: whether a text is an address, the range of the address it denotes, and
that address in its usual spelling. -/
structure IpAddr where
  isValid : String → Bool
  range : String → String
  spelling : String → String

/-- The TCP sockets, one per flow.  A write takes some of the bytes or fails. -/
class TcpHost (τ : Type) where
  write : τ → Nat → List U8 → Option Nat × τ

/-- A host that says by a script how much each write takes, and then takes everything. -/
structure TcpScript where
  answers : List (Option Nat)

instance : TcpHost TcpScript where
  write t _ bytes :=
    match t.answers with
    | [] => (some bytes.length, t)
    | answer :: answers => (answer.map (min · bytes.length), ⟨answers⟩)

namespace Relay

inductive Command
  | connect (host : String) (port : Nat)
  | resolve (name : String)
  deriving DecidableEq

namespace Command

/-- White space of the host language. -/
def isSpace (c : Char) : Bool :=
  c.toNat = 0xFEFF || (Text.isWhitespace c && c.toNat ≠ 0x85)

def trim (text : List Char) : List Char :=
  (text.dropWhile isSpace).rdropWhile isSpace

/-- Cut a text at its last separator. -/
def splitLast (separator : Char) (text : List Char) : Option (List Char × List Char) :=
  (Text.splitOnce separator text.reverse).map fun (after, before) =>
    (before.reverse, after.reverse)

def parseConnect (arg : List Char) : Except String Command :=
  match splitLast ':' arg with
  | none => .error "bad CONNECT syntax"
  | some (host, port) =>
    if host = [] then .error "bad CONNECT syntax"
    else
      let host := if host.head? = some '[' ∧ host.getLast? = some ']'
        then (host.drop 1).dropLast else host
      let number := Text.digitsValue port
      if host = [] ∨ port = [] ∨ !port.all Char.isDigit ∨ number < 1 ∨ 65535 < number then
        .error "bad CONNECT syntax"
      else .ok (.connect (String.ofList host) number)

def parseCommand (line : List Char) : Except String Command :=
  let text := trim line
  let (verb, arg) := match Text.splitOnce ' ' text with
    | none => (text, [])
    | some (verb, rest) => (verb, trim rest)
  if verb = "CONNECT".toList then parseConnect arg
  else if verb = "RESOLVE".toList then
    if arg = [] ∨ arg.any isSpace then .error "bad RESOLVE syntax"
    else .ok (.resolve (String.ofList arg))
  else .error "unknown command"

example : parseCommand "CONNECT [::1]:80".toList = .ok (.connect "::1" 80) := by decide
example : parseCommand "CONNECT host:0".toList = .error "bad CONNECT syntax" := by decide

/-- The guest's NAT gateway is the relay host itself. -/
def GATEWAY_ALIAS : String := "10.0.2.2"

/-- The gateway alias is exact; all other addresses use the destination policy. -/
def admitAddress (lib : IpAddr) (ip : String) (allowPrivate : Bool) : Option String :=
  if ip = GATEWAY_ALIAS then if allowPrivate then some "127.0.0.1" else none
  else if !lib.isValid ip then none
  else if !allowPrivate ∧ lib.range ip ≠ "unicast" then none
  else some (lib.spelling ip)

/-- The addresses of `name`, given what the resolver found for it. -/
def resolveV4 (lib : IpAddr) (name : String) (hits : List String) : List String :=
  if lib.isValid name then [name] else hits.eraseDups

end Command

/-! ## Flow objects -/

inductive FlowState
  | dialing
  | opened
  | closed
  deriving DecidableEq

/-- A chunk that waits for its quota verdict. -/
structure Chunk where
  bytes : List U8
  upload : Bool
  deriving DecidableEq

/-- What the quota gate did with a chunk. -/
inductive Metering
  | charged (chunk : Chunk)
  | approved (chunk : Chunk)
  | forwarded (chunk : Chunk)
  deriving DecidableEq

/-- The two download streams at the moment `EOF` was sent. -/
structure Eof where
  delivered : List U8
  handed : List U8
  deriving DecidableEq

structure Flow where
  ip : String
  state : FlowState
  /-- The flow's channel: its session and its id there. -/
  ws : Option (Nat × Nat) := none
  tcp : Bool := false
  /-- Client bytes that arrived before the TCP socket could take them. -/
  backlog : List (List U8) := []
  /-- When the client sent FIN, or 0. -/
  finAt : Nat := 0
  bytes : Nat := 0
  buffered : Int := 0
  pending : List Chunk := []
  charging : Bool := false
  quotaTimer : Bool := false
  wsPaused : Bool := false
  peerEnded : Bool := false
  lastActive : Nat
  why : Option String := none
  /-- The command, while it waits for its addresses. -/
  task : Option Command := none
  /-- The TCP connection has been asked for. -/
  dialled : Bool := false
  /-- The TCP socket is being read. -/
  reading : Bool := true
  /-- History: payload the client has sent on the channel since the flow was attached. -/
  received : List U8 := []
  /-- History: bytes written to the TCP peer. -/
  wrote : List U8 := []
  /-- History: bytes the TCP peer has delivered. -/
  delivered : List U8 := []
  /-- History: bytes handed to the channel. -/
  handed : List U8 := []
  /-- History: every chunk that was queued, in order. -/
  taken : List Chunk := []
  /-- History: the work of the quota gate, in order. -/
  ledger : List Metering := []
  /-- History: one entry per `EOF` sent. -/
  eofs : List Eof := []

namespace Flow

def new (ip : String) (now : Nat) : Flow :=
  { ip, state := .dialing, lastActive := now }

/-- What stands at an address where no flow has been made. -/
def absent : Flow :=
  { ip := "", state := .closed, lastActive := 0 }

end Flow

/-! ## The relay -/

/-- How far the admission of a channel has come. -/
inductive AdmissionPhase
  /-- The limiter has been asked; a store that has decided already says how. -/
  | asked (answer : Option (Option Refusal))
  /-- The process is full, and the slot is being given back. -/
  | releasing
  /-- The flow has been made. -/
  | admitted (flow : Nat)
  deriving DecidableEq

structure Admission where
  command : List Char
  ip : String
  phase : AdmissionPhase

end Relay

structure Relay (ω L τ : Type) where
  cfg : RelayConfig
  ipaddr : IpAddr
  live : Int
  buffered : Int
  flows : List Nat
  heap : Nat → Relay.Flow
  nextFlow : Nat
  sessions : List Nat
  peers : Nat → MultiplexPeer ω
  peerIp : Nat → String
  nextPeer : Nat
  data : Nat × Nat → Option Nat
  admissions : Table (Nat × Nat) Relay.Admission
  limits : L
  tcp : τ
  /-- History: the client of every admission that succeeded. -/
  admitted : List String
  /-- History: payload the client has sent on each channel. -/
  payload : Nat × Nat → List U8
  /-- History: a partial write was acknowledged on a WebSocket with a full buffer. -/
  choked : Bool

namespace Relay

variable {ω L τ : Type} [WireSocket ω] [Limits L] [TcpHost τ]

def new (cfg : RelayConfig) (ipaddr : IpAddr) (limits : L) (tcp : τ) : Relay ω L τ :=
  { cfg, ipaddr, live := 0, buffered := 0, flows := [], heap := fun _ => .absent, nextFlow := 0,
    sessions := [], peers := fun _ => .new 0 none, peerIp := fun _ => "", nextPeer := 0,
    data := fun _ => none, admissions := ∅, limits, tcp, admitted := [],
    payload := fun _ => [], choked := false }

def setFlow (f : Nat) (g : Flow → Flow) (r : Relay ω L τ) : Relay ω L τ :=
  { r with heap := Function.update r.heap f (g (r.heap f)) }

def setPeer (k : Nat) (p : MultiplexPeer ω) (r : Relay ω L τ) : Relay ω L τ :=
  { r with peers := Function.update r.peers k p }

def releaseBuffer (f : Nat) (n : Int) (r : Relay ω L τ) : Relay ω L τ :=
  { r.setFlow f fun flow => { flow with buffered := flow.buffered - n } with
    buffered := r.buffered - n }

def updateReadPressure (f : Nat) (r : Relay ω L τ) : Relay ω L τ :=
  r.setFlow f fun flow =>
    if flow.charging ∨ flow.wsPaused then { flow with reading := flow.reading && !flow.tcp }
    else if flow.state = .opened then { flow with reading := flow.reading || flow.tcp }
    else flow

/-! ### Finishing a flow -/

/-- `finish` up to the closing of the channel. -/
def shut (f : Nat) (why : String) (r : Relay ω L τ) : Relay ω L τ :=
  let r := r.setFlow f fun flow =>
    { flow with state := .closed, why := some why, quotaTimer := false }
  let r := r.releaseBuffer f (r.heap f).buffered
  r.setFlow f fun flow => { flow with pending := [], backlog := [] }

/-- `finish` after the closing of the channel. -/
def leave (f : Nat) (r : Relay ω L τ) : Relay ω L τ :=
  { r with
    flows := r.flows.erase f
    live := r.live - 1
    limits := Limits.release r.limits (r.heap f).ip }

/-- `finish` of a flow whose channel has been aborted. -/
def finishDead (f : Nat) (why : String) (r : Relay ω L τ) : Relay ω L τ :=
  if (r.heap f).state = .closed then r
  else
    let r := r.shut f why
    let r := match (r.heap f).ws with
      | none => r
      | some (k, id) => r.setPeer k ((r.peers k).close id)
    r.leave f

/-- The `close` and `pause` hooks. -/
def heed (k : Nat) (r : Relay ω L τ) : HookCall → Relay ω L τ
  | .closed id =>
    match r.data (k, id) with
    | none => r
    | some f => r.finishDead f "client closed"
  | .pause id paused =>
    match r.data (k, id) with
    | none => r
    | some f => (r.setFlow f fun flow => { flow with wsPaused := paused }).updateReadPressure f
  | .opened _ _ => r
  | .message _ _ => r

/-- Call a session, and heed the hooks the call made. -/
def callPeer (k : Nat) (op : MultiplexPeer ω → MultiplexPeer ω) (r : Relay ω L τ) : Relay ω L τ :=
  let p := op (r.peers k)
  p.hooks.foldl (heed k) (r.setPeer k { p with hooks := [] })

/-- Call the flow's channel, if it has one. -/
def callChannel (f : Nat) (op : Nat → MultiplexPeer ω → MultiplexPeer ω) (r : Relay ω L τ) :
    Relay ω L τ :=
  match (r.heap f).ws with
  | none => r
  | some (k, id) => r.callPeer k (op id)

def sendText (f : Nat) (text : String) (r : Relay ω L τ) : Relay ω L τ :=
  r.callChannel f (MultiplexPeer.sendText · text)

def finish (f : Nat) (why : String) (r : Relay ω L τ) : Relay ω L τ :=
  if (r.heap f).state = .closed then r
  else ((r.shut f why).callChannel f MultiplexPeer.close).leave f

def refuse (f : Nat) (reason : String) (r : Relay ω L τ) : Relay ω L τ :=
  (r.sendText f s!"ERR {reason}").finish f reason

/-! ### The byte path -/

def reserve (f : Nat) (n : Nat) (r : Relay ω L τ) : Bool × Relay ω L τ :=
  let flow := r.heap f
  if flow.buffered + n > FLOW_BUFFER_LIMIT ∨ r.buffered + n > RELAY_BUFFER_LIMIT ∨
      1024 ≤ flow.pending.length + flow.backlog.length then
    (false, r.finish f "buffer limit")
  else
    (true, { r.setFlow f fun flow => { flow with buffered := flow.buffered + n } with
      buffered := r.buffered + n })

def full (f : Nat) (r : Relay ω L τ) : Bool :=
  match (r.heap f).ws with
  | none => false
  | some (k, _) => (r.peers k).bufferedAmount.1.any (Mux.MUX_SOCKET_BUFFER ≤ ·)

/-- Acknowledge `n` of the `length` bytes of a write. -/
def ack (f : Nat) (n length : Nat) (r : Relay ω L τ) : Relay ω L τ :=
  let r := { r with choked := r.choked || (decide (n < length) && r.full f) }
  r.callChannel f (MultiplexPeer.ack · n)

/-- Put bytes into the backlog, if there is room. -/
def keep (f : Nat) (bytes : List U8) (place : List (List U8) → List (List U8))
    (r : Relay ω L τ) : Relay ω L τ :=
  match r.reserve f bytes.length with
  | (true, r) => r.setFlow f fun flow => { flow with backlog := place flow.backlog }
  | (false, r) => r

/-- History: some bytes have been written. -/
def noteWrite (f : Nat) (bytes : List U8) (r : Relay ω L τ) : Relay ω L τ :=
  r.setFlow f fun flow => { flow with wrote := flow.wrote ++ bytes }

def writeTcp (f : Nat) (bytes : List U8) (r : Relay ω L τ) : Relay ω L τ :=
  let (wrote, tcp) := TcpHost.write r.tcp f bytes
  let r := { r with tcp }
  match wrote with
  | none => r.finish f "peer write failed"
  | some n =>
    let r := r.noteWrite f (bytes.take n)
    let r := if 0 < n then r.ack f n bytes.length else r
    if n < bytes.length then r.keep f (bytes.drop n) (bytes.drop n :: ·) else r

def shiftPending (f : Nat) (item : Chunk) (rest : List Chunk) (r : Relay ω L τ) : Relay ω L τ :=
  (r.setFlow f fun flow =>
    { flow with pending := rest, ledger := flow.ledger ++ [.forwarded item] }).releaseBuffer f
      item.bytes.length

/-- History: bytes are handed to the channel, if there is one. -/
def noteHanded (f : Nat) (bytes : List U8) (r : Relay ω L τ) : Relay ω L τ :=
  r.setFlow f fun flow =>
    { flow with handed := flow.handed ++ if flow.ws.isSome then bytes else [] }

/-- Pass on the approved chunk at the head of the queue. -/
def forwardCharged (f : Nat) (r : Relay ω L τ) : Relay ω L τ :=
  match (r.heap f).pending with
  | [] => r
  | item :: rest =>
    let r := r.shiftPending f item rest
    if item.upload then
      if (r.heap f).state = .dialing ∨ (r.heap f).backlog ≠ [] then
        r.keep f item.bytes (· ++ [item.bytes])
      else if (r.heap f).state = .opened then r.writeTcp f item.bytes
      else r
    else (r.noteHanded f item.bytes).callChannel f (MultiplexPeer.sendBinary · item.bytes)

def sendEof (f : Nat) (r : Relay ω L τ) : Relay ω L τ :=
  let r := r.setFlow f fun flow =>
    { flow with eofs := flow.eofs ++ [{ delivered := flow.delivered, handed := flow.handed }] }
  r.sendText f "EOF"

def completePeer (f : Nat) (r : Relay ω L τ) : Relay ω L τ :=
  let flow := r.heap f
  if !flow.peerEnded ∨ flow.pending ≠ [] ∨ flow.state = .closed then r
  else (r.sendEof f).finish f "peer eof"

/-- A chunk at the quota gate. -/
def meter (f : Nat) (entries : List Metering) (r : Relay ω L τ) : Relay ω L τ :=
  r.setFlow f fun flow => { flow with ledger := flow.ledger ++ entries }

/-- The verdict on a chunk has been promised. -/
def awaitVerdict (f : Nat) (item : Chunk) (r : Relay ω L τ) : Relay ω L τ :=
  let r := (r.meter f [.charged item]).setFlow f fun flow => { flow with charging := true }
  let r := r.updateReadPressure f
  r.setFlow f fun flow => { flow with quotaTimer := true }

def quotaLoop (f : Nat) : Nat → Relay ω L τ → Relay ω L τ
  | 0, r => r
  | fuel + 1, r =>
    match (r.heap f).pending with
    | [] => r.completePeer f
    | item :: _ =>
      let (answer, limits) := Limits.charge r.limits (r.heap f).ip item.bytes.length
      let r := { r with limits }
      match answer with
      | .thrown => (r.meter f [.charged item]).finish f "quota unavailable"
      | .promised => r.awaitVerdict f item
      | .verdict false => (r.meter f [.charged item]).finish f "byte quota"
      | .verdict true =>
        let r := (r.meter f [.charged item, .approved item]).forwardCharged f
        if (r.heap f).why ≠ none then r else quotaLoop f fuel r

/-- Every turn of the loop takes a chunk off the queue, and the last one finds it empty. -/
def drainQuota (f : Nat) (r : Relay ω L τ) : Relay ω L τ :=
  let flow := r.heap f
  if flow.charging ∨ flow.state = .closed then r
  else r.quotaLoop f (flow.pending.length + 1)

def pushPending (f : Nat) (item : Chunk) (r : Relay ω L τ) : Relay ω L τ :=
  r.setFlow f fun flow =>
    { flow with pending := flow.pending ++ [item], taken := flow.taken ++ [item] }

def enqueue (f : Nat) (bytes : List U8) (upload : Bool) (r : Relay ω L τ) : Relay ω L τ :=
  if bytes = [] then r
  else
    let r := r.setFlow f fun flow => { flow with bytes := flow.bytes + bytes.length }
    if r.cfg.maxBytes < (r.heap f).bytes then r.finish f "byte cap"
    else
      match r.reserve f bytes.length with
      | (false, r) => r
      | (true, r) =>
        (r.pushPending f ⟨bytes, upload⟩).drainQuota f

def shiftBacklog (f : Nat) (bytes : List U8) (rest : List (List U8)) (r : Relay ω L τ) :
    Relay ω L τ :=
  (r.setFlow f fun flow => { flow with backlog := rest }).releaseBuffer f bytes.length

def backlogLoop (f : Nat) : Nat → Relay ω L τ → Relay ω L τ
  | 0, r => r
  | fuel + 1, r =>
    if (r.heap f).state = .opened then
      match (r.heap f).backlog with
      | [] => r
      | bytes :: rest =>
        let r := (r.shiftBacklog f bytes rest).writeTcp f bytes
        -- Still congested; wait for drain.
        if rest.length + 1 ≤ (r.heap f).backlog.length then r else backlogLoop f fuel r
    else r

/-- A turn that does not end the loop takes a chunk off the backlog. -/
def drainBacklog (f : Nat) (r : Relay ω L τ) : Relay ω L τ :=
  r.backlogLoop f (r.heap f).backlog.length

/-! ### What the client asks for -/

def fin (f : Nat) (now : Nat) (r : Relay ω L τ) : Relay ω L τ :=
  r.setFlow f fun flow => if flow.finAt = 0 then { flow with finAt := now } else flow

def message (f : Nat) (msg : Frame) (now : Nat) (r : Relay ω L τ) : Relay ω L τ :=
  if (r.heap f).state = .closed then r
  else
    let r := r.setFlow f fun flow => { flow with lastActive := now }
    match msg with
    | .text text => if text = "FIN" then r.fin f now else r
    | .binary bytes => r.enqueue f bytes true

/-- `command` up to its wait for the addresses. -/
def command (f : Nat) (line : List Char) (r : Relay ω L τ) : Relay ω L τ :=
  match Command.parseCommand line with
  | .error error => r.refuse f error
  | .ok cmd =>
    let r := r.setFlow f fun flow => { flow with state := .dialing }
    match cmd with
    | .resolve name => r.setFlow f fun flow => { flow with task := some (.resolve name) }
    | .connect host port =>
      if r.cfg.ports ≠ [] ∧ port ∉ r.cfg.ports then r.refuse f "port not allowed"
      else r.setFlow f fun flow => { flow with task := some (.connect host port) }

/-- `command` after its wait, given what the resolver found. -/
def resolved (f : Nat) (hits : List String) (r : Relay ω L τ) : Relay ω L τ :=
  match (r.heap f).task with
  | none => r
  | some cmd =>
    let r := r.setFlow f fun flow => { flow with task := none }
    let allow := fun ip => Command.admitAddress r.ipaddr ip r.cfg.allowPrivate
    if (r.heap f).state ≠ .dialing then r
    else
      match cmd with
      | .resolve name =>
        let addrs := (Command.resolveV4 r.ipaddr name hits).filterMap allow
        if addrs = [] then (r.sendText f "ERR nx").finish f "nx"
        else
          (r.sendText f ("IP " ++ " ".intercalate addrs.eraseDups)).finish f "ok"
      | .connect host _ =>
        match ((Command.resolveV4 r.ipaddr host hits).filterMap allow).find? (· ≠ "") with
        | none =>
          r.refuse f (if r.ipaddr.isValid host ∨ host = Command.GATEWAY_ALIAS
            then "destination not allowed" else "nx")
        | some _ => r.setFlow f fun flow => { flow with dialled := true }

/-! ### The callbacks of the TCP socket -/

def tcpOpen (f : Nat) (r : Relay ω L τ) : Relay ω L τ :=
  if (r.heap f).state ≠ .dialing then r
  else
    let r := r.setFlow f fun flow => { flow with tcp := true, state := .opened }
    ((r.sendText f "OK").drainBacklog f).updateReadPressure f

def tcpData (f : Nat) (chunk : List U8) (now : Nat) (r : Relay ω L τ) : Relay ω L τ :=
  let r := r.setFlow f fun flow => { flow with delivered := flow.delivered ++ chunk }
  if (r.heap f).state = .closed then r
  else (r.setFlow f fun flow => { flow with lastActive := now }).enqueue f chunk false

/-- The `end` and `close` callbacks. -/
def tcpEnd (f : Nat) (r : Relay ω L τ) : Relay ω L τ :=
  (r.setFlow f fun flow => { flow with peerEnded := true }).completePeer f

def tcpError (f : Nat) (error : String) (r : Relay ω L τ) : Relay ω L τ :=
  r.finish f s!"peer error: {error}"

def connectFailed (f : Nat) (code : String) (r : Relay ω L τ) : Relay ω L τ :=
  if (r.heap f).state = .dialing then r.refuse f code else r

/-! ### The quota store's answer -/

def answered (f : Nat) (r : Relay ω L τ) : Relay ω L τ :=
  r.setFlow f fun flow => { flow with quotaTimer := false, charging := false }

/-- The promise of a charge is settled; `none` when it is rejected. -/
def verdict (f : Nat) (answer : Option Bool) (r : Relay ω L τ) : Relay ω L τ :=
  match answer with
  | none => r.finish f "quota unavailable"
  | some ok =>
    if (r.heap f).state = .closed then r
    else
      let r := r.answered f
      if !ok then r.finish f "byte quota"
      else
        let r := r.meter f ((r.heap f).pending.take 1 |>.map .approved)
        ((r.forwardCharged f).drainQuota f).updateReadPressure f

/-! ### Sessions and admission -/

def upgrade (ip : String) (ws : ω) (r : Relay ω L τ) : Relay ω L τ :=
  if r.cfg.maxConns ≤ r.sessions.length ∨
      16 ≤ (r.sessions.filter fun k => r.peerIp k = ip).length then r
  else
    { r with
      peers := Function.update r.peers r.nextPeer (.new r.cfg.maxConns (some ws))
      peerIp := Function.update r.peerIp r.nextPeer ip
      sessions := r.sessions ++ [r.nextPeer]
      nextPeer := r.nextPeer + 1 }

/-- The `open` hook up to its wait for the limiter. -/
def ask (k id : Nat) (command : List Char) (r : Relay ω L τ) : Relay ω L τ :=
  let (answer, limits) := Limits.admitIp r.limits (r.peerIp k)
  { r with
    limits
    admissions := r.admissions.insert (k, id) ⟨command, r.peerIp k, .asked answer⟩ }

/-- Every hook, for the messages of the client. -/
def onHook (k now : Nat) (r : Relay ω L τ) (hook : HookCall) : Relay ω L τ :=
  match hook with
  | .opened id command => r.ask k id command
  | .message id msg =>
    match r.data (k, id) with
    | none => r
    | some f => r.message f msg now
  | hook => r.heed k hook

/-- History: what the client's frame carries. -/
def notePayload (k : Nat) (frame : Frame) (r : Relay ω L τ) : Relay ω L τ :=
  match frame with
  | .text _ => r
  | .binary bytes =>
    match Mux.decodeData bytes with
    | .error _ => r
    | .ok (id, data) =>
      if ((r.peers k).heap.lookup id).isNone then r
      else
        let r := { r with
          payload := Function.update r.payload (k, id) (r.payload (k, id) ++ data) }
        match r.data (k, id) with
        | none => r
        | some f => r.setFlow f fun flow => { flow with received := flow.received ++ data }

def wire (k : Nat) (frame : Frame) (now : Nat) (r : Relay ω L τ) : Relay ω L τ :=
  let r := r.notePayload k frame
  let p := (r.peers k).message frame
  p.hooks.foldl (onHook k now) (r.setPeer k { p with hooks := [] })

def gone (k : Nat) (r : Relay ω L τ) : Relay ω L τ :=
  let r := r.callPeer k MultiplexPeer.stop
  { r with sessions := r.sessions.erase k }

/-- The end of the `open` hook of a channel that was not admitted. -/
def turnAway (k id : Nat) (r : Relay ω L τ) : Relay ω L τ :=
  let r := { r with admissions := r.admissions.erase (k, id) }
  (r.callPeer k (MultiplexPeer.sendText id "ERR connection limit")).callPeer k
    (MultiplexPeer.close id)

/-- The process has room: make the flow. -/
def makeFlow (ip : String) (now : Nat) (r : Relay ω L τ) : Relay ω L τ :=
  { r with
    heap := Function.update r.heap r.nextFlow (.new ip now)
    nextFlow := r.nextFlow + 1
    live := r.live + 1
    flows := r.flows ++ [r.nextFlow] }

/-- `admitFlow` once the limiter has answered; a rejected promise is an error. -/
def admitFlow (k id : Nat) (outcome : Except Unit (Option Refusal)) (now : Nat)
    (r : Relay ω L τ) : Relay ω L τ :=
  match r.admissions.lookup (k, id) with
  | some { command, ip, phase := .asked answer } =>
    match answer.elim outcome .ok with
    | .error _ => r.turnAway k id
    | .ok (some _) => r.turnAway k id
    | .ok none =>
      let r := { r with admitted := r.admitted ++ [ip] }
      if (r.cfg.maxConns : Int) ≤ r.live then
        { r with
          limits := Limits.release r.limits ip
          admissions := r.admissions.insert (k, id) ⟨command, ip, .releasing⟩ }
      else
        { r.makeFlow ip now with
          admissions := r.admissions.insert (k, id) ⟨command, ip, .admitted r.nextFlow⟩ }
  | _ => r

/-- The slot of a full process has been given back, or the store failed to. -/
def slotReturned (k id : Nat) (ok : Bool) (r : Relay ω L τ) : Relay ω L τ :=
  match r.admissions.lookup (k, id) with
  | some { phase := .releasing, .. } =>
    if ok then r.turnAway k id
    else
      { r with admissions := r.admissions.erase (k, id) }.callPeer k (MultiplexPeer.abort id)
  | _ => r

/-- The channel is dead, or never was. -/
def cancelled (k id : Nat) (r : Relay ω L τ) : Bool :=
  ((r.peers k).heap.lookup id).elim true (·.dead)

/-- The `open` hook goes on with its flow. -/
def attach (k id : Nat) (r : Relay ω L τ) : Relay ω L τ :=
  match r.admissions.lookup (k, id) with
  | some { command, phase := .admitted f, .. } =>
    let r := { r with
      admissions := r.admissions.erase (k, id)
      data := Function.update r.data (k, id) (some f) }
    let r := r.setPeer k ((r.peers k).attach id)
    if r.cancelled k id then r.finish f "cancelled before admission"
    else (r.setFlow f fun flow => { flow with ws := some (k, id) }).command f command
  | _ => r

/-! ### Timers and shutdown -/

/-- After the client's FIN the flow has been silent for too long. -/
def quietAfterFin (now : Nat) (flow : Flow) (r : Relay ω L τ) : Prop :=
  ¬ (flow.lastActive : Int) < now - r.cfg.idleTimeoutMs ∧ flow.finAt ≠ 0 ∧ flow.state = .opened ∧
    (flow.lastActive : Int) < now - r.cfg.finIdleMs

instance (now : Nat) (flow : Flow) (r : Relay ω L τ) : Decidable (r.quietAfterFin now flow) :=
  inferInstanceAs (Decidable (_ ∧ _))

def sweepFlow (now : Nat) (r : Relay ω L τ) (f : Nat) : Relay ω L τ :=
  if f ∉ r.flows then r
  else if ((r.heap f).lastActive : Int) < now - r.cfg.idleTimeoutMs then r.finish f "idle timeout"
  else if r.quietAfterFin now (r.heap f) then (r.sendEof f).finish f "quiet after fin"
  else r

def sweepIdle (now : Nat) (r : Relay ω L τ) : Relay ω L τ :=
  r.flows.foldl (sweepFlow now) r

def stop (r : Relay ω L τ) : Relay ω L τ :=
  let r := r.sessions.foldl (fun r k => r.callPeer k MultiplexPeer.stop) r
  let r := { r with sessions := [] }
  r.flows.foldl (fun r f => r.finish f "shutdown") r

/-! ## Events -/

inductive Event (ω : Type)
  | upgrade (ip : String) (ws : ω)
  | wire (k : Nat) (frame : Frame) (now : Nat)
  | drain (k : Nat)
  | gone (k : Nat)
  | admission (k id : Nat) (outcome : Except Unit (Option Refusal)) (now : Nat)
  | slotReturned (k id : Nat) (ok : Bool)
  | attach (k id : Nat)
  | resolved (f : Nat) (hits : List String)
  | tcpOpen (f : Nat)
  | tcpData (f : Nat) (chunk : List U8) (now : Nat)
  | tcpDrain (f : Nat)
  | tcpEnd (f : Nat)
  | tcpError (f : Nat) (error : String)
  | connectFailed (f : Nat) (code : String)
  | verdict (f : Nat) (answer : Option Bool)
  | quotaTimeout (f : Nat)
  | sweepIdle (now : Nat)
  | stop

/-- The `open` hook of some channel is about to go on with its flow.  It does so before any timer
fires. -/
def attaching (r : Relay ω L τ) : Bool :=
  r.admissions.entries.any fun entry => entry.2.phase matches .admitted _

/-- One event.  The callbacks of a TCP socket come only once the connection has been asked for, a
verdict only while one is awaited; an event whose time has not come changes nothing. -/
def step (event : Event ω) (r : Relay ω L τ) : Relay ω L τ :=
  match event with
  | .upgrade ip ws => r.upgrade ip ws
  | .wire k frame now => if k < r.nextPeer then r.wire k frame now else r
  | .drain k => if k < r.nextPeer then r.callPeer k MultiplexPeer.drain else r
  | .gone k => if k < r.nextPeer then r.gone k else r
  | .admission k id outcome now => r.admitFlow k id outcome now
  | .slotReturned k id ok => r.slotReturned k id ok
  | .attach k id => r.attach k id
  | .resolved f hits => r.resolved f hits
  | .tcpOpen f => if (r.heap f).dialled then r.tcpOpen f else r
  | .tcpData f chunk now => if (r.heap f).dialled then r.tcpData f chunk now else r
  | .tcpDrain f => if (r.heap f).dialled then r.drainBacklog f else r
  | .tcpEnd f => if (r.heap f).dialled then r.tcpEnd f else r
  | .tcpError f error => if (r.heap f).dialled then r.tcpError f error else r
  | .connectFailed f code => if (r.heap f).dialled then r.connectFailed f code else r
  | .verdict f answer => if (r.heap f).charging then r.verdict f answer else r
  | .quotaTimeout f => if (r.heap f).quotaTimer then r.finish f "quota timeout" else r
  | .sweepIdle now => if r.attaching then r else r.sweepIdle now
  | .stop => r.stop

def run (events : List (Event ω)) (r : Relay ω L τ) : Relay ω L τ :=
  events.foldl (fun r event => r.step event) r

end Relay

end EmulateComputer
