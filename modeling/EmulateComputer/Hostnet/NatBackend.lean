import EmulateComputer.Hostnet.Dns
import EmulateComputer.Hostnet.Smoltcp
import EmulateComputer.Devices.VirtioNet
import EmulateComputer.Lib.Table

/-!
# NatBackend — user-mode NAT

The guest's frames come in through `transmit`; ARP, DHCP, ICMP echo and DNS are answered here, and
each TCP flow is terminated in a socket of the stack and carried by a flow of the substrate.  A SYN
is held until the substrate reports the connection, so no SYN-ACK promises a connection that does
not exist.

`pump` is one full turn: substrate events in, the interface advanced, bytes moved in both
directions, finished flows reaped, frames out.
-/

namespace EmulateComputer

namespace Hostnet

/-! ## Addresses -/

def NETWORK : Ipv4 := ⟨10, 0, 2, 0⟩
def SUBNET_MASK : Ipv4 := ⟨255, 255, 255, 0⟩
def GUEST_IP : Ipv4 := ⟨10, 0, 2, 15⟩
def GATEWAY_IP : Ipv4 := ⟨10, 0, 2, 2⟩
def DNS_IP : Ipv4 := ⟨10, 0, 2, 3⟩
def SUBNET_BROADCAST_IP : Ipv4 := ⟨10, 0, 2, 255⟩
def LIMITED_BROADCAST_IP : Ipv4 := ⟨255, 255, 255, 255⟩
def UNSPECIFIED : Ipv4 := ⟨0, 0, 0, 0⟩
def GATEWAY_MAC : Mac := #v[0x52, 0x55, 0x0a, 0x00, 0x02, 0x02]
def BROADCAST_MAC : Mac := #v[0xff, 0xff, 0xff, 0xff, 0xff, 0xff]
def MTU : Nat := 1500
def DHCP_LEASE_SECS : U32 := 86400
def TO_GUEST_QUEUE_LIMIT : Nat := 256
def DHCP_SERVER_PORT : U16 := 67
def DHCP_CLIENT_PORT : U16 := 68
def DNS_PORT : U16 := 53

def inSubnet (addr : Ipv4) : Bool :=
  addr.a = NETWORK.a && addr.b = NETWORK.b && addr.c = NETWORK.c

end Hostnet

structure TcpKey where
  guestPort : U16
  dst : Ipv4
  dstPort : U16
  deriving DecidableEq

structure TcpFlow where
  sub : FlowHandle
  /-- `none` until the substrate reports that the connection is up. -/
  sock : Option SocketHandle
  /-- The guest's SYN, replayed into the stack once connected. -/
  pendingSyn : Option (List U8)
  /-- Sequence number of the held SYN. -/
  synSeq : U32
  /-- Bytes from the substrate that did not fit in the socket's send buffer. -/
  toGuest : List U8
  /-- The substrate reported the end; send FIN once `toGuest` drains. -/
  subEof : Bool
  /-- The substrate has been told that the guest closed. -/
  toldSubClosed : Bool
  /-- Do not talk to the substrate about this flow again. -/
  dead : Bool
  deriving DecidableEq

structure PendingDns where
  query : Dns.Query
  guestIp : Ipv4
  guestPort : U16
  serverIp : Ipv4

structure NatBackend (σ κ : Type) where
  sub : σ
  /-- The interface and its sockets. -/
  stack : κ
  device : QueueDevice
  guestMac : Option Mac
  toGuest : List (List U8)
  droppedFrames : U64
  tcp : Table TcpKey TcpFlow
  tcpByHandle : Table FlowHandle TcpKey
  dnsPending : Table FlowHandle PendingDns
  nowMs : U64
  nextDeadline : Option U64

namespace NatBackend

open Hostnet

variable {σ κ : Type}

def new (sub : σ) (stack : κ) : NatBackend σ κ :=
  { sub, stack, device := ⟨[], []⟩, guestMac := none, toGuest := [], droppedFrames := 0, tcp := ∅,
    tcpByHandle := ∅, dnsPending := ∅, nowMs := 0, nextDeadline := none }

/-- Queue a frame for the guest, dropping the oldest on a twofold overrun. -/
def pushToGuest (b : NatBackend σ κ) (frame : List U8) : NatBackend σ κ :=
  if TO_GUEST_QUEUE_LIMIT * 2 ≤ b.toGuest.length then
    { b with toGuest := b.toGuest.tail ++ [frame], droppedFrames := b.droppedFrames + 1 }
  else { b with toGuest := b.toGuest ++ [frame] }

/-! ## Packets in and out -/

section Wire

variable [SmoltcpWire]

def emitIpToGuest (b : NatBackend σ κ) (packet : List U8) : NatBackend σ κ :=
  b.pushToGuest
    (SmoltcpWire.ethFrame (b.guestMac.getD BROADCAST_MAC) GATEWAY_MAC .ipv4 packet)

def emitBroadcastIpToGuest (b : NatBackend σ κ) (packet : List U8) : NatBackend σ κ :=
  b.pushToGuest (SmoltcpWire.ethFrame BROADCAST_MAC GATEWAY_MAC .ipv4 packet)

/-- Proxy-ARP for the subnet, minus the network and broadcast addresses and the guest itself. -/
def handleArp (b : NatBackend σ κ) (payload : List U8) : NatBackend σ κ :=
  match SmoltcpWire.arp payload with
  | none => b
  | some pkt =>
    if !pkt.request then b
    else
      let b := if SmoltcpWire.isUnicast pkt.sourceHardwareAddr then
        { b with guestMac := some pkt.sourceHardwareAddr } else b
      let target := pkt.targetProtocolAddr
      if !inSubnet target || target = GUEST_IP || target = NETWORK ||
          target = SUBNET_BROADCAST_IP then b
      else
        let reply : ArpRepr :=
          { request := false, sourceHardwareAddr := GATEWAY_MAC, sourceProtocolAddr := target
            targetHardwareAddr := pkt.sourceHardwareAddr
            targetProtocolAddr := pkt.sourceProtocolAddr }
        b.pushToGuest (SmoltcpWire.ethFrame pkt.sourceHardwareAddr GATEWAY_MAC .arp
          (SmoltcpWire.arpPacket reply))

def handleIcmp (b : NatBackend σ κ) (src dst : Ipv4) (body : List U8) : NatBackend σ κ :=
  if dst ≠ GATEWAY_IP ∧ dst ≠ DNS_IP then b
  else
    match SmoltcpWire.icmpEchoRequest body with
    | none => b
    | some echo => b.emitIpToGuest (SmoltcpWire.icmpEchoReply dst src echo)

/-- The reply to a DHCP request; only one address is ever on offer. -/
def dhcpReplyType (req : DhcpRequest) : Option DhcpMessageType :=
  match req.messageType with
  | .discover => some .offer
  | .request =>
    let refused : Bool := match req.requestedIp with
      | some asked => asked ≠ GUEST_IP
      | none => req.clientIp ≠ UNSPECIFIED && req.clientIp ≠ GUEST_IP
    some (if refused then .nak else .ack)
  | _ => none

def handleDhcp (b : NatBackend σ κ) (payload : List U8) : NatBackend σ κ :=
  match SmoltcpWire.dhcp payload with
  | none => b
  | some req =>
    match dhcpReplyType req with
    | none => b
    | some messageType =>
      let nak := messageType = .nak
      let reply : DhcpReply :=
        { messageType, transactionId := req.transactionId
          clientHardwareAddress := req.clientHardwareAddress
          yourIp := if nak then UNSPECIFIED else GUEST_IP, serverIp := GATEWAY_IP
          router := if nak then none else some GATEWAY_IP
          subnetMask := if nak then none else some SUBNET_MASK, broadcast := req.broadcast
          serverIdentifier := some GATEWAY_IP
          dnsServers := if nak then none else some [DNS_IP]
          leaseDuration := if nak then none else some DHCP_LEASE_SECS }
      match SmoltcpWire.dhcpPacket reply with
      | none => b
      | some buf =>
        b.emitBroadcastIpToGuest (SmoltcpWire.udpDatagram GATEWAY_IP DHCP_SERVER_PORT
          LIMITED_BROADCAST_IP DHCP_CLIENT_PORT buf)

def sendDnsReply (b : NatBackend σ κ) (guestIp : Ipv4) (guestPort : U16) (serverIp : Ipv4)
    (reply : List U8) : NatBackend σ κ :=
  b.emitIpToGuest (SmoltcpWire.udpDatagram serverIp DNS_PORT guestIp guestPort reply)

/-- A reset for a segment with no socket behind it. -/
def sendReset (b : NatBackend σ κ) (guestIp serverIp : Ipv4) (pkt : TcpView) : NatBackend σ κ :=
  -- The reset of an acknowledging segment takes its sequence number from that acknowledgement;
  -- otherwise it acknowledges past the offending segment.
  let consumed := pkt.payload.length + pkt.syn.toNat + pkt.fin.toNat
  let repr : TcpReset :=
    { srcPort := pkt.dstPort, dstPort := pkt.srcPort
      seqNumber := if pkt.ack then pkt.ackNumber else 0
      ackNumber := if pkt.ack then none else some (pkt.seqNumber + BitVec.ofNat 32 consumed) }
  b.emitIpToGuest (SmoltcpWire.tcpSegment serverIp guestIp repr)

/-- Reset a connection that failed before there was a socket. -/
def resetPendingFlow (b : NatBackend σ κ) (key : TcpKey) : NatBackend σ κ :=
  match b.tcp.lookup key with
  | none => b
  | some flow =>
    let repr : TcpReset :=
      { srcPort := key.dstPort, dstPort := key.guestPort, seqNumber := 0
        ackNumber := some (flow.synSeq + 1) }
    b.emitIpToGuest (SmoltcpWire.tcpSegment key.dst GUEST_IP repr)

end Wire

section Guest

variable [SmoltcpWire] [SocketSubstrate σ]

def handleDns (b : NatBackend σ κ) (guestIp : Ipv4) (guestPort : U16) (serverIp : Ipv4)
    (body : List U8) : NatBackend σ κ :=
  match Dns.parseQuery body with
  | none => b
  | some query =>
    if query.qclass ≠ Dns.CLASS_IN then
      b.sendDnsReply guestIp guestPort serverIp (Dns.buildError query Dns.RCODE_NOTIMPL)
    else if query.qtype = Dns.TYPE_A then
      let (handle, sub) := SocketSubstrate.dnsResolve b.sub (String.ofList query.name)
      { b with
        sub
        dnsPending := b.dnsPending.insert handle { query, guestIp, guestPort, serverIp } }
    -- An empty answer: resolvers fall back to A on it, and treat an error as broken.
    else if query.qtype = Dns.TYPE_AAAA then
      b.sendDnsReply guestIp guestPort serverIp (Dns.buildAnswer query [])
    else b.sendDnsReply guestIp guestPort serverIp (Dns.buildError query Dns.RCODE_NOTIMPL)

/-- UDP is answered here or not at all. -/
def handleUdp (b : NatBackend σ κ) (src dst : Ipv4) (body : List U8) : NatBackend σ κ :=
  match SmoltcpWire.udp body with
  | none => b
  | some pkt =>
    if pkt.dstPort = DHCP_SERVER_PORT ∧ pkt.srcPort = DHCP_CLIENT_PORT then
      b.handleDhcp pkt.payload
    else if dst = DNS_IP ∧ pkt.dstPort = DNS_PORT then
      b.handleDns src pkt.srcPort dst pkt.payload
    else b

/-- A TCP segment of the guest, with the IPv4 packet it came in. -/
def handleTcp (b : NatBackend σ κ) (src dst : Ipv4) (body ipPacket : List U8) : NatBackend σ κ :=
  match SmoltcpWire.tcp body with
  | none => b
  | some pkt =>
    if !inSubnet src then b
    else
      let key : TcpKey := { guestPort := pkt.srcPort, dst, dstPort := pkt.dstPort }
      let isSyn := pkt.syn && !pkt.ack
      match b.tcp.lookup key with
      | some flow =>
        if flow.sock.isNone then
          -- Still connecting: refresh the held SYN, drop everything else.
          if isSyn then
            { b with tcp := b.tcp.modify key fun flow =>
                { flow with pendingSyn := some ipPacket, synSeq := pkt.seqNumber } }
          else b
        else { b with device := { b.device with rx := b.device.rx ++ [ipPacket] } }
      | none =>
        if !isSyn then
          -- An unknown flow: reset it so the guest gives up.
          if !pkt.rst then b.sendReset src dst pkt else b
        else
          let (sub, substrate) := SocketSubstrate.tcpConnect b.sub dst key.dstPort
          { b with
            sub := substrate
            tcp := b.tcp.insert key
              { sub, sock := none, pendingSyn := some ipPacket, synSeq := pkt.seqNumber
                toGuest := [], subEof := false, toldSubClosed := false, dead := false }
            tcpByHandle := b.tcpByHandle.insert sub key }

def handleIpv4 (b : NatBackend σ κ) (payload : List U8) : NatBackend σ κ :=
  match SmoltcpWire.ipv4 payload with
  | none => b
  | some pkt =>
    -- Fragments are not reassembled.
    if pkt.moreFrags || pkt.fragOffset ≠ 0 then b
    else
      match pkt.nextHeader with
      | .udp => b.handleUdp pkt.srcAddr pkt.dstAddr pkt.payload
      | .icmp => b.handleIcmp pkt.srcAddr pkt.dstAddr pkt.payload
      | .tcp =>
        b.handleTcp pkt.srcAddr pkt.dstAddr pkt.payload (payload.take pkt.totalLen.toNat)
      | .other => b

def handleFrame (b : NatBackend σ κ) (frame : List U8) : NatBackend σ κ :=
  match SmoltcpWire.ethernet frame with
  | none => b
  | some eth =>
    let b := if SmoltcpWire.isUnicast eth.srcAddr then
      { b with guestMac := some eth.srcAddr } else b
    match eth.ethertype with
    | .arp => b.handleArp eth.payload
    | .ipv4 => b.handleIpv4 eth.payload
    | .other => b

end Guest

/-! ## The event pump -/

section Stack

variable [TcpStack κ]

/-- Once connected, listen on the guest's destination and replay its SYN. -/
def openSocket (b : NatBackend σ κ) (key : TcpKey) : NatBackend σ κ :=
  match b.tcp.lookup key with
  | none => b
  | some flow =>
    if flow.sock.isSome then b
    else
      match flow.pendingSyn with
      | none => b
      | some syn =>
        let tcp := b.tcp.modify key fun flow => { flow with pendingSyn := none }
        match TcpStack.listen b.stack key.dst key.dstPort with
        | (none, stack) =>
          { b with stack, tcp := tcp.modify key fun flow => { flow with dead := true } }
        | (some handle, stack) =>
          { b with
            stack, tcp := tcp.modify key fun flow => { flow with sock := some handle }
            device := { b.device with rx := b.device.rx ++ [syn] } }

def pollInterface (b : NatBackend σ κ) : NatBackend σ κ :=
  let (stack, device) := TcpStack.poll b.stack b.nowMs b.device
  { b with stack, device }

def guestFinished : TcpState → Bool
  | .closeWait | .lastAck | .closing | .timeWait | .closed => true
  | _ => false

/-- A flow with nothing left to do: its socket is closed, or it died without one. -/
def finished (b : NatBackend σ κ) (flow : TcpFlow) : Bool :=
  match flow.sock with
  | some handle => TcpStack.state b.stack handle = .closed
  | none => flow.dead

section Flows

variable [SocketSubstrate σ]

/-- Guest to substrate: consume only the accepted bytes.  Every turn but the last consumes a byte,
so the receive queue bounds the number of turns. -/
def sendUp : Nat → NatBackend σ κ → SocketHandle → FlowHandle → NatBackend σ κ
  | 0, b, _, _ => b
  | turns + 1, b, handle, sub =>
    if TcpStack.canRecv b.stack handle then
      match TcpStack.recvBuffer b.stack handle with
      | none => b
      | some buf =>
        let (taken, substrate) := SocketSubstrate.tcpSend b.sub sub buf
        let b := { b with
          sub := substrate, stack := TcpStack.consume b.stack handle taken }
        if taken = 0 then b else sendUp turns b handle sub
    else b

def sendDown (b : NatBackend σ κ) (key : TcpKey) (handle : SocketHandle) (toGuest : List U8) :
    NatBackend σ κ :=
  if !toGuest.isEmpty && TcpStack.canSend b.stack handle then
    let (sent, stack) := TcpStack.sendSlice b.stack handle toGuest
    { b with
      stack
      tcp := b.tcp.modify key fun flow => { flow with toGuest := toGuest.drop (sent.getD 0) } }
  else b

/-- Guest half-close: tell the substrate once its data is consumed. -/
def tellClosed (b : NatBackend σ κ) (key : TcpKey) (handle : SocketHandle) (flow : TcpFlow) :
    NatBackend σ κ :=
  if guestFinished (TcpStack.state b.stack handle) && TcpStack.recvQueue b.stack handle = 0 &&
      !flow.toldSubClosed then
    { b with
      sub := SocketSubstrate.tcpClose b.sub flow.sub
      tcp := b.tcp.modify key fun flow => { flow with toldSubClosed := true } }
  else b

/-- Substrate half-close: FIN once everything it gave us is queued. -/
def closeSocket (b : NatBackend σ κ) (key : TcpKey) (handle : SocketHandle) : NatBackend σ κ :=
  match b.tcp.lookup key with
  | none => b
  | some flow =>
    if flow.subEof && flow.toGuest.isEmpty && TcpStack.maySend b.stack handle then
      { b with stack := TcpStack.close b.stack handle }
    else b

def moveBytes (b : NatBackend σ κ) (key : TcpKey) (handle : SocketHandle) (flow : TcpFlow) :
    NatBackend σ κ :=
  (sendUp (TcpStack.recvQueue b.stack handle + 1) b handle flow.sub).sendDown key handle
    flow.toGuest

/-- Move the bytes of one flow and pass on the ends of its two streams. -/
def pumpFlow (b : NatBackend σ κ) (key : TcpKey) : NatBackend σ κ :=
  match b.tcp.lookup key with
  | none => b
  | some flow =>
    match flow.sock with
    | none => b
    | some handle =>
      if flow.dead then b
      else ((b.moveBytes key handle flow).tellClosed key handle flow).closeSocket key handle

def reapFlow (b : NatBackend σ κ) (key : TcpKey) : NatBackend σ κ :=
  match b.tcp.lookup key with
  | none => b
  | some flow =>
    let b := { b with tcp := b.tcp.erase key }
    let b := match flow.sock with
      | some handle => { b with stack := TcpStack.remove b.stack handle }
      | none => b
    let b := if !flow.dead && !flow.toldSubClosed then
      { b with sub := SocketSubstrate.tcpAbort b.sub flow.sub } else b
    { b with tcpByHandle := b.tcpByHandle.erase flow.sub }

def finishedFlows (b : NatBackend σ κ) : List TcpKey :=
  (b.tcp.entries.filter fun e => b.finished e.2).map (·.1)

def pumpFlows (b : NatBackend σ κ) : NatBackend σ κ :=
  b.tcp.keys.foldl pumpFlow b

def pumpTcp (b : NatBackend σ κ) : NatBackend σ κ :=
  let b := b.pumpFlows
  b.finishedFlows.foldl reapFlow b

end Flows

section Turn

variable [SocketSubstrate σ] [SmoltcpWire]

/-- Move the interface's packets into the frame queue while it has room. -/
def drainDeviceTx (b : NatBackend σ κ) : NatBackend σ κ :=
  let room := TO_GUEST_QUEUE_LIMIT - b.toGuest.length
  (b.device.tx.take room).foldl emitIpToGuest
    { b with device := { b.device with tx := b.device.tx.drop room } }

/-- Tear a flow down hard; `tellSubstrate` is false when the substrate reported the failure. -/
def abortTcp (b : NatBackend σ κ) (key : TcpKey) (tellSubstrate : Bool) : NatBackend σ κ :=
  match b.tcp.lookup key with
  | none => b
  | some flow =>
    let b := { b with tcp := b.tcp.modify key fun flow => { flow with dead := true } }
    let b := if tellSubstrate then { b with sub := SocketSubstrate.tcpAbort b.sub flow.sub } else b
    match flow.sock with
    | some handle => { b with stack := TcpStack.abort b.stack handle }
    | none => if flow.pendingSyn.isSome then b.resetPendingFlow key else b

/-- Apply `f` to the flow of a substrate handle. -/
def onFlow (b : NatBackend σ κ) (handle : FlowHandle) (f : TcpFlow → TcpFlow) : NatBackend σ κ :=
  match b.tcpByHandle.lookup handle with
  | none => b
  | some key => { b with tcp := b.tcp.modify key f }

def answerDns (b : NatBackend σ κ) (handle : FlowHandle) (reply : Dns.Query → List U8) :
    NatBackend σ κ :=
  match b.dnsPending.lookup handle with
  | none => b
  | some p =>
    { b with dnsPending := b.dnsPending.erase handle }.sendDnsReply p.guestIp p.guestPort
      p.serverIp (reply p.query)

def onSubstrate (b : NatBackend σ κ) : SubstrateEvent → NatBackend σ κ
  | .tcpConnected h =>
    match b.tcpByHandle.lookup h with
    | none => b
    | some key => b.openSocket key
  | .tcpData h data => b.onFlow h fun flow => { flow with toGuest := flow.toGuest ++ data }
  | .tcpClosed h => b.onFlow h fun flow => { flow with subEof := true }
  | .tcpError h _ =>
    match b.tcpByHandle.lookup h with
    | none => b
    | some key => b.abortTcp key false
  | .dnsResolved h addrs => b.answerDns h fun query =>
    if addrs.isEmpty then Dns.buildError query Dns.RCODE_NXDOMAIN
    else Dns.buildAnswer query addrs
  | .dnsFailed h error => b.answerDns h fun query =>
    Dns.buildError query <| match error with
      | .nxDomain => Dns.RCODE_NXDOMAIN
      | .servFail => Dns.RCODE_SERVFAIL

def drainSubstrate (b : NatBackend σ κ) : NatBackend σ κ :=
  let (events, sub) := SocketSubstrate.poll b.sub b.nowMs
  events.foldl onSubstrate { b with sub }

/-- Note when the stack or the substrate wants to be polled next. -/
def scheduleNext (b : NatBackend σ κ) : NatBackend σ κ :=
  let stackDeadline := (TcpStack.pollDelay b.stack b.nowMs).map fun delay =>
    BitVec.ofNat 64 (min (b.nowMs.toNat + delay.toNat) (2 ^ 64 - 1))
  let subDeadline := SocketSubstrate.nextDeadlineMs b.sub
  { b with nextDeadline := match stackDeadline, subDeadline with
      | some x, some y => some (if x ≤ y then x else y)
      | some x, none => some x
      | none, y => y }

/-- One full turn.  What the flows queued in their sockets needs the second pass over the
interface. -/
def pump (b : NatBackend σ κ) : NatBackend σ κ :=
  b.drainDeviceTx.drainSubstrate.pollInterface.pumpTcp.pollInterface.drainDeviceTx.scheduleNext

def transmit (b : NatBackend σ κ) (frame : List U8) : NatBackend σ κ :=
  if MTU + 14 < frame.length then b else (b.handleFrame frame).pump

def poll (b : NatBackend σ κ) (nowMs : U64) : NatBackend σ κ :=
  { b with nowMs }.pump

def receive (b : NatBackend σ κ) : Option (List U8) × NatBackend σ κ :=
  (b.toGuest.head?, { b with toGuest := b.toGuest.tail })

def nextDeadlineMs (b : NatBackend σ κ) : Option U64 :=
  if !b.toGuest.isEmpty then some b.nowMs else b.nextDeadline

instance : NetBackend (NatBackend σ κ) where
  transmit := transmit
  receive := receive
  poll := poll
  nextDeadlineMs := nextDeadlineMs

end Turn

end Stack

end NatBackend

end EmulateComputer
