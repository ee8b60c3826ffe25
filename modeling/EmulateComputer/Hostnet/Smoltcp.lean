import EmulateComputer.Hostnet.Substrate

/-!
# Smoltcp — the TCP/IP library the NAT layer is built on

The NAT layer uses two things of the library: its packet representations, to take frames apart and
to build them, and its TCP sockets.  Both are parameters here.  A `SmoltcpWire` reads a packet into
the fields the NAT layer looks at; a `TcpStack` is an interface together with its socket set.
-/

namespace EmulateComputer

abbrev Mac := Vector U8 6

/-! ## Packets -/

inductive EtherType
  | arp
  | ipv4
  | other
  deriving DecidableEq

structure EthernetView where
  srcAddr : Mac
  ethertype : EtherType
  payload : List U8

structure ArpRepr where
  request : Bool
  sourceHardwareAddr : Mac
  sourceProtocolAddr : Ipv4
  targetHardwareAddr : Mac
  targetProtocolAddr : Ipv4

inductive IpProtocol
  | icmp
  | tcp
  | udp
  | other
  deriving DecidableEq

structure Ipv4View where
  srcAddr : Ipv4
  dstAddr : Ipv4
  nextHeader : IpProtocol
  moreFrags : Bool
  fragOffset : U16
  totalLen : U16
  payload : List U8

structure IcmpEcho where
  ident : U16
  seqNo : U16
  data : List U8

structure UdpView where
  srcPort : U16
  dstPort : U16
  payload : List U8

inductive DhcpMessageType
  | discover
  | offer
  | request
  | ack
  | nak
  | other
  deriving DecidableEq

structure DhcpRequest where
  messageType : DhcpMessageType
  transactionId : U32
  clientHardwareAddress : Mac
  clientIp : Ipv4
  requestedIp : Option Ipv4
  broadcast : Bool

structure DhcpReply where
  messageType : DhcpMessageType
  transactionId : U32
  clientHardwareAddress : Mac
  yourIp : Ipv4
  serverIp : Ipv4
  router : Option Ipv4
  subnetMask : Option Ipv4
  broadcast : Bool
  serverIdentifier : Option Ipv4
  dnsServers : Option (List Ipv4)
  leaseDuration : Option U32

structure TcpView where
  srcPort : U16
  dstPort : U16
  syn : Bool
  ack : Bool
  rst : Bool
  fin : Bool
  seqNumber : U32
  ackNumber : U32
  payload : List U8

structure TcpReset where
  srcPort : U16
  dstPort : U16
  seqNumber : U32
  ackNumber : Option U32

/-- The library's packet representations; the readers fail on malformed packets. -/
class SmoltcpWire where
  isUnicast : Mac → Bool
  ethernet : List U8 → Option EthernetView
  arp : List U8 → Option ArpRepr
  ipv4 : List U8 → Option Ipv4View
  /-- An echo request with a valid checksum. -/
  icmpEchoRequest : List U8 → Option IcmpEcho
  udp : List U8 → Option UdpView
  dhcp : List U8 → Option DhcpRequest
  tcp : List U8 → Option TcpView
  ethFrame : Mac → Mac → EtherType → List U8 → List U8
  arpPacket : ArpRepr → List U8
  icmpEchoReply : Ipv4 → Ipv4 → IcmpEcho → List U8
  udpDatagram : Ipv4 → U16 → Ipv4 → U16 → List U8 → List U8
  dhcpPacket : DhcpReply → Option (List U8)
  tcpSegment : Ipv4 → Ipv4 → TcpReset → List U8

/-! ## Sockets -/

abbrev SocketHandle := Nat

inductive TcpState
  | closed
  | listen
  | synSent
  | synReceived
  | established
  | finWait1
  | finWait2
  | closeWait
  | closing
  | lastAck
  | timeWait
  deriving DecidableEq

structure QueueDevice where
  /-- Guest to interface. -/
  rx : List (List U8)
  /-- Interface to guest. -/
  tx : List (List U8)

/-- An interface and its TCP sockets. -/
class TcpStack (κ : Type) where
  /-- Add a socket listening on an address; `none` when listening is refused. -/
  listen : κ → Ipv4 → U16 → Option SocketHandle × κ
  poll : κ → U64 → QueueDevice → κ × QueueDevice
  /-- Milliseconds until the interface wants to be polled again. -/
  pollDelay : κ → U64 → Option U64
  state : κ → SocketHandle → TcpState
  canRecv : κ → SocketHandle → Bool
  recvQueue : κ → SocketHandle → Nat
  /-- The bytes `recv` offers its caller, or nothing if the socket refuses. -/
  recvBuffer : κ → SocketHandle → Option (List U8)
  /-- The caller of `recv` took that many of the bytes offered. -/
  consume : κ → SocketHandle → Nat → κ
  canSend : κ → SocketHandle → Bool
  maySend : κ → SocketHandle → Bool
  /-- How many leading bytes were queued; `none` when the socket refuses. -/
  sendSlice : κ → SocketHandle → List U8 → Option Nat × κ
  close : κ → SocketHandle → κ
  abort : κ → SocketHandle → κ
  remove : κ → SocketHandle → κ

end EmulateComputer
