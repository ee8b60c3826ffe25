import EmulateComputer.Wire

/-!
# Substrate — what the NAT layer may do to the outside world

The boundary between the user-mode NAT and the host: flow handles, the events a substrate reports
when it is polled, and the calls it answers.  A substrate is any type with the operations of
`SocketSubstrate`; none of them blocks, and the substrate allocates the handles.
-/

namespace EmulateComputer

/-- An opaque identifier of one TCP flow or one name lookup. -/
abbrev FlowHandle := Nat

structure Ipv4 where
  a : U8
  b : U8
  c : U8
  d : U8
  deriving DecidableEq

inductive FlowError
  | connectionRefused
  | unreachable
  | timedOut
  | reset
  deriving DecidableEq

inductive DnsError
  | nxDomain
  | servFail
  deriving DecidableEq

/-- Something that happened out in the world, reported at poll time. -/
inductive SubstrateEvent
  | tcpConnected (flow : FlowHandle)
  | tcpData (flow : FlowHandle) (data : List U8)
  | tcpClosed (flow : FlowHandle)
  | tcpError (flow : FlowHandle) (error : FlowError)
  | dnsResolved (flow : FlowHandle) (addrs : List Ipv4)
  | dnsFailed (flow : FlowHandle) (error : DnsError)
  deriving DecidableEq

namespace SubstrateEvent

def eventFlow : SubstrateEvent → FlowHandle
  | tcpConnected f | tcpData f _ | tcpClosed f | tcpError f _ | dnsResolved f _ | dnsFailed f _ => f

def IsTerminal : SubstrateEvent → Prop
  | tcpConnected _ | tcpData _ _ => False
  | tcpClosed _ | tcpError _ _ | dnsResolved _ _ | dnsFailed _ _ => True

def about (flow : FlowHandle) (events : List SubstrateEvent) : List SubstrateEvent :=
  events.filter fun e => e.eventFlow = flow

@[simp]
theorem about_append (flow : FlowHandle) (l l' : List SubstrateEvent) :
    about flow (l ++ l') = about flow l ++ about flow l' :=
  List.filter_append _ _

theorem about_singleton_self (e : SubstrateEvent) : about e.eventFlow [e] = [e] := by
  simp [about]

variable {flow : FlowHandle} {events : List SubstrateEvent} {e : SubstrateEvent}

theorem about_singleton_ne (h : e.eventFlow ≠ flow) : about flow [e] = [] := by
  simp [about, h]

theorem mem_about : e ∈ about flow events ↔ e ∈ events ∧ e.eventFlow = flow := by
  simp [about]

theorem about_eq_nil : about flow events = [] ↔ ∀ e ∈ events, e.eventFlow ≠ flow := by
  simp [about]

end SubstrateEvent

class SocketSubstrate (σ : Type) where
  tcpConnect : σ → Ipv4 → U16 → FlowHandle × σ
  /-- How many leading bytes were accepted. -/
  tcpSend : σ → FlowHandle → List U8 → Nat × σ
  tcpClose : σ → FlowHandle → σ
  tcpAbort : σ → FlowHandle → σ
  dnsResolve : σ → String → FlowHandle × σ
  poll : σ → U64 → List SubstrateEvent × σ
  nextDeadlineMs : σ → Option U64

end EmulateComputer
