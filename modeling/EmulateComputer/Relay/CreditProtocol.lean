import EmulateComputer.Relay.CreditClient

/-!
# CreditProtocol — the native client and the relay, joined by links

The client calls its transport as it likes, the relay acts on the current link and on those the
client has hung up on, and the network's scripts change arbitrarily between two actions.  In every
interleaving neither end turns the other away over credit.
-/

namespace EmulateComputer

namespace TungsteniteTransport

variable {t t' : Client}

/-! ## Every interleaving -/

/-- One action of the client, of the relay on a link, or of the network. -/
inductive Step : Client → Client → Prop
  | connect (t : Client) (url : String) : Step t (t.connect url).2
  | sendText (t : Client) (id : ConnId) (text : String) : Step t (t.sendText id text).2
  | sendBinary (t : Client) (id : ConnId) (data : List U8) : Step t (t.sendBinary id data).2
  | close (t : Client) (id : ConnId) : Step t (t.close id)
  | poll (t : Client) (now : U64) : Step t (t.poll now).2
  | relay {t : Client} {l : Link} (hl : t.host.link = some l) {a : RelayAct} (ha : a.Allowed l) :
      Step t { t with host := { t.host with link := some (l.act a) } }
  | relayOld {t : Client} {l : Link} {before after : List Link}
      (hl : t.host.old = before ++ l :: after) {a : RelayAct} (ha : a.Allowed l) :
      Step t { t with host := { t.host with old := before ++ l.act a :: after } }
  | weather (t : Client) (n : Net) :
      Step t { t with host := { n with link := t.host.link, old := t.host.old } }

theorem Inv.step (h : Inv t nothing nothing) (hstep : Step t t') : Inv t' nothing nothing := by
  cases hstep with
  | connect url => exact h.connect url
  | sendText id text => exact h.sendText id text
  | sendBinary id data => exact h.sendBinary id data
  | close id => exact h.close id
  | poll now => exact h.poll now
  | relay hl ha =>
    refine { h with link := fun l' hl' => ?_, old := h.old }
    cases hl'
    exact (h.link _ hl).act ha
  | relayOld hl ha =>
    have hold := h.old
    rw [hl] at hold
    refine { h with link := h.link, old := fun l' hl' => ?_ }
    rcases List.mem_append.1 hl' with hmem | hmem
    · exact hold l' (List.mem_append_left _ hmem)
    · rcases List.mem_cons.1 hmem with rfl | hmem
      · exact (hold _ (List.mem_append_right _ List.mem_cons_self)).act ha
      · exact hold l' (List.mem_append_right _ (List.mem_cons_of_mem _ hmem))
  | weather n => exact h.congr rfl

/-- What the two ends can rely on. -/
structure CreditProtocol (t : Client) : Prop where
  relay_refusals : ∀ l ∈ t.host.link.toList ++ t.host.old,
    .windowExceeded ∉ l.peer.refusals ∧ .thrown "excess credit" ∉ l.peer.refusals ∧
      .thrown "invalid credit" ∉ l.peer.refusals
  client_refusals : .excessAck ∉ t.refusals ∧ .badAck ∉ t.refusals ∧ .windowExceeded ∉ t.refusals
  pending_le : ∀ id ch, t.channels.lookup id = some ch → ch.pending ≤ 256 * 1024
  total_le : t.channels.total (·.pending) ≤ 1024 * 1024

theorem Inv.creditProtocol (h : Inv t nothing nothing) : CreditProtocol t where
  relay_refusals l hl := by
    have hok : ∀ r ∈ l.peer.refusals, EmulateComputer.Harmless r := by
      rcases List.mem_append.1 hl with hl | hl
      · exact (h.link l (Option.mem_toList.1 hl)).refusals
      · exact (h.old l hl).refusals
    exact ⟨fun hr => (hok _ hr).1 rfl, fun hr => (hok _ hr).2.1 rfl, fun hr => (hok _ hr).2.2 rfl⟩
  client_refusals := by
    refine ⟨fun hr => ?_, fun hr => ?_, fun hr => ?_⟩ <;>
      rcases h.refusals _ hr with hbad | hbad <;> cases hbad
  pending_le := h.counts.pending_le
  total_le := h.counts.pending_eq ▸ h.counts.buffer

theorem inv_new {n : Net} (hlink : n.link = none) (hold : n.old = []) :
    Inv (new n) nothing nothing where
  counts := counts_empty 0
  next := Nat.zero_le _
  quiet _ id := receivedOn_empty id
  link l hl := by
    rw [show (new n).host.link = none from hlink] at hl
    cases hl
  old l hl := by
    rw [show (new n).host.old = [] from hold] at hl
    exact absurd hl List.not_mem_nil
  refusals r hr := absurd hr List.not_mem_nil

/-- In every interleaving, neither end turns the other away over credit, and the client's
unacknowledged upload stays in its bounds. -/
theorem creditProtocol_of_reaches {n : Net} (hlink : n.link = none) (hold : n.old = [])
    {t : Client} (h : Relation.ReflTransGen Step (new n) t) : CreditProtocol t := by
  have hinv : Inv t nothing nothing := by
    induction h with
    | refl => exact inv_new hlink hold
    | tail _ hstep ih => exact ih.step hstep
  exact hinv.creditProtocol

def plainNet : Net :=
  { link := none, old := [], maxChannels := 8, clock := 0, delays := [], io := [],
    dials := [.connected], spawns := [], arrivals := [] }

/-- The client opens a channel, connects and sends. -/
def uploading : Client :=
  let sent := (((new plainNet).connect "ws://relay").2.poll 0).2.sendText 1 "CONNECT 1.1.1.1:80"
  (sent.2.sendBinary 1 [1, 2, 3]).2

def relays (t : Client) (a : RelayAct) : Client :=
  { t with host := { t.host with link := t.host.link.map (·.act a) } }

theorem Step.relays {l : Link} (hl : t.host.link = some l) {a : RelayAct} (ha : a.Allowed l) :
    Step t (t.relays a) := by
  unfold TungsteniteTransport.relays
  rw [hl]
  exact .relay hl ha

/-- The relay opens the channel, attaches the flow and takes the data. -/
def taken : Client :=
  ((uploading.relays .deliver).relays (.attach 1)).relays .deliver

/-- The relay acknowledges the data, and the client reads that. -/
theorem creditProtocol_uploading :
    let t := ((taken.relays (.ack 1 3)).poll 0).2
    (taken.channels.lookup 1).map (·.pending) = some 3 ∧
      (t.channels.lookup 1).map (·.pending) = some 0 ∧ CreditProtocol t := by
  refine ⟨by decide, by decide, creditProtocol_of_reaches (n := plainNet) rfl rfl ?_⟩
  have hup : Relation.ReflTransGen Step (new plainNet) uploading :=
    .tail (.tail (.tail (.single (.connect _ _)) (.poll _ _)) (.sendText _ _ _)) (.sendBinary _ _ _)
  have htaken : Relation.ReflTransGen Step (new plainNet) taken :=
    ((hup.tail (.relays (a := .deliver) rfl trivial)).tail
      (.relays (a := .attach 1) rfl trivial)).tail (.relays (a := .deliver) rfl trivial)
  have hack : (RelayAct.ack 1 3).Allowed (taken.host.link.get rfl) :=
    ⟨by decide, _, rfl, by decide⟩
  exact (htaken.tail (.relays rfl hack)).tail (.poll _ _)

end TungsteniteTransport

end EmulateComputer
