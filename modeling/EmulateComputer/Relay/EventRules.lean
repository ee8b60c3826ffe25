import EmulateComputer.Relay.BondRuns

/-!
# EventRules — how an invariant travels through an event

`Bonds` says which flows an event can concern.  With it, an invariant of the relay is preserved by
every event as soon as it is preserved by the parts listed in `Steps`: the calls of a session, the
finishing of a flow, the events of an attached flow (by `Rules`), and the few events that make
something new.
-/

namespace EmulateComputer

namespace Relay

variable {ω L τ : Type} [WireSocket ω] [Limits L] [TcpHost τ]

/-! ## A frame of the client -/

/-- What a frame of the client can lead to. -/
structure Hearing (k now : Nat) (P : Relay ω L τ → Prop) : Prop where
  peer : ∀ (r : Relay ω L τ) k p, P r → P (r.setPeer k p)
  pause : ∀ (r : Relay ω L τ) f paused, P r → P (r.pauseFlow f paused)
  dead : ∀ (r : Relay ω L τ) f why, P r → P (r.finishDead f why)
  ask : ∀ (r : Relay ω L τ) id command, r.admissions.lookup (k, id) = none → P r →
    P (r.ask k id command)
  message : ∀ (r : Relay ω L τ) f msg, Bonds r → r.Attached f → (r.heap f).state ≠ .closed →
    P r → P (r.message f msg now)

theorem Bonds.hear_rule {k now : Nat} {P : Relay ω L τ → Prop} (hP : Hearing k now P)
    {r : Relay ω L τ} (hbonds : Bonds r) (frame : Frame) (h : P r) :
    P (((r.peers k).message frame).hooks.foldl (onHook k now)
      (r.setPeer k { (r.peers k).message frame with hooks := [] })) := by
  have hears := hbonds.hears k frame
  generalize (r.peers k).message frame = q at hears ⊢
  have hset : P (r.setPeer k { q with hooks := [] }) := hP.peer r k _ h
  cases hears with
  | quiet hquiet _ =>
    rw [foldl_onHook_of_quiet k now _ _ hquiet]
    exact heedAll_rule hP.pause hP.dead k _ _ hset
  | opened id command hhooks _ _ hfresh _ =>
    rw [hhooks]
    exact hP.ask _ id command hfresh hset
  | message id msg hhooks hbonds _ =>
    rw [hhooks]
    change P (onHook k now _ (.message id msg))
    rcases hbonds.onHook_message k id now msg with heq | ⟨f, hat, hlive, heq⟩ <;> rw [heq]
    · exact hset
    · exact hP.message _ f msg hbonds hat hlive hset

/-! ## Conditions on a run -/

/-- Every event of a run meets a condition in the state it finds. -/
def Throughout (C : Relay ω L τ → Event ω → Prop) : List (Event ω) → Relay ω L τ → Prop
  | [], _ => True
  | event :: events, r => C r event ∧ Throughout C events (r.step event)

instance decidableThroughout (C : Relay ω L τ → Event ω → Prop) [∀ r event, Decidable (C r event)] :
    ∀ events r, Decidable (Throughout C events r)
  | [], _ => .isTrue trivial
  | event :: events, r =>
    @instDecidableAnd _ _ inferInstance (decidableThroughout C events (r.step event))

theorem throughout_true : ∀ (events : List (Event ω)) (r : Relay ω L τ),
    Throughout (fun _ _ => True) events r
  | [], _ => trivial
  | _ :: events, _ => ⟨trivial, throughout_true events _⟩

/-! ## Every event -/

/-- What an invariant needs to pass through every event but the idle sweep. -/
structure Steps (P : Relay ω L τ → Prop) : Prop where
  callPeer : ∀ (r : Relay ω L τ) k op, P r → P (r.callPeer k op)
  finish : ∀ (r : Relay ω L τ) f why, P r → P (r.finish f why)
  sessions : ∀ (r : Relay ω L τ) sessions, P r → P { r with sessions }
  upgrade : ∀ (r : Relay ω L τ) ip ws, P r → P (r.upgrade ip ws)
  wire : ∀ (r : Relay ω L τ) k frame now, Bonds r → P r → P (r.wire k frame now)
  admitFlow : ∀ (r : Relay ω L τ) k id outcome now, Bonds r → P r →
    P (r.admitFlow k id outcome now)
  forget : ∀ (r : Relay ω L τ) key a, r.admissions.lookup key = some a → a.phase = .releasing →
    P r → P { r with admissions := r.admissions.erase key }
  linked : ∀ (r : Relay ω L τ) key f, Bonds r → r.Admits key f → P r → P (r.linked key f)
  bind : ∀ (r : Relay ω L τ) f key, P r →
    P (r.setFlow f fun flow => { flow with ws := some key })
  tcpData : ∀ (r : Relay ω L τ) f chunk now, Bonds r → r.Attached f → P r →
    P (r.tcpData f chunk now)
  rules : ∀ f, Rules f (fun r => (r.heap f).pending = [] ∧ (r.heap f).state ≠ .closed)
    fun r : Relay ω L τ => (Bonds r ∧ r.Attached f) ∧ P r

namespace Steps

variable {P : Relay ω L τ → Prop} {r : Relay ω L τ} (hP : Steps P)

include hP

theorem slotReturned (h : P r) (k id : Nat) (ok : Bool) : P (r.slotReturned k id ok) := by
  unfold Relay.slotReturned
  split
  · next command ip ha =>
    have hforget := hP.forget r (k, id) _ ha rfl h
    split
    · exact hP.callPeer _ k _ (hP.callPeer _ k _ hforget)
    · exact hP.callPeer _ k _ hforget
  · exact h

theorem attach (hbonds : Bonds r) (h : P r) (k id : Nat) : P (r.attach k id) := by
  rcases attach_cases r k id with heq | ⟨f, command, hf, heq⟩
  · rw [heq]
    exact h
  · have hlinked := hP.linked r (k, id) f hbonds hf h
    rw [heq]
    split
    · exact hP.finish _ f _ hlinked
    · next hnot =>
      obtain ⟨hjoined, hopen⟩ := hbonds.joined hf hnot
      have hbound : P (r.joined (k, id) f) := hP.bind _ f (k, id) hlinked
      exact ((hP.rules f).command ⟨hjoined, hbound⟩ hopen command).2

theorem stop (h : P r) : P r.stop :=
  finishAll_rule hP.finish _ (hP.sessions _ [] (stopAll_rule (fun r k => hP.callPeer r k _) _ h))

/-- The idle sweep apart, which every invariant sees to by itself. -/
theorem step (hbonds : Bonds r) (h : P r) (event : Event ω)
    (hsweep : ∀ now, event = .sweepIdle now → r.attaching = false → P (r.sweepIdle now)) :
    P (r.step event) := by
  cases event with
  | upgrade ip ws => exact hP.upgrade r ip ws h
  | wire k frame now =>
    simp only [Relay.step]
    split
    · exact hP.wire r k frame now hbonds h
    · exact h
  | drain k =>
    simp only [Relay.step]
    split
    · exact hP.callPeer r k _ h
    · exact h
  | gone k =>
    simp only [Relay.step]
    split
    · exact hP.sessions _ _ (hP.callPeer r k _ h)
    · exact h
  | admission k id outcome now => exact hP.admitFlow r k id outcome now hbonds h
  | slotReturned k id ok => exact hP.slotReturned h k id ok
  | attach k id => exact hP.attach hbonds h k id
  | sweepIdle now =>
    simp only [Relay.step]
    split
    · exact h
    · next hnone => exact hsweep now rfl (by simpa using hnone)
  | stop => exact hP.stop h
  | _ =>
    exact hbonds.step_flow (P := P) h (fun _ _ => And.right) hP.rules
      (fun _ _ hnil hlive => ⟨hnil, hlive⟩) (fun f chunk now h =>
        ⟨(facial_bonds f).tcpData h.1 chunk now, hP.tcpData r f chunk now h.1.1 h.1.2 h.2⟩)
      (fun _ hat => ⟨⟨hbonds, hat⟩, h⟩) trivial

/-- An invariant of every run; `C` is what is known of the events. -/
theorem run {C : Relay ω L τ → Event ω → Prop}
    (hsweep : ∀ (r : Relay ω L τ) now, C r (.sweepIdle now) → Bonds r → r.attaching = false → P r →
      P (r.sweepIdle now)) :
    ∀ (events : List (Event ω)) (r : Relay ω L τ), Bonds r → P r → Throughout C events r →
      P (r.run events)
  | [], _, _, h, _ => h
  | event :: events, r, hbonds, h, hC => by
    refine run hsweep events _ (hbonds.step event) ?_ hC.2
    refine hP.step hbonds h event fun now heq hnone => ?_
    subst heq
    exact hsweep r now hC.1 hbonds hnone h

end Steps

end Relay

end EmulateComputer
