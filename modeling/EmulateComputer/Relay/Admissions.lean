import EmulateComputer.Relay.EventRules
import EmulateComputer.Relay.PeerAccounts

/-!
# Admissions — slots taken and slots given back

The relay's `live` counter, its set of flows and the limiter's slots are kept in step by two places
only: the admission of a channel takes a slot, and the end of `finish` gives one back.  Between the
two halves of `finish` the flow is closed and still in the set; `leaving` lists such flows.

The slots are read off the limiter's own log (`LoggedLimits`).  What the limiter itself holds is
stated for any store whose calls keep its count (`SlotKeeping`), so that the result about the
process and the result about `MemoryLimits` come from one walk.
-/

namespace EmulateComputer

open Function (update update_self update_of_ne update_apply)

namespace Relay

variable {ω L τ : Type}

/-! ## Slots in use -/

/-- The admission holds a slot that no flow holds yet. -/
def Admission.slots (ip : String) (a : Admission) : Nat :=
  if a.phase = .asked (some none) ∧ a.ip = ip then 1 else 0

/-- The slots of `ip` in use: its flows, and its admissions that have been granted. -/
def held (r : Relay ω L τ) (ip : String) : Nat :=
  r.flows.countP (fun f => (r.heap f).ip = ip) + Table.total (Admission.slots ip) r.admissions

section Held

variable {r r' : Relay ω L τ} {f : Nat} {key : Nat × Nat} {a : Admission}

theorem held_eq (hflows : r'.flows = r.flows) (hadmissions : r'.admissions = r.admissions)
    (hip : ∀ f, (r'.heap f).ip = (r.heap f).ip) : r'.held = r.held := by
  funext ip
  simp only [held, hflows, hadmissions, hip]

theorem held_erase (hf : f ∈ r.flows) :
    ({ r with flows := r.flows.erase f } : Relay ω L τ).held =
      update r.held (r.heap f).ip (r.held (r.heap f).ip - 1) := by
  funext ip
  have hcount : r.flows.countP (fun f' => (r.heap f').ip = ip) =
      (f :: r.flows.erase f).countP fun f' => (r.heap f').ip = ip :=
    (List.perm_cons_erase hf).countP_eq _
  rw [List.countP_cons] at hcount
  by_cases heq : ip = (r.heap f).ip
  · subst heq
    rw [update_self]
    simp only [held, decide_true, if_true] at hcount ⊢
    omega
  · rw [update_of_ne heq]
    have hne : decide ((r.heap f).ip = ip) = false := decide_eq_false fun h => heq h.symm
    simp only [held, hne, Bool.false_eq_true, if_false, Nat.add_zero] at hcount ⊢
    rw [hcount]

theorem held_pos (hf : f ∈ r.flows) : 0 < r.held (r.heap f).ip := by
  have hcount : 0 < r.flows.countP fun f' => (r.heap f').ip = (r.heap f).ip :=
    List.countP_pos_iff.2 ⟨f, hf, by simp⟩
  unfold held
  omega

theorem held_erase_admission (ha : r.admissions.lookup key = some a) (ip : String) :
    a.slots ip + ({ r with admissions := r.admissions.erase key } : Relay ω L τ).held ip =
      r.held ip := by
  have htotal := Table.total_erase (Admission.slots ip) ha
  simp only [held]
  omega

/-- An admission that is past its question holds no slot. -/
theorem held_mark (key : Nat × Nat) (hphase : ∀ answer, a.phase ≠ .asked answer) :
    ({ r with admissions := r.admissions.insert key a } : Relay ω L τ).held =
      ({ r with admissions := r.admissions.erase key } : Relay ω L τ).held := by
  funext ip
  have hzero : a.slots ip = 0 := if_neg fun hslot => hphase _ hslot.1
  have htotal := Table.total_insert_erase (Admission.slots ip) r.admissions key a
  simp only [held]
  omega

/-- The slots in use when the slot of the admission `key` has gone to `ip`. -/
def handedOver (r : Relay ω L τ) (key : Nat × Nat) (ip : String) : String → Nat :=
  let held := ({ r with admissions := r.admissions.erase key } : Relay ω L τ).held
  update held ip (held ip + 1)

end Held

variable [Limits L]

/-! ## The count of the limiter -/

/-- `I l held`: the store `l` takes `held ip` slots of each address to be in use. -/
structure SlotKeeping (I : L → (String → Nat) → Prop) : Prop where
  charge : ∀ l ip n held, I l held → I (Limits.charge l ip n).2 held
  release : ∀ l ip held, I l held → 0 < held ip →
    I (Limits.release l ip) (update held ip (held ip - 1))
  granted : ∀ l ip held, (Limits.admitIp l ip).1 = some none → I l held →
    I (Limits.admitIp l ip).2 (update held ip (held ip + 1))
  refused : ∀ l ip refusal held, (Limits.admitIp l ip).1 = some (some refusal) → I l held →
    I (Limits.admitIp l ip).2 held
  undecided : ∀ l ip held, (Limits.admitIp l ip).1 = none → I l held →
    I (Limits.admitIp l ip).2 held
  /-- A store that does not always decide at once may say yes later. -/
  late : ∀ l₀ ip₀ l ip held, (Limits.admitIp (L := L) l₀ ip₀).1 = none → I l held →
    I l (update held ip (held ip + 1))

theorem slotKeeping_true : SlotKeeping fun (_ : L) _ => True := by
  constructor <;> intros <;> trivial

/-- The store has decided whenever a call of `admitIp` returns. -/
def AtOnce (L : Type) [Limits L] : Prop :=
  ∀ (l : L) ip, (Limits.admitIp l ip).1 ≠ none

/-- The log of a store that decides at once: what it granted is what it got back and what is in
use. -/
def Balanced (l : LoggedLimits L) (held : String → Nat) : Prop :=
  AtOnce L → ∀ ip, l.granted.count ip = l.returned.count ip + held ip

theorem count_concat (ips : List String) (ip ip' : String) :
    (ips ++ [ip]).count ip' = ips.count ip' + if ip' = ip then 1 else 0 := by
  simp only [List.count_append, List.count_singleton, beq_iff_eq, eq_comm (a := ip)]

theorem SlotKeeping.logged {I : L → (String → Nat) → Prop} (hI : SlotKeeping I) :
    SlotKeeping fun (l : LoggedLimits L) held => I l.store held ∧ Balanced l held where
  charge := fun l ip n held h => ⟨hI.charge l.store ip n held h.1, h.2⟩
  release := by
    intro l ip held h hheld
    refine ⟨hI.release l.store ip held h.1 hheld, fun honce ip' => ?_⟩
    have hbalanced := h.2 honce ip'
    change l.granted.count ip' = (l.returned ++ [ip]).count ip' + _
    rw [count_concat, update_apply]
    split
    · next heq =>
      subst heq
      omega
    · exact hbalanced
  granted := by
    intro l ip held hanswer h
    have hnone : (Limits.admitIp l.store ip).1 = some none := hanswer
    refine ⟨hI.granted l.store ip held hnone h.1, fun honce ip' => ?_⟩
    have hbalanced := h.2 honce ip'
    change (l.granted ++ if (Limits.admitIp l.store ip).1 = some none then [ip] else []).count ip' =
      l.returned.count ip' + _
    rw [if_pos hnone, count_concat, update_apply]
    split
    · next heq =>
      subst heq
      omega
    · exact hbalanced
  refused := by
    intro l ip refusal held hanswer h
    have hsome : (Limits.admitIp l.store ip).1 = some (some refusal) := hanswer
    refine ⟨hI.refused l.store ip refusal held hsome h.1, fun honce ip' => ?_⟩
    change (l.granted ++ if (Limits.admitIp l.store ip).1 = some none then [ip] else []).count ip' =
      l.returned.count ip' + _
    rw [hsome, if_neg nofun, List.append_nil]
    exact h.2 honce ip'
  undecided := fun l ip held hanswer h =>
    ⟨hI.undecided l.store ip held hanswer h.1, fun honce => absurd hanswer (honce l.store ip)⟩
  late := fun l₀ ip₀ l ip held hanswer h =>
    ⟨hI.late l₀.store ip₀ l.store ip held hanswer h.1,
      fun honce => absurd hanswer (honce l₀.store ip₀)⟩

/-! ## The roster -/

/-- What the roster looks at, apart from the flows themselves and the count of the limiter. -/
def roll (r : Relay ω (LoggedLimits L) τ) :=
  (r.flows, r.live, r.cfg, r.nextFlow, r.admitted, r.limits.returned, r.admissions)

structure Roster (I : LoggedLimits L → (String → Nat) → Prop) (cfg : RelayConfig)
    (leaving : List Nat) (r : Relay ω (LoggedLimits L) τ) : Prop where
  nodup : r.flows.Nodup
  mem : ∀ f, f ∈ r.flows ↔ (r.heap f).state ≠ .closed ∨ f ∈ leaving
  distinct : leaving.Nodup
  shut : ∀ f ∈ leaving, (r.heap f).state = .closed
  made : ∀ f ∈ r.flows, f < r.nextFlow
  live : r.live = r.flows.length
  config : r.cfg = cfg
  bound : r.live ≤ r.cfg.maxConns
  ledger : r.admitted.Perm (r.limits.returned ++ r.flows.map fun f => (r.heap f).ip)
  slots : I r.limits r.held
  undecided : ∀ key a, r.admissions.lookup key = some a → a.phase = .asked none →
    ∃ l ip, (Limits.admitIp (L := LoggedLimits L) l ip).1 = none

variable {I : LoggedLimits L → (String → Nat) → Prop} {cfg : RelayConfig} {leaving : List Nat}
  {r r' : Relay ω (LoggedLimits L) τ} {f : Nat}

/-- Flows that keep their owners, and a limiter that keeps its count. -/
theorem Roster.faces (h : Roster I cfg leaving r) (hsame : r'.roll = r.roll)
    (hface : ∀ f, (r'.heap f).ip = (r.heap f).ip ∧
      ((r'.heap f).state = .closed ↔ (r.heap f).state = .closed)) (hslots : I r'.limits r.held) :
    Roster I cfg leaving r' := by
  have hips : (r.flows.map fun f => (r'.heap f).ip) = r.flows.map fun f => (r.heap f).ip :=
    List.map_congr_left fun f _ => (hface f).1
  simp only [roll, Prod.mk.injEq] at hsame
  obtain ⟨hflows, hlive, hcfg, hnext, hadmitted, hreturned, hadmissions⟩ := hsame
  have hheld := held_eq hflows hadmissions fun f => (hface f).1
  refine ⟨?_, fun f => ?_, h.distinct, ?_, ?_, ?_, hcfg.trans h.config, ?_, ?_, ?_, ?_⟩
  · rw [hflows]
    exact h.nodup
  · rw [hflows, h.mem f, ne_eq, ne_eq, (hface f).2]
  · exact fun f hf => (hface f).2.2 (h.shut f hf)
  · rw [hflows, hnext]
    exact h.made
  · rw [hlive, hflows]
    exact h.live
  · rw [hlive, hcfg]
    exact h.bound
  · rw [hadmitted, hreturned, hflows, hips]
    exact h.ledger
  · rw [hheld]
    exact hslots
  · rw [hadmissions]
    exact h.undecided

theorem Roster.setFlow {g : Flow → Flow} (h : Roster I cfg leaving r)
    (hip : (g (r.heap f)).ip = (r.heap f).ip)
    (hclosed : (g (r.heap f)).state = .closed ↔ (r.heap f).state = .closed) :
    Roster I cfg leaving (r.setFlow f g) := by
  refine h.faces rfl ?_ h.slots
  exact (Function.forall_update_iff r.heap fun f' flow => flow.ip = (r.heap f').ip ∧
    (flow.state = .closed ↔ (r.heap f').state = .closed)).2
    ⟨⟨hip, hclosed⟩, fun _ _ => ⟨rfl, Iff.rfl⟩⟩

theorem Roster.shutFlow (h : Roster I cfg leaving r) (hlive : (r.heap f).state ≠ .closed)
    (why : String) : Roster I cfg (f :: leaving) (r.shut f why) := by
  have hnot : f ∉ leaving := fun hf => hlive (h.shut f hf)
  have hip : ∀ f', ((r.shut f why).heap f').ip = (r.heap f').ip :=
    forall_shut (fun f' flow => flow.ip = (r.heap f').ip) rfl fun _ _ => rfl
  refine ⟨h.nodup, ?_, List.nodup_cons.2 ⟨hnot, h.distinct⟩, ?_, h.made, h.live, h.config, h.bound,
    ?_, ?_, h.undecided⟩
  · intro f'
    change f' ∈ r.flows ↔ _
    rw [h.mem f', List.mem_cons]
    by_cases heq : f' = f
    · subst heq
      simp [hlive]
    · rw [heap_shut_of_ne r why heq]
      simp [heq]
  · intro f' hf'
    by_cases heq : f' = f
    · rw [heq, heap_shut_self]
    · rw [heap_shut_of_ne r why heq]
      exact h.shut f' ((List.mem_cons.1 hf').resolve_left heq)
  · have hips : ((r.shut f why).flows.map fun f' => ((r.shut f why).heap f').ip) =
        r.flows.map fun f' => (r.heap f').ip := List.map_congr_left fun f' _ => hip f'
    rw [hips]
    exact h.ledger
  · have hheld : (r.shut f why).held = r.held := held_eq rfl rfl hip
    rw [hheld]
    exact h.slots

theorem Roster.leave (h : Roster I cfg (f :: leaving) r) (hI : SlotKeeping I) :
    Roster I cfg leaving (r.leave f) := by
  obtain ⟨hnot, hdistinct⟩ := List.nodup_cons.1 h.distinct
  have hmem : f ∈ r.flows := (h.mem f).2 (.inr List.mem_cons_self)
  have hc : (r.heap f).state = .closed := h.shut f List.mem_cons_self
  refine ⟨h.nodup.erase f, ?_, hdistinct, fun f' hf' => h.shut f' (List.mem_cons_of_mem _ hf'),
    fun f' hf' => h.made f' (List.mem_of_mem_erase hf'), ?_, h.config, ?_, ?_, ?_, h.undecided⟩
  · intro f'
    change f' ∈ r.flows.erase f ↔ (r.heap f').state ≠ .closed ∨ f' ∈ leaving
    rw [h.nodup.mem_erase_iff, h.mem f', List.mem_cons]
    by_cases heq : f' = f
    · subst heq
      simp [hc, hnot]
    · simp [heq]
  · change r.live - 1 = ((r.flows.erase f).length : Int)
    have hpos := List.length_pos_of_mem hmem
    rw [h.live, List.length_erase_of_mem hmem]
    omega
  · change r.live - 1 ≤ r.cfg.maxConns
    have hbound := h.bound
    omega
  · change r.admitted.Perm ((r.limits.returned ++ [(r.heap f).ip]) ++
      (r.flows.erase f).map fun f' => (r.heap f').ip)
    have hips := (List.perm_cons_erase hmem).map fun f' => (r.heap f').ip
    refine h.ledger.trans ?_
    rw [List.append_assoc]
    exact hips.append_left r.limits.returned
  · have hrelease := hI.release r.limits (r.heap f).ip r.held h.slots (held_pos hmem)
    rw [← held_erase hmem] at hrelease
    exact hrelease

/-- The limiter charges, and the relay counts other things. -/
theorem Roster.counts (h : Roster I cfg leaving r) (buffered : Int) (choked : Bool) (tcp : τ)
    (limits : LoggedLimits L) (hreturned : limits.returned = r.limits.returned)
    (hslots : I limits r.held) : Roster I cfg leaving { r with buffered, choked, tcp, limits } :=
  h.faces (by simp only [roll, hreturned]) (fun _ => ⟨rfl, Iff.rfl⟩) hslots

theorem ending_roster (hI : SlotKeeping I) : Ending (ω := ω) (τ := τ) (Roster I cfg) where
  peer := fun _ _ _ h =>
    h.faces rfl (fun _ => ⟨rfl, Iff.rfl⟩) h.slots
  pause := by
    intro r _ f paused h
    refine h.faces rfl (fun f' => ?_) h.slots
    have hface := Flow.face_of_core (core_pauseFlow r f' f paused)
    exact ⟨hface.ip, hface.closed⟩
  shut := fun why h hlive => h.shutFlow hlive why
  leave := fun h => h.leave hI

section Finishing

variable [WireSocket ω]

theorem facial_roster (hI : SlotKeeping I) (f : Nat) :
    Facial f (Roster (ω := ω) (τ := τ) I cfg leaving) where
  face := fun _ _ h hface => h.setFlow hface.ip hface.closed
  counts := fun r buffered choked tcp h => h.counts buffered choked tcp r.limits rfl h.slots
  charge := fun r ip n h => h.counts r.buffered r.choked r.tcp _ rfl (hI.charge _ ip n _ h.slots)
  sendText := fun _ _ h => (ending_roster hI).callChannel _ f _ h
  sendBinary := fun _ _ h => (ending_roster hI).callChannel _ f _ h
  ack := fun _ _ h => (ending_roster hI).callChannel _ f _ h
  finish := fun _ why h => (ending_roster hI).finish _ f why h

end Finishing

/-! ## The admission of a channel -/

section Admitting

variable {key : Nat × Nat} {a : Admission}

/-- An admission that held no slot is gone. -/
theorem Roster.forget (h : Roster I cfg leaving r) (ha : r.admissions.lookup key = some a)
    (hphase : a.phase ≠ .asked (some none)) :
    Roster I cfg leaving { r with admissions := r.admissions.erase key } := by
  refine { h with slots := ?_, undecided := ?_ }
  · have hheld : ({ r with admissions := r.admissions.erase key } :
        Relay ω (LoggedLimits L) τ).held = r.held := by
      funext ip
      have hsplit := held_erase_admission ha ip
      have hzero : a.slots ip = 0 := if_neg fun hslot => hphase hslot.1
      omega
    rw [hheld]
    exact h.slots
  · intro key' b hb
    exact h.undecided key' b (Table.lookup_erase_eq_some.1 hb).2

/-- What an admission adds to the slots in use. -/
theorem SlotKeeping.answered (hI : SlotKeeping I) {l : LoggedLimits L} {held : String → Nat}
    (h : I l held) (ip : String) (command : List Char) :
    I (Limits.admitIp l ip).2 fun ip' =>
      Admission.slots ip' ⟨command, ip, .asked (Limits.admitIp l ip).1⟩ + held ip' := by
  rcases hanswer : (Limits.admitIp l ip).1 with _ | _ | refusal
  · simpa [Admission.slots] using hI.undecided l ip held hanswer h
  · have hmore : (fun ip' => Admission.slots ip' ⟨command, ip, .asked (some none)⟩ + held ip') =
        update held ip (held ip + 1) := by
      funext ip'
      by_cases heq : ip' = ip
      · subst heq
        simp [Admission.slots, Nat.add_comm]
      · simp [Admission.slots, Ne.symm heq, update_of_ne heq]
    rw [hmore]
    exact hI.granted l ip held hanswer h
  · simpa [Admission.slots] using hI.refused l ip refusal held hanswer h

/-- The limiter has been asked about a channel that is new to the relay. -/
theorem Roster.ask (hI : SlotKeeping I) (h : Roster I cfg leaving r) {k id : Nat}
    (hfresh : r.admissions.lookup (k, id) = none) (command : List Char) :
    Roster I cfg leaving (r.ask k id command) := by
  have hheld : (r.ask k id command).held = fun ip =>
      Admission.slots ip ⟨command, r.peerIp k, .asked (Limits.admitIp r.limits (r.peerIp k)).1⟩ +
        r.held ip := by
    funext ip
    have hnot : (k, id) ∉ r.admissions := AList.lookup_eq_none.1 hfresh
    have htotal := Table.total_insert (Admission.slots ip)
      (a := ⟨command, r.peerIp k, .asked (Limits.admitIp r.limits (r.peerIp k)).1⟩) hnot
    change r.flows.countP (fun f => (r.heap f).ip = ip) + Table.total _ (r.admissions.insert (k, id)
      ⟨command, r.peerIp k, .asked (Limits.admitIp r.limits (r.peerIp k)).1⟩) = _
    rw [htotal, held]
    omega
  refine { h with slots := ?_, undecided := ?_ }
  · rw [hheld]
    exact hI.answered h.slots (r.peerIp k) command
  · intro key a ha hphase
    rcases Table.lookup_insert_eq_some.1 ha with ⟨-, rfl⟩ | ⟨-, ha⟩
    · exact ⟨r.limits, r.peerIp k, AdmissionPhase.asked.inj hphase⟩
    · exact h.undecided key a ha hphase

variable {ip : String}

/-- The admission the limiter has said yes to gives its slot to someone. -/
theorem Roster.grant (hI : SlotKeeping I) (h : Roster I cfg leaving r) {command : List Char}
    {answer : Option (Option Refusal)}
    (ha : r.admissions.lookup key = some ⟨command, ip, .asked answer⟩)
    (hanswer : answer = none ∨ answer = some none) : I r.limits (r.handedOver key ip) := by
  have hsplit := held_erase_admission (r := r) ha
  unfold handedOver
  generalize ({ r with admissions := r.admissions.erase key } :
    Relay ω (LoggedLimits L) τ).held = held at hsplit ⊢
  rcases hanswer with rfl | rfl
  · -- The store said so later than it was asked.
    obtain ⟨l₀, ip₀, hlate⟩ := h.undecided key _ ha rfl
    have hsame : held = r.held := by
      funext ip'
      simpa [Admission.slots] using hsplit ip'
    rw [hsame]
    exact hI.late l₀ ip₀ _ ip _ hlate h.slots
  · have hsame : update held ip (held ip + 1) = r.held := by
      funext ip'
      rw [← hsplit ip', update_apply]
      split
      · next heq => simp [Admission.slots, heq, Nat.add_comm]
      · next hne => simp [Admission.slots, Ne.symm hne]
    rw [hsame]
    exact h.slots

/-- An admission goes past its question. -/
theorem Roster.undecided_mark (h : Roster I cfg leaving r)
    (hphase : ∀ answer, a.phase ≠ .asked answer) (key' : Nat × Nat) (b : Admission)
    (hb : (r.admissions.insert key a).lookup key' = some b) (hasked : b.phase = .asked none) :
    ∃ l ip, (Limits.admitIp (L := LoggedLimits L) l ip).1 = none := by
  rcases Table.lookup_insert_eq_some.1 hb with ⟨-, rfl⟩ | ⟨-, hb⟩
  · exact absurd hasked (hphase _)
  · exact h.undecided key' b hb hasked

/-- A flow is made for an admission. -/
theorem Roster.makeFlow (h : Roster I cfg leaving r) (hroom : ¬ (r.cfg.maxConns : Int) ≤ r.live)
    (now : Nat) (hphase : ∀ answer, a.phase ≠ .asked answer)
    (hslots : I r.limits (r.handedOver key ip)) :
    Roster I cfg leaving { r.makeFlow ip now with
      admitted := r.admitted ++ [ip]
      admissions := r.admissions.insert key a } := by
  have hold : ∀ f ∈ r.flows, (r.makeFlow ip now).heap f = r.heap f := fun f hf =>
    update_of_ne (Nat.ne_of_lt (h.made f hf)) _ _
  have hself : (r.makeFlow ip now).heap r.nextFlow = .new ip now := update_self _ _ _
  have hips : (r.flows.map fun f => ((r.makeFlow ip now).heap f).ip) =
      r.flows.map fun f => (r.heap f).ip :=
    List.map_congr_left fun f hf => by rw [hold f hf]
  refine ⟨?_, ?_, h.distinct, ?_, ?_, ?_, h.config, ?_, ?_, ?_, ?_⟩
  · have hnew : r.nextFlow ∉ r.flows := fun hin => Nat.lt_irrefl _ (h.made _ hin)
    change (r.flows ++ [r.nextFlow]).Nodup
    rw [← List.concat_eq_append]
    exact h.nodup.concat hnew
  · intro f
    change f ∈ r.flows ++ [r.nextFlow] ↔ ((r.makeFlow ip now).heap f).state ≠ .closed ∨ f ∈ leaving
    rw [List.mem_append, List.mem_singleton]
    by_cases heq : f = r.nextFlow
    · subst heq
      rw [hself]
      simp [Flow.new]
    · have hsame : (r.makeFlow ip now).heap f = r.heap f := update_of_ne heq _ _
      rw [hsame, h.mem f]
      simp [heq]
  · intro f hf
    have hin : f ∈ r.flows := (h.mem f).2 (.inr hf)
    rw [hold f hin]
    exact h.shut f hf
  · intro f hf
    change f < r.nextFlow + 1
    rcases List.mem_append.1 hf with hf | hf
    · have hlt := h.made f hf
      omega
    · rw [List.mem_singleton.1 hf]
      omega
  · change r.live + 1 = ((r.flows ++ [r.nextFlow]).length : Int)
    rw [h.live, List.length_append]
    rfl
  · change r.live + 1 ≤ r.cfg.maxConns
    omega
  · change (r.admitted ++ [ip]).Perm
      (r.limits.returned ++ (r.flows ++ [r.nextFlow]).map fun f => ((r.makeFlow ip now).heap f).ip)
    rw [List.map_append, hips, List.map_singleton, hself, ← List.append_assoc]
    exact h.ledger.append_right [ip]
  · have hheld : ({ r.makeFlow ip now with
          admitted := r.admitted ++ [ip]
          admissions := r.admissions.insert key a } : Relay ω (LoggedLimits L) τ).held =
        r.handedOver key ip := by
      funext ip'
      have hcount : (r.flows ++ [r.nextFlow]).countP
            (fun f => ((r.makeFlow ip now).heap f).ip = ip') =
          r.flows.countP (fun f => (r.heap f).ip = ip') + if ip' = ip then 1 else 0 := by
        rw [List.countP_append, List.countP_singleton, hself]
        congr 1
        · exact List.countP_congr fun f hf => by rw [hold f hf]
        · simp [Flow.new, eq_comm (a := ip)]
      have hmark := congrFun (held_mark (r := r) key hphase) ip'
      change (r.flows ++ [r.nextFlow]).countP _ + Table.total _ (r.admissions.insert key a) = _
      simp only [held, handedOver, update_apply] at hmark ⊢
      rw [hcount]
      split
      · next heq =>
        subst heq
        omega
      · omega
    rw [hheld]
    exact hslots
  · exact h.undecided_mark hphase

/-- The process is full: the slot goes back at once. -/
theorem Roster.giveBack (hI : SlotKeeping I) (h : Roster I cfg leaving r)
    (hphase : ∀ answer, a.phase ≠ .asked answer) (hslots : I r.limits (r.handedOver key ip)) :
    Roster I cfg leaving { r with
      admitted := r.admitted ++ [ip]
      limits := Limits.release r.limits ip
      admissions := r.admissions.insert key a } := by
  refine { h with ledger := ?_, slots := ?_, undecided := h.undecided_mark hphase }
  · refine (h.ledger.append_right [ip]).trans ?_
    change ((r.limits.returned ++ _) ++ [ip]).Perm ((r.limits.returned ++ [ip]) ++ _)
    rw [List.append_assoc, List.append_assoc]
    exact List.perm_append_comm.append_left r.limits.returned
  · unfold handedOver at hslots
    have hrelease := hI.release _ ip _ hslots (by rw [update_self]; omega)
    rw [update_self, Nat.add_sub_cancel, Function.update_idem, Function.update_eq_self,
      ← held_mark key hphase] at hrelease
    exact hrelease

end Admitting

/-! ## Every run -/

theorem roster_new (cfg : RelayConfig) (ipaddr : IpAddr) (store : L) (tcp : τ)
    (hslots : I { store } fun _ => 0) :
    Roster I cfg [] (Relay.new cfg ipaddr { store } tcp : Relay ω (LoggedLimits L) τ) := by
  refine ⟨List.nodup_nil, fun f => ?_, List.nodup_nil, nofun, nofun, rfl, rfl, ?_, .nil, hslots,
    (fun _ _ ha => nomatch ha)⟩
  · change f ∈ ([] : List Nat) ↔ FlowState.closed ≠ .closed ∨ f ∈ ([] : List Nat)
    simp
  · change (0 : Int) ≤ cfg.maxConns
    omega

section Runs

variable [WireSocket ω]

theorem Roster.admitFlow (hI : SlotKeeping I) (h : Roster I cfg leaving r) (k id : Nat)
    (outcome : Except Unit (Option Refusal)) (now : Nat) :
    Roster I cfg leaving (r.admitFlow k id outcome now) := by
  unfold Relay.admitFlow
  split
  · next command ip answer ha =>
    have haway : answer ≠ some none → Roster I cfg leaving (r.turnAway k id) := fun hanswer =>
      (ending_roster hI).callPeer _ k _ ((ending_roster hI).callPeer _ k _
        (h.forget ha fun heq => hanswer (AdmissionPhase.asked.inj heq)))
    cases houtcome : answer.elim outcome .ok with
    | error error =>
      refine haway ?_
      rintro rfl
      cases houtcome
    | ok refusal =>
      cases refusal with
      | some refusal =>
        refine haway ?_
        rintro rfl
        cases houtcome
      | none =>
        have hanswer : answer = none ∨ answer = some none := by
          cases answer with
          | none => exact .inl rfl
          | some answer =>
            cases houtcome
            exact .inr rfl
        have hslots := h.grant hI ha hanswer
        dsimp only
        split
        · exact h.giveBack hI nofun hslots
        · next hroom => exact h.makeFlow hroom now nofun hslots
  · exact h

variable [TcpHost τ]

theorem Roster.wire (hI : SlotKeeping I) (hbonds : Bonds r) (h : Roster I cfg leaving r) (k : Nat)
    (frame : Frame) (now : Nat) : Roster I cfg leaving (r.wire k frame now) := by
  have hnote : Roster I cfg leaving (r.notePayload k frame) :=
    notePayload_rule k frame h
      (fun _ => h.faces rfl (fun _ => ⟨rfl, Iff.rfl⟩) h.slots)
      fun _ _ _ h => h.setFlow rfl Iff.rfl
  exact Bonds.hear_rule (P := Roster I cfg leaving) (k := k)
    { peer := fun _ => (ending_roster hI).peer leaving
      pause := fun _ => (ending_roster hI).pause leaving
      dead := fun _ => (ending_roster hI).finishDead leaving
      ask := fun _ _ command hfresh h => h.ask hI hfresh command
      message := fun _ f msg _ _ _ h => (facial_roster hI f).message h msg now }
    (hbonds.notePayload k frame) frame hnote

theorem steps_roster (hI : SlotKeeping I) : Steps (Roster (ω := ω) (τ := τ) I cfg leaving) where
  callPeer := fun _ => (ending_roster hI).callPeer leaving
  finish := fun _ => (ending_roster hI).finish leaving
  sessions := fun r _ h =>
    h.faces rfl (fun _ => ⟨rfl, Iff.rfl⟩) h.slots
  upgrade := by
    intro r ip ws h
    unfold Relay.upgrade
    split
    · exact h
    · exact h.faces rfl (fun _ => ⟨rfl, Iff.rfl⟩) h.slots
  wire := fun _ k frame now hbonds h => h.wire hI hbonds k frame now
  admitFlow := fun _ k id outcome now _ h => h.admitFlow hI k id outcome now
  forget := fun _ _ a ha hphase h => h.forget ha (by rw [hphase]; exact nofun)
  linked := by
    rintro r key f - ⟨a, ha, hphase⟩ h
    have hforget := h.forget ha (by rw [hphase]; exact nofun)
    exact hforget.faces rfl (fun _ => ⟨rfl, Iff.rfl⟩)
      hforget.slots
  bind := fun _ _ _ h => h.setFlow rfl Iff.rfl
  tcpData := fun _ f chunk now _ _ h => (facial_roster hI f).tcpData h chunk now
  rules := fun f => ((facial_bonds f).and (facial_roster hI f)).rules _

theorem roster_run (hI : SlotKeeping I) (cfg : RelayConfig) (ipaddr : IpAddr) (store : L) (tcp : τ)
    (hslots : I { store } fun _ => 0) (events : List (Event ω)) :
    Roster I cfg [] ((new cfg ipaddr { store } tcp).run events) := by
  refine (steps_roster hI).run (C := fun _ _ => True) ?_ events _ (bonds_new cfg ipaddr _ tcp)
    (roster_new cfg ipaddr store tcp hslots) (throughout_true events _)
  intro r now _ _ _ h
  exact sweepIdle_rule now (fun _ => (ending_roster hI).finish [])
    (fun _ f _ _ h => (facial_roster hI f).sendEof h) h

end Runs

/-! ## The limits in memory -/

/-- The slots a store takes to be in use, and its limit. -/
structure MemorySlots (perIp : LimitConfig) (s : MemoryStore) (held : String → Nat) : Prop where
  config : s.limits.cfg = perIp
  live : ∀ ip, (s.limits.live.lookup ip).getD 0 = held ip
  bound : ∀ ip, held ip ≤ perIp.maxPerIp

theorem slotKeeping_memory {perIp : LimitConfig} (hpos : 0 < perIp.maxPerIp) :
    SlotKeeping (MemorySlots perIp) where
  charge := by
    intro s ip n held h
    obtain ⟨hlive, hcfg⟩ := MemoryLimits.live_exhausted
      (s.limits.count ip n (s.clock s.calls)) ip (s.clock s.calls)
    refine ⟨hcfg.trans h.config, fun ip' => ?_, h.bound⟩
    change ((MemoryLimits.exhausted ip _ _).2.live.lookup ip').getD 0 = held ip'
    rw [hlive]
    exact h.live ip'
  release := by
    intro s ip held h hheld
    have hlive := h.live ip
    refine ⟨?_, fun ip' => ?_, fun ip' => ?_⟩
    · change (s.limits.release ip).cfg = perIp
      unfold MemoryLimits.release
      dsimp only
      split <;> exact h.config
    · change ((s.limits.release ip).live.lookup ip').getD 0 = _
      have hother := h.live ip'
      unfold MemoryLimits.release
      rw [hlive, update_apply]
      dsimp only
      split
      · rw [Table.lookup_erase]
        split
        · rw [Option.getD_none]
          omega
        · exact hother
      · rw [Table.lookup_insert]
        split
        · rfl
        · exact hother
    · have hbound := h.bound ip
      rw [update_apply]
      split
      · omega
      · exact h.bound ip'
  granted := by
    intro s ip held hanswer h
    have hnone : (s.limits.admitIp ip (s.clock s.calls)).1 = none := Option.some.inj hanswer
    obtain ⟨hcfg, ⟨hsome, -⟩ | ⟨-, hroom, hlive⟩⟩ :=
      MemoryLimits.admitIp_cases s.limits ip (s.clock s.calls)
    · exact absurd hnone hsome
    · rw [h.config, h.live ip] at hroom
      rw [h.live ip] at hlive
      refine ⟨hcfg.trans h.config, fun ip' => ?_, fun ip' => ?_⟩
      · change ((s.limits.admitIp ip (s.clock s.calls)).2.live.lookup ip').getD 0 = _
        rw [hlive, Table.lookup_insert, update_apply]
        split
        · rfl
        · exact h.live ip'
      · rw [update_apply]
        split
        · exact hroom hpos
        · exact h.bound ip'
  refused := by
    intro s ip refusal held hanswer h
    have hsome : (s.limits.admitIp ip (s.clock s.calls)).1 = some refusal :=
      Option.some.inj hanswer
    obtain ⟨hcfg, ⟨-, hlive⟩ | ⟨hnone, -⟩⟩ :=
      MemoryLimits.admitIp_cases s.limits ip (s.clock s.calls)
    · refine ⟨hcfg.trans h.config, fun ip' => ?_, h.bound⟩
      change ((s.limits.admitIp ip (s.clock s.calls)).2.live.lookup ip').getD 0 = _
      rw [hlive]
      exact h.live ip'
    · rw [hsome] at hnone
      cases hnone
  undecided := fun _ _ _ hanswer => nomatch hanswer
  late := fun _ _ _ _ _ hanswer => nomatch hanswer

/-! ## Admissions -/

/-- The flows that have been made and have not finished. -/
def unfinished (r : Relay ω L τ) : List Nat :=
  (List.range r.nextFlow).filter fun f => (r.heap f).state ≠ .closed

theorem Roster.perm_unfinished (h : Roster I cfg [] r) : r.flows.Perm r.unfinished := by
  refine (List.perm_ext_iff_of_nodup h.nodup (List.nodup_range.filter _)).2 fun f => ?_
  rw [List.mem_filter, List.mem_range, decide_eq_true_eq]
  constructor
  · intro hf
    exact ⟨h.made f hf, ((h.mem f).1 hf).resolve_right nofun⟩
  · rintro ⟨-, hlive⟩
    exact (h.mem f).2 (.inl hlive)

/-- A channel gets the only slot of its address, another one is refused, the first one closes, and a
third one gets the slot. -/
def slotReuse : List (Event Wire) :=
  [.upgrade "ip" ⟨[], []⟩, .wire 0 (.text "1 CONNECT host:80") 0, .admission 0 1 (.ok none) 0,
    .attach 0 1, .wire 0 (.text "2 CONNECT host:80") 0, .admission 0 2 (.ok none) 0,
    .wire 0 (.text "1 CLOSE") 0, .wire 0 (.text "3 CONNECT host:80") 0,
    .admission 0 3 (.ok none) 0]

end Relay

end EmulateComputer
