import EmulateComputer.Relay.Bonds

/-!
# BondRuns — the bonds hold in every run

The events that make and join the parties: a session arrives or leaves, a channel asks for its
admission, the admission goes on, and the flow is attached.  With the events of the flows, which
pass by the rules for predicates about faces, this gives `bonds_run`.
-/

namespace EmulateComputer

open Function (update update_self update_of_ne)

open MultiplexPeer (Roles Tidy Gone)

namespace Relay

variable {ω L τ : Type} {r : Relay ω L τ} {owed : Nat → List HookCall} {f : Nat} {key : Nat × Nat}

/-! ## Sessions and admissions -/

theorem tidy_new (R : Roles) (maxChannels : Nat) (ws : Option ω) (hbound : ∀ id, ¬ R.bound id)
    (hwaiting : ∀ id, ¬ R.waiting id) (hsaid : ∀ hook, ¬ R.said hook) (hstopped : ¬ R.stopped)
    (hseen : ∀ id, ¬ R.seen id) : Tidy R (MultiplexPeer.new maxChannels ws) := by
  refine ⟨⟨nofun, nofun, ?_, ?_, fun _ _ => nofun, ?_, fun _ _ => nofun, nofun, ?_, ?_⟩,
    fun _ => nofun⟩
  · exact fun id hid => absurd hid (hbound id)
  · exact fun id hid => absurd hid (hwaiting id)
  · exact fun hook hhook => absurd hhook (hsaid hook)
  · exact fun hs => absurd hs hstopped
  · exact fun id hid => absurd hid (hseen id)

theorem bonds_new (cfg : RelayConfig) (ipaddr : IpAddr) (limits : L) (tcp : τ) :
    Bonds (Relay.new cfg ipaddr limits tcp : Relay ω L τ) := by
  have hadmits : ∀ key f, ¬ (Relay.new cfg ipaddr limits tcp : Relay ω L τ).Admits key f := by
    rintro key f ⟨a, ha, -⟩
    cases ha
  refine ⟨?_, fun _ => rfl, (fun _ _ h => nomatch h), (fun _ _ h => nomatch h),
    (fun _ _ h => nomatch h), fun key f h => absurd h (hadmits key f),
    fun key f h => absurd h (hadmits key f), fun key _ f h => absurd h (hadmits key f),
    fun _ _ => ⟨rfl, rfl, rfl, rfl⟩, fun _ _ => ⟨rfl, rfl⟩, (fun _ _ h => nomatch h),
    fun key f h => absurd h (hadmits key f), fun _ _ => ⟨rfl, rfl⟩⟩
  intro k
  refine tidy_new _ 0 none ?_ ?_ (fun _ => nofun) ?_ ?_
  · rintro id ⟨f, hf, -⟩
    cases hf
  · rintro id ⟨a, ha⟩
    cases ha
  · rintro ⟨hk, -⟩
    cases hk
  · exact fun id hid => hid rfl

theorem Bonds.upgrade (h : Bonds r) (ip : String) (ws : ω) : Bonds (r.upgrade ip ws) := by
  unfold Relay.upgrade
  split
  · exact h
  · have hstrange := fun id => h.strange (r.nextPeer, id) (Nat.le_refl _)
    have htidy : Tidy (r.roles r.nextPeer)
        { MultiplexPeer.new r.cfg.maxConns (some ws) with hooks := [] } := by
      refine tidy_new _ _ _ ?_ ?_ (fun _ => nofun) (fun hs => Nat.lt_irrefl _ hs.1) ?_
      · rintro id ⟨f, hf, -⟩
        rw [(hstrange id).1] at hf
        cases hf
      · rintro id ⟨a, ha⟩
        exact Nat.lt_irrefl _ (h.peer_lt ha)
      · exact fun id hid => hid (hstrange id).1
    have hset := h.setPeer htidy fun id f ⟨a, ha, _⟩ => absurd (h.peer_lt ha) (Nat.lt_irrefl _)
    rw [Function.update_eq_self] at hset
    refine { hset with tidy := fun k => ?_, strange := fun key hkey => ?_ }
    · refine (hset.tidy k).weaken { stopped := ?_ }
      rintro ⟨hk, hmem⟩
      have hne : k ≠ r.nextPeer := fun heq => hmem (List.mem_append_right _ (by simp [heq]))
      exact ⟨Nat.lt_of_le_of_ne (Nat.le_of_lt_succ hk) hne,
        fun hin => hmem (List.mem_append_left _ hin)⟩
    · exact h.strange key (Nat.le_of_succ_le hkey)

/-- An admission comes to its end. -/
theorem Bonds.erase (h : Bonds r) (key : Nat × Nat) :
    Bonds { r with admissions := r.admissions.erase key } := by
  have hlookup : ∀ key' a, (r.admissions.erase key).lookup key' = some a →
      r.admissions.lookup key' = some a := by
    exact fun key' a ha => (Table.lookup_erase_eq_some.1 ha).2
  have hadmits : ∀ key' f, ({ r with admissions := r.admissions.erase key } : Relay ω L τ).Admits
      key' f → r.Admits key' f := by
    rintro key' f ⟨a, ha, hphase⟩
    exact ⟨a, hlookup key' a ha, hphase⟩
  refine ⟨?_, h.hooks, h.channel, h.bound, fun key' a ha => h.waiting key' a (hlookup key' a ha),
    fun key' f hf => h.unattached key' f (hadmits key' f hf),
    fun key' f hf => h.cancelled key' f (hadmits key' f hf),
    fun key' key'' f hf hf' => h.distinct key' key'' f (hadmits key' f hf) (hadmits key'' f hf'),
    h.idle, h.made, h.madeData, fun key' f hf => h.madeAdmits key' f (hadmits key' f hf), ?_⟩
  · intro k
    refine (h.tidy k).weaken { waiting := ?_ }
    rintro id ⟨a, ha⟩
    exact ⟨a, hlookup (k, id) a ha⟩
  · intro key' hkey'
    obtain ⟨hdata, hnone⟩ := h.strange key' hkey'
    refine ⟨hdata, ?_⟩
    rw [Table.lookup_erase, hnone, ite_self]

/-- A channel whose admission has ended is nobody's. -/
theorem Bonds.free_erase (h : Bonds r) {a : Admission} (ha : r.admissions.lookup key = some a) :
    ¬ (({ r with admissions := r.admissions.erase key } : Relay ω L τ).rolesNow key.1).bound key.2 ∧
      ¬ (({ r with admissions := r.admissions.erase key } : Relay ω L τ).rolesNow
        key.1).waiting key.2 := by
  constructor
  · rintro ⟨f, hf, -⟩
    exact h.data_ne ha f hf
  · rintro ⟨a', ha'⟩
    rw [Table.lookup_erase, if_pos rfl] at ha'
    cases ha'

/-! ### Admissions that go on -/

section Insert

variable {a a' : Admission}

/-- A flow that has been made and belongs to nobody. -/
structure Unclaimed (f : Nat) (r : Relay ω L τ) : Prop where
  made : f < r.nextFlow
  live : (r.heap f).state ≠ .closed
  ws : (r.heap f).ws = none
  data : ∀ key, r.data key ≠ some f
  admits : ∀ key, ¬ r.Admits key f

/-- An admission is entered for a channel; a flow that it holds was nobody's. -/
theorem Bonds.enter (h : Bonds r) (hphase : ∀ f, a'.phase = .admitted f → r.Unclaimed f)
    (hk : key.1 < r.nextPeer) (hdata : r.data key = none)
    (htidy : Tidy { r.roles key.1 with
      waiting := fun id => (r.roles key.1).waiting id ∨ id = key.2 } (r.peers key.1)) :
    Bonds { r with admissions := r.admissions.insert key a' } := by
  have hadmits : ∀ key' f, ({ r with admissions := r.admissions.insert key a' } :
      Relay ω L τ).Admits key' f → key' = key ∧ r.Unclaimed f ∨ r.Admits key' f := by
    rintro key' f ⟨b, hb, hbphase⟩
    rcases Table.lookup_insert_eq_some.1 hb with ⟨heq, rfl⟩ | ⟨-, hb⟩
    · exact .inl ⟨heq, hphase f hbphase⟩
    · exact .inr ⟨b, hb, hbphase⟩
  refine ⟨?_, h.hooks, h.channel, h.bound, ?_, fun key' f hf => ?_, fun key' f hf hc => ?_,
    fun key' key'' f hf hf' => ?_, h.idle, h.made, h.madeData, fun key' f hf => ?_, ?_⟩
  · intro k
    by_cases heq : k = key.1
    · subst heq
      rw [h.peer_eq]
      refine htidy.weaken { waiting := ?_ }
      rintro id ⟨b, hb⟩
      rcases Table.lookup_insert_eq_some.1 hb with ⟨hkey, -⟩ | ⟨-, hb⟩
      · exact .inr (congrArg Prod.snd hkey)
      · exact .inl ⟨b, hb⟩
    · refine (h.tidy k).weaken { waiting := ?_ }
      rintro id ⟨b, hb⟩
      rcases Table.lookup_insert_eq_some.1 hb with ⟨hkey, -⟩ | ⟨-, hb⟩
      · exact absurd (congrArg Prod.fst hkey) heq
      · exact ⟨b, hb⟩
  · intro key' b hb
    rcases Table.lookup_insert_eq_some.1 hb with ⟨rfl, -⟩ | ⟨-, hb⟩
    · exact hdata
    · exact h.waiting key' b hb
  · rcases hadmits key' f hf with ⟨-, hnew⟩ | hf
    · exact ⟨hnew.ws, hnew.data⟩
    · exact h.unattached key' f hf
  · rcases hadmits key' f hf with ⟨-, hnew⟩ | hf
    · exact absurd hc hnew.live
    · exact h.cancelled key' f hf hc
  · rcases hadmits key' f hf with ⟨hkey', hnew⟩ | hf
    · rcases hadmits key'' f hf' with ⟨hkey'', -⟩ | hf'
      · exact hkey'.trans hkey''.symm
      · exact absurd hf' (hnew.admits key'')
    · rcases hadmits key'' f hf' with ⟨-, hnew⟩ | hf'
      · exact absurd hf (hnew.admits key')
      · exact h.distinct key' key'' f hf hf'
  · rcases hadmits key' f hf with ⟨-, hnew⟩ | hf
    · exact hnew.made
    · exact h.madeAdmits key' f hf
  · intro key' hkey'
    obtain ⟨hnodata, hnone⟩ := h.strange key' hkey'
    have hne : key' ≠ key := by
      rintro rfl
      exact Nat.not_le_of_lt hk hkey'
    refine ⟨hnodata, ?_⟩
    rw [Table.lookup_insert, if_neg hne, hnone]

/-- The admission of a waiting channel is rewritten. -/
theorem Bonds.rewrite (h : Bonds r) (ha : r.admissions.lookup key = some a)
    (hphase : ∀ f, a'.phase = .admitted f → r.Unclaimed f) :
    Bonds { r with admissions := r.admissions.insert key a' } := by
  refine h.enter hphase (h.peer_lt ha) (h.waiting key a ha) ?_
  refine (h.tidyPeer key.1).weaken
    { waiting := ?_, ended := nofun, stopped := (h.tidy key.1).stopped }
  rintro id (hid | rfl)
  · exact hid
  · exact ⟨a, ha⟩

/-- A flow is made that nobody has yet. -/
theorem Bonds.allocate (h : Bonds r) (ip : String) (now : Nat) : Bonds (r.makeFlow ip now) := by
  have hnew : (r.makeFlow ip now).heap r.nextFlow = .new ip now := update_self _ _ _
  have hother : ∀ f, f ≠ r.nextFlow → (r.makeFlow ip now).heap f = r.heap f := fun f hne =>
    update_of_ne hne _ _
  have hdata : ∀ key f, r.data key = some f → (r.makeFlow ip now).heap f = r.heap f :=
    fun key f hf => hother f (h.madeData key f hf).ne
  have hadmits : ∀ key f, r.Admits key f → (r.makeFlow ip now).heap f = r.heap f :=
    fun key f hf => hother f (h.madeAdmits key f hf).ne
  refine ⟨fun k => ?_, h.hooks, fun f key hkey => ?_, fun key f hf hlive => ?_, h.waiting,
    fun key f hf => ?_, fun key f hf hc => ?_, h.distinct, fun f hf => ?_, fun f hf => ?_,
    fun key f hf => Nat.lt_succ_of_lt (h.madeData key f hf),
    fun key f hf => Nat.lt_succ_of_lt (h.madeAdmits key f hf), h.strange⟩
  · refine (h.tidy k).weaken { bound := ?_ }
    rintro id ⟨f, hf, hlive⟩
    refine ⟨f, hf, ?_⟩
    rwa [hdata (k, id) f hf] at hlive
  · by_cases heq : f = r.nextFlow
    · rw [heq, hnew] at hkey
      cases hkey
    · rw [hother f heq] at hkey
      exact h.channel f key hkey
  · rw [hdata key f hf] at hlive ⊢
    exact h.bound key f hf hlive
  · rw [hadmits key f hf]
    exact h.unattached key f hf
  · rw [hadmits key f hf] at hc
    exact h.cancelled key f hf hc
  · by_cases heq : f = r.nextFlow
    · rw [heq, hnew]
      exact ⟨rfl, rfl, rfl, rfl⟩
    · rw [hother f heq] at hf ⊢
      exact h.idle f hf
  · change r.nextFlow + 1 ≤ f at hf
    rw [hother f (by omega)]
    exact h.made f (by omega)

/-- The admission of a waiting channel makes a flow. -/
theorem Bonds.makeFlow (h : Bonds r) (ha : r.admissions.lookup key = some a) (ip : String)
    (now : Nat) (hphase : a'.phase = .admitted r.nextFlow) :
    Bonds { r.makeFlow ip now with admissions := r.admissions.insert key a' } := by
  have hnew : (r.makeFlow ip now).heap r.nextFlow = .new ip now := update_self _ _ _
  refine (h.allocate ip now).rewrite ha fun f hf => ?_
  rw [hphase] at hf
  cases hf
  exact ⟨Nat.lt_succ_self _, by rw [hnew]; exact nofun, by rw [hnew]; rfl,
    fun key hdata => absurd (h.madeData key _ hdata) (Nat.lt_irrefl _),
    fun key hadmits => absurd (h.madeAdmits key _ hadmits) (Nat.lt_irrefl _)⟩

/-- The state of the limiter and the history are nobody's business here. -/
theorem BondsAt.ledger (h : BondsAt owed r) (limits : L) (admitted : List String) :
    BondsAt owed { r with limits, admitted } :=
  h.same rfl rfl

end Insert

/-! ### Attaching a flow -/

/-- The admission goes on with its flow: the channel knows the flow. -/
def linked (key : Nat × Nat) (f : Nat) (r : Relay ω L τ) : Relay ω L τ :=
  ({ r with
    admissions := r.admissions.erase key
    data := update r.data key (some f) } : Relay ω L τ).setPeer key.1
      ((r.peers key.1).attach key.2)

section Link

variable {key' : Nat × Nat} {heap : Nat → Flow}

theorem Bonds.admits_linked (h : Bonds r) (hf : r.Admits key f) {f' : Nat}
    (hf' : (r.linked key f).Admits key' f') : r.Admits key' f' ∧ key' ≠ key ∧ f' ≠ f := by
  obtain ⟨a, ha, hphase⟩ := hf'
  obtain ⟨hne, ha⟩ := Table.lookup_erase_eq_some.1 ha
  have hadmits : r.Admits key' f' := ⟨a, ha, hphase⟩
  refine ⟨hadmits, hne, ?_⟩
  rintro rfl
  exact hne (h.distinct key' key f' hadmits hf)

/-- What a channel has after a flow has been attached. -/
theorem Bonds.data_linked (h : Bonds r) (hf : r.Admits key f) {f' : Nat}
    (hdata : (r.linked key f).data key' = some f') :
    key' = key ∧ f' = f ∨ r.data key' = some f' ∧ key' ≠ key ∧ f' ≠ f := by
  change update r.data key (some f) key' = some f' at hdata
  by_cases heq : key' = key
  · rw [heq, update_self] at hdata
    exact .inl ⟨heq, (Option.some.inj hdata).symm⟩
  · rw [update_of_ne heq] at hdata
    refine .inr ⟨hdata, heq, ?_⟩
    rintro rfl
    exact (h.unattached key f' hf).2 _ hdata

/-- The roles of a session after a flow has been attached, apart from the flow itself. -/
theorem Bonds.roles_linked (h : Bonds r) (hf : r.Admits key f)
    (hother : ∀ f', f' ≠ f → heap f' = r.heap f') (k : Nat) :
    (({ r.linked key f with heap } : Relay ω L τ).roles k).Le
      { r.roles k with
        bound := fun id => (r.roles k).bound id ∨ (k, id) = key ∧ (heap f).state ≠ .closed
        waiting := fun id => (r.roles k).waiting id ∧ (k, id) ≠ key
        seen := fun id => (r.roles k).seen id ∨ (r.roles k).waiting id } where
  bound := by
    rintro id ⟨f', hdata, hlive⟩
    change (heap f').state ≠ .closed at hlive
    rcases h.data_linked hf hdata with ⟨heq, rfl⟩ | ⟨hdata, -, hne⟩
    · exact .inr ⟨heq, hlive⟩
    · rw [hother f' hne] at hlive
      exact .inl ⟨f', hdata, hlive⟩
  waiting := by
    rintro id ⟨a, ha⟩
    obtain ⟨hne, ha⟩ := Table.lookup_erase_eq_some.1 ha
    exact ⟨⟨a, ha⟩, hne⟩
  seen := by
    intro id hid
    change update r.data key (some f) (k, id) ≠ none at hid
    by_cases heq : (k, id) = key
    · obtain ⟨a, ha, -⟩ := hf
      exact .inr ⟨a, heq ▸ ha⟩
    · rw [update_of_ne heq] at hid
      exact .inl hid

/-- A flow is attached; `heap` is what has become of the flow meanwhile. -/
theorem Bonds.linked (h : Bonds r) (hf : r.Admits key f)
    (hother : ∀ f', f' ≠ f → heap f' = r.heap f')
    (hself : (heap f).ws = some key ∨ (heap f).ws = none ∧ (heap f).state = .closed ∧ (heap f).Idle)
    (htidy : Tidy (({ r.linked key f with heap } : Relay ω L τ).roles key.1)
      ((r.peers key.1).attach key.2)) : Bonds { r.linked key f with heap } := by
  obtain ⟨a, ha, hphase⟩ := id hf
  have hhooks : ((r.peers key.1).attach key.2).hooks = [] := h.hooks key.1
  have hpeer : (r.linked key f).peers key.1 = (r.peers key.1).attach key.2 :=
    update_self _ _ _
  have hpeers : ∀ k, k ≠ key.1 → (r.linked key f).peers k = r.peers k := fun k hne =>
    update_of_ne hne _ _
  have hdata : ∀ key', key' ≠ key → (r.linked key f).data key' = r.data key' := fun key' hne =>
    update_of_ne hne _ _
  have hdataKey : (r.linked key f).data key = some f := update_self _ _ _
  have hadmits := fun {key' f'} (hf' : (r.linked key f).Admits key' f') => h.admits_linked hf hf'
  refine ⟨?_, ?_, ?_, ?_, ?_, ?_, ?_, ?_, ?_, ?_, ?_, ?_, ?_⟩
  · intro k
    by_cases heq : k = key.1
    · subst heq
      rw [hpeer, ← hhooks]
      exact htidy
    · rw [hpeers k heq]
      have hle := h.roles_linked hf hother k
      refine (h.tidy k).see.weaken ⟨fun id hid => ?_, fun id hid => (hle.waiting id hid).1,
        hle.ended, hle.said, hle.stopped, hle.seen⟩
      rcases hle.bound id hid with hid | ⟨hkey, -⟩
      · exact hid
      · exact absurd (congrArg Prod.fst hkey) heq
  · intro k
    by_cases heq : k = key.1
    · subst heq
      rw [hpeer]
      exact hhooks
    · rw [hpeers k heq]
      exact h.hooks k
  · intro f' key' hws
    change (heap f').ws = some key' at hws
    by_cases heq : f' = f
    · subst heq
      rcases hself with hself | ⟨hself, -⟩
      · rw [hself] at hws
        cases hws
        exact hdataKey
      · rw [hself] at hws
        cases hws
    · rw [hother f' heq] at hws
      have hold := h.channel f' key' hws
      have hne : key' ≠ key := by
        rintro rfl
        exact h.data_ne ha f' hold
      rw [hdata key' hne]
      exact hold
  · intro key' f' hdata' hlive
    change (heap f').state ≠ .closed at hlive
    change (heap f').ws = some key'
    rcases h.data_linked hf hdata' with ⟨rfl, rfl⟩ | ⟨hold, -, hne⟩
    · rcases hself with hself | ⟨-, hself, -⟩
      · exact hself
      · exact absurd hself hlive
    · rw [hother f' hne] at hlive ⊢
      exact h.bound key' f' hold hlive
  · intro key' b hb
    obtain ⟨hne, hb⟩ := Table.lookup_erase_eq_some.1 hb
    exact (hdata key' hne).trans (h.waiting key' b hb)
  · intro key' f' hf'
    obtain ⟨hold, -, hne⟩ := hadmits hf'
    obtain ⟨hws, hnot⟩ := h.unattached key' f' hold
    change (heap f').ws = none ∧ ∀ key'', (r.linked key f).data key'' ≠ some f'
    rw [hother f' hne]
    refine ⟨hws, fun key'' hdata' => ?_⟩
    rcases h.data_linked hf hdata' with ⟨-, heq⟩ | ⟨hold, -⟩
    · exact hne heq
    · exact hnot key'' hold
  · intro key' f' hf' hc
    obtain ⟨hold, -, hne⟩ := hadmits hf'
    change (heap f').state = .closed at hc
    rw [hother f' hne] at hc
    have hgone := h.cancelled key' f' hold hc
    by_cases heq : key'.1 = key.1
    · rw [heq] at hgone ⊢
      rw [hpeer]
      exact hgone.put fun _ hlive => hlive
    · rw [hpeers _ heq]
      exact hgone
  · intro key' key'' f' hf' hf''
    exact h.distinct key' key'' f' (hadmits hf').1 (hadmits hf'').1
  · intro f' hws
    change (heap f').ws = none at hws
    change (heap f').Idle
    by_cases heq : f' = f
    · subst heq
      rcases hself with hself | ⟨-, -, hidle⟩
      · rw [hself] at hws
        cases hws
      · exact hidle
    · rw [hother f' heq] at hws ⊢
      exact h.idle f' hws
  · intro f' hf'
    change r.nextFlow ≤ f' at hf'
    have hmade := h.madeAdmits key f hf
    change (heap f').ws = none ∧ (heap f').state = .closed
    rw [hother f' (by omega)]
    exact h.made f' hf'
  · intro key' f' hdata'
    rcases h.data_linked hf hdata' with ⟨-, rfl⟩ | ⟨hold, -⟩
    · exact h.madeAdmits key f' hf
    · exact h.madeData key' f' hold
  · intro key' f' hf'
    exact h.madeAdmits key' f' (hadmits hf').1
  · intro key' hkey'
    obtain ⟨hnone, hlookup⟩ := h.strange key' hkey'
    have hne : key' ≠ key := by
      rintro rfl
      rw [ha] at hlookup
      cases hlookup
    refine ⟨(hdata key' hne).trans hnone, ?_⟩
    change (r.admissions.erase key).lookup key' = none
    rw [Table.lookup_erase, if_neg hne]
    exact hlookup

/-- A dead channel gets a flow that has finished. -/
theorem Bonds.linkedDead (h : Bonds r) (hf : r.Admits key f) (heap : Nat → Flow)
    (hother : ∀ f', f' ≠ f → heap f' = r.heap f')
    (hself : (heap f).ws = none ∧ (heap f).state = .closed ∧ (heap f).Idle) :
    Bonds { r.linked key f with heap } := by
  refine h.linked hf hother (.inr hself) ?_
  have hle := h.roles_linked hf hother key.1
  have htidy : Tidy (({ r.linked key f with heap } : Relay ω L τ).roles key.1) (r.peers key.1) := by
    refine (h.tidyPeer key.1).see.weaken ⟨fun id hid => ?_, fun id hid => (hle.waiting id hid).1,
      nofun, nofun, (h.tidy key.1).stopped, hle.seen⟩
    rcases hle.bound id hid with hid | ⟨-, hlive⟩
    · exact hid
    · exact absurd hself.2.1 hlive
  -- The channel is not waiting any more, and nothing is bound to it.
  have horderly : ((r.peers key.1).attach key.2).Orderly
      (({ r.linked key f with heap } : Relay ω L τ).roles key.1) := by
    refine htidy.toOrderly.put (fun _ hlive => hlive)
      (fun _ _ hserving => ⟨hserving.1, hserving.2.1, rfl⟩) fun _ hid => ?_
    exact absurd rfl (hle.waiting key.2 hid).2
  exact { horderly with halted := htidy.halted.put fun _ hlive => hlive }

/-- A live channel gets its flow. -/
theorem Bonds.linkedLive (h : Bonds r) (hf : r.Admits key f) (heap : Nat → Flow)
    (hother : ∀ f', f' ≠ f → heap f' = r.heap f') (hself : (heap f).ws = some key)
    (hlive : ¬ (r.peers key.1).Gone key.2) : Bonds { r.linked key f with heap } := by
  obtain ⟨a, ha, -⟩ := id hf
  refine h.linked hf hother (.inl hself) ?_
  have hle := h.roles_linked hf hother key.1
  refine (MultiplexPeer.tidy_attach (h.tidyPeer key.1).see ⟨a, ha⟩ hlive).weaken
    ⟨fun id hid => ?_, fun id hid => ?_, nofun, nofun, (h.tidy key.1).stopped, hle.seen⟩
  · rcases hle.bound id hid with hid | ⟨hkey, -⟩
    · exact .inl hid
    · exact .inr (congrArg Prod.snd hkey)
  · obtain ⟨hid, hne⟩ := hle.waiting id hid
    exact ⟨hid, fun heq => hne (by rw [heq])⟩

end Link

/-- The flow of a channel that is not cancelled gets the channel. -/
def joined (key : Nat × Nat) (f : Nat) (r : Relay ω L τ) : Relay ω L τ :=
  (r.linked key f).setFlow f fun flow => { flow with ws := some key }

variable {k id : Nat} {P : Relay ω L τ → Prop}

theorem Bonds.joined (h : Bonds r) (hf : r.Admits (k, id) f)
    (hnot : ¬ (r.linked (k, id) f).cancelled k id) :
    (Bonds (r.joined (k, id) f) ∧ (r.joined (k, id) f).Attached f) ∧
      ((r.joined (k, id) f).heap f).state ≠ .closed := by
  have hlive : ¬ (r.peers k).Gone id := by
    intro hgone
    refine hnot ?_
    have hpeer : (r.linked (k, id) f).peers k = (r.peers k).attach id := update_self _ _ _
    have hgone : ((r.peers k).attach id).Gone id := hgone.put fun _ hlive => hlive
    unfold Relay.cancelled
    rw [hpeer]
    cases hch : ((r.peers k).attach id).heap.lookup id with
    | none => rfl
    | some ch => exact hgone ch hch
  have hopen : (r.heap f).state ≠ .closed := fun hc => hlive (h.cancelled (k, id) f hf hc)
  refine ⟨⟨h.linkedLive hf (r.joined (k, id) f).heap
    (fun f' hne => heap_setFlow_of_ne (r.linked (k, id) f) f f' _ hne) ?_ hlive, ?_⟩, ?_⟩
  · rw [Relay.joined, heap_setFlow_self]
  · rw [Attached, Relay.joined, heap_setFlow_self]
    exact Option.some_ne_none _
  · rw [Relay.joined, heap_setFlow_self]
    exact hopen

/-! ## The client's frames -/

theorem notePayload_rule (k : Nat) (frame : Frame) (h : P r)
    (hpayload : ∀ payload, P { r with payload })
    (hflow : ∀ (r : Relay ω L τ) f data, P r →
      P (r.setFlow f fun flow => { flow with received := flow.received ++ data })) :
    P (r.notePayload k frame) := by
  unfold Relay.notePayload
  split
  · exact h
  · split
    · exact h
    · dsimp only
      split
      · exact h
      · split
        · exact hpayload _
        · exact hflow _ _ _ (hpayload _)

theorem Bonds.notePayload (h : Bonds r) (k : Nat) (frame : Frame) :
    Bonds (r.notePayload k frame) := by
  refine notePayload_rule (P := Bonds) k frame h
    (fun _ => h.same rfl rfl) fun _ _ _ h =>
      h.setFlow ⟨rfl, Iff.rfl, rfl⟩ fun _ hidle => ?_
  exact ⟨hidle.task, hidle.dialled, hidle.charging, hidle.quotaTimer⟩

theorem outer_notePayload (k : Nat) (frame : Frame) :
    (r.notePayload k frame).peers = r.peers ∧ (r.notePayload k frame).data = r.data ∧
      (r.notePayload k frame).nextPeer = r.nextPeer :=
  notePayload_rule (P := fun r' => r'.peers = r.peers ∧ r'.data = r.data ∧ r'.nextPeer = r.nextPeer)
    k frame ⟨rfl, rfl, rfl⟩ (fun _ => ⟨rfl, rfl, rfl⟩) fun _ _ _ h => h

theorem Bonds.ask [Limits L] (h : Bonds r) (hk : k < r.nextPeer) (hdata : r.data (k, id) = none)
    (htidy : Tidy { r.roles k with
      waiting := fun id' => (r.roles k).waiting id' ∨ id' = id } (r.peers k))
    (command : List Char) : Bonds (r.ask k id command) := by
  have hlimits : Bonds ({ r with limits := (Limits.admitIp r.limits (r.peerIp k)).2 } :
      Relay ω L τ) :=
    h.ledger _ r.admitted
  exact Bonds.enter hlimits (fun _ => nofun) hk hdata htidy

/-- What a frame of the client asks of the relay; `q` is the session once it has heard the frame. -/
inductive Hears (k : Nat) (frame : Frame) (r : Relay ω L τ) (q : MultiplexPeer ω) : Prop
  | quiet (hooks : ∀ hook ∈ q.hooks, MultiplexPeer.Quiet hook)
      (bonds : BondsAt (owing k q.hooks) (r.setPeer k { q with hooks := [] }))
  | opened (id : Nat) (command : List Char) (hooks : q.hooks = [.opened id command])
      (bonds : Bonds (r.setPeer k { q with hooks := [] })) (data : r.data (k, id) = none)
      (fresh : r.admissions.lookup (k, id) = none)
      (tidy : Tidy { r.roles k with waiting := fun id' => (r.roles k).waiting id' ∨ id' = id }
        { q with hooks := [] })
  | message (id : Nat) (msg : Frame) (hooks : q.hooks = [.message id msg])
      (bonds : Bonds (r.setPeer k { q with hooks := [] }))
      (payload : ∀ data, msg = .binary data →
        ∃ bytes, frame = .binary bytes ∧ Mux.decodeData bytes = .ok (id, data))

section Calls

variable [WireSocket ω]

theorem Bonds.hears (h : Bonds r) (k : Nat) (frame : Frame) :
    Hears k frame r ((r.peers k).message frame) := by
  have htidy : Tidy { r.rolesNow k with
      ended := fun id => id ≤ (r.peers k).lastId ∧ (r.peers k).Gone id } (r.peers k) :=
    (h.tidyPeer k).weaken { ended := fun _ hid => hid.2 }
  have hknown : ∀ id a, r.admissions.lookup (k, id) = some a → id ≤ (r.peers k).lastId :=
    fun id a ha => (h.tidyPeer k).see.seen id (.inr ⟨a, ha⟩)
  have hheard := MultiplexPeer.heard_message htidy (fun id hlt hid => absurd hid.1 (by omega))
    (h.hooks k) frame
  generalize (r.peers k).message frame = q at hheard ⊢
  -- Whatever the frame was, the session is in order once its hooks are owed.
  have hset : ∀ hooks, Tidy { r.rolesNow k with
      ended := fun id => id ≤ (r.peers k).lastId ∧ (r.peers k).Gone id } { q with hooks } →
      BondsAt (owing k hooks) (r.setPeer k { q with hooks := [] }) := by
    intro hooks hq
    refine h.setPeer (hq.weaken { ended := nofun, stopped := (h.tidy k).stopped }) ?_
    rintro id f ⟨a, ha, -⟩ hgone
    exact hq.ended id ⟨hknown id a ha, hgone⟩
  cases hheard with
  | quiet hq => exact .quiet hq.quiet (hset q.hooks hq)
  | opened id command hfresh hhooks hq =>
    have hbonds := hset [] (hq.weaken { waiting := fun _ hid => .inl hid })
    rw [owing_nil] at hbonds
    refine .opened id command hhooks hbonds ?_ ?_ ?_
    · by_contra hsome
      have hle := (h.tidyPeer k).seen id hsome
      omega
    · cases ha : r.admissions.lookup (k, id) with
      | none => rfl
      | some a =>
        have hle := hknown id a ha
        omega
    · exact hq.weaken { ended := nofun, stopped := (h.tidy k).stopped }
  | message id msg hhooks hq hpayload =>
    have hbonds := hset [] hq
    rw [owing_nil] at hbonds
    exact .message id msg hhooks hbonds hpayload

variable [Limits L]

theorem foldl_onHook_of_quiet [TcpHost τ] (k now : Nat) : ∀ (hooks : List HookCall)
    (r : Relay ω L τ), (∀ hook ∈ hooks, MultiplexPeer.Quiet hook) →
      hooks.foldl (onHook k now) r = hooks.foldl (Relay.heed k) r
  | [], _, _ => rfl
  | hook :: hooks, r, hquiet => by
    have hfirst : r.onHook k now hook = r.heed k hook := by
      have hhook := hquiet hook List.mem_cons_self
      cases hook with
      | closed id => rfl
      | pause id paused => rfl
      | opened id command | message id msg => exact hhook.elim
    simp only [List.foldl_cons, hfirst]
    exact foldl_onHook_of_quiet k now hooks _ fun hook hhook =>
      hquiet hook (List.mem_cons_of_mem _ hhook)

/-! ### Sessions that end, admissions that go on -/

theorem Bonds.gone (h : Bonds r) (k : Nat) : Bonds (r.gone k) := by
  have hstop := h.stopPeer k
  refine hstop.sessions fun k' _ hmem => ?_
  by_cases heq : k' = k
  · exact .inr (h.closed_stopPeer k k' (.inl heq))
  · exact .inl fun hin => hmem ((List.mem_erase_of_ne heq).2 hin)

/-- Every session is stopped, then every flow finishes. -/
theorem Bonds.stop (h : Bonds r) : Bonds r.stop := by
  have hloop : ∀ (ks : List Nat) (r : Relay ω L τ), Bonds r →
      let r' := ks.foldl (fun r k => r.callPeer k MultiplexPeer.stop) r
      Bonds r' ∧ r'.outer = r.outer ∧ ∀ k, k ∈ ks ∨ (r.peers k).closed = true →
        (r'.peers k).closed = true := by
    intro ks
    induction ks with
    | nil => exact fun r h => ⟨h, rfl, fun k hk => hk.resolve_left List.not_mem_nil⟩
    | cons k ks ih =>
      intro r h
      obtain ⟨hbonds, houter, hclosed⟩ := ih _ (h.stopPeer k)
      refine ⟨hbonds, houter.trans (outer_callPeer r k _), fun k' hk' => hclosed k' ?_⟩
      rcases hk' with hk' | hk'
      · rcases List.mem_cons.1 hk' with rfl | hk'
        · exact .inr (h.closed_stopPeer k' k' (.inl rfl))
        · exact .inl hk'
      · exact .inr (h.closed_stopPeer k k' (.inr hk'))
  obtain ⟨hbonds, houter, hclosed⟩ := hloop r.sessions r h
  unfold Relay.stop
  generalize r.sessions.foldl (fun r k => r.callPeer k MultiplexPeer.stop) r = stopped at *
  have hnext : stopped.nextPeer = r.nextPeer := congrArg Outer.nextPeer houter
  have hall : ∀ k, k < stopped.nextPeer → (stopped.peers k).closed = true := by
    intro k hk
    by_cases hmem : k ∈ r.sessions
    · exact hclosed k (.inl hmem)
    · refine hclosed k (.inr ?_)
      exact (h.tidy k).stopped ⟨hnext ▸ hk, hmem⟩
  have hempty : Bonds { stopped with sessions := [] } :=
    hbonds.sessions fun k hk _ => .inr (hall k hk)
  -- No session has a live channel left, so any flow may finish.
  refine (finishAll_rule
    (P := fun r => Bonds r ∧ ∀ k, k < r.nextPeer → (r.peers k).closed = true) ?_ _
    ⟨hempty, hall⟩).1
  rintro r f why ⟨h, hall⟩
  have hmay : r.MayFinish f := by
    rintro key ⟨a, ha, -⟩
    exact (h.tidy key.1).halted (hall key.1 (h.peer_lt ha)) key.2
  obtain ⟨hfinish, hclosed⟩ := h.finish hmay why
  refine ⟨hfinish, fun k hk => hclosed k (hall k ?_)⟩
  rw [← show (r.finish f why).nextPeer = r.nextPeer from
    congrArg Outer.nextPeer (outer_finish r f why)]
  exact hk

theorem Bonds.turnAway (h : Bonds r) {a : Admission}
    (ha : r.admissions.lookup (k, id) = some a) : Bonds (r.turnAway k id) := by
  have herase := h.erase (k, id)
  obtain ⟨hbound, hwaiting⟩ := h.free_erase ha
  set r' : Relay ω L τ := { r with admissions := r.admissions.erase (k, id) }
  have htext := MultiplexPeer.tidy_sendText (herase.tidyPeer k) id "ERR connection limit"
  have hsent := herase.callPeer k htext
  have houter := outer_callPeer r' k (MultiplexPeer.sendText id "ERR connection limit")
  refine hsent.callPeer k (MultiplexPeer.tidy_close (hsent.tidyPeer k) ?_ ?_)
  · rintro ⟨f, hf, -⟩
    rw [show (r'.callPeer k (MultiplexPeer.sendText id "ERR connection limit")).data = r'.data from
      congrArg Outer.data houter] at hf
    exact h.data_ne ha f hf
  · rintro ⟨a', ha'⟩
    rw [show (r'.callPeer k (MultiplexPeer.sendText id "ERR connection limit")).admissions =
      r'.admissions from congrArg Outer.admissions houter] at ha'
    exact hwaiting ⟨a', ha'⟩

theorem Bonds.slotReturned (h : Bonds r) (k id : Nat) (ok : Bool) :
    Bonds (r.slotReturned k id ok) := by
  unfold Relay.slotReturned
  split
  · next ha =>
    split
    · exact h.turnAway ha
    · have herase := h.erase (k, id)
      exact herase.callPeer k (MultiplexPeer.tidy_abort (herase.tidyPeer k) id).1
  · exact h

theorem Bonds.admitFlow (h : Bonds r) (k id : Nat) (outcome : Except Unit (Option Refusal))
    (now : Nat) : Bonds (r.admitFlow k id outcome now) := by
  unfold Relay.admitFlow
  split
  · next command ip answer ha =>
    split
    · exact h.turnAway ha
    · exact h.turnAway ha
    · dsimp only
      split
      · have hrewrite : Bonds { r with
            admissions := r.admissions.insert (k, id) ⟨command, ip, .releasing⟩ } :=
          h.rewrite ha fun _ h => nomatch h
        exact hrewrite.ledger _ _
      · exact (h.makeFlow ha ip now rfl).ledger _ _
  · exact h

theorem Bonds.cancel (h : Bonds r) (hf : r.Admits key f) (why : String) :
    Bonds ((r.linked key f).finish f why) := by
  obtain ⟨hws, -⟩ := h.unattached key f hf
  have hidle := h.idle f hws
  by_cases hc : (r.heap f).state = .closed
  · have hsame : (r.linked key f).finish f why = r.linked key f := if_pos hc
    rw [hsame]
    exact h.linkedDead hf r.heap (fun _ _ => rfl) ⟨hws, hc, hidle⟩
  · have hshut := h.linkedDead hf ((r.linked key f).shut f why).heap
      (fun f' hne => heap_shut_of_ne _ _ hne) ?_
    · have hopen : ((r.linked key f).heap f).state ≠ .closed := hc
      unfold Relay.finish
      rw [if_neg hopen]
      refine BondsAt.leave ?_ f
      -- The flow has no channel to close.
      have hnone : (((r.linked key f).shut f why).heap f).ws = none := by
        rw [heap_shut_self]
        exact hws
      unfold Relay.callChannel
      rw [hnone]
      exact hshut.same rfl rfl
    · rw [heap_shut_self]
      exact ⟨hws, rfl, hidle.task, hidle.dialled, hidle.charging, rfl⟩

/-- The `open` hook goes on with its flow, or has nothing to go on with. -/
theorem attach_cases (r : Relay ω L τ) (k id : Nat) :
    r.attach k id = r ∨ ∃ f command, r.Admits (k, id) f ∧
      r.attach k id = if (r.linked (k, id) f).cancelled k id then
          (r.linked (k, id) f).finish f "cancelled before admission"
        else (r.joined (k, id) f).command f command := by
  unfold Relay.attach
  split
  · next command ip f ha => exact .inr ⟨f, command, ⟨_, ha, rfl⟩, rfl⟩
  · exact .inl rfl

variable [TcpHost τ]

theorem Bonds.attach (h : Bonds r) (k id : Nat) : Bonds (r.attach k id) := by
  rcases attach_cases r k id with heq | ⟨f, command, hf, heq⟩
  · rw [heq]
    exact h
  · rw [heq]
    split
    · exact h.cancel hf _
    · next hnot =>
      obtain ⟨hjoined, hopen⟩ := h.joined hf hnot
      exact (((facial_bonds f).rules fun _ => True).command hjoined hopen command).1

/-- A message reaches the flow of its channel, or nobody. -/
theorem Bonds.onHook_message (h : Bonds r) (k id now : Nat) (msg : Frame) :
    r.onHook k now (.message id msg) = r ∨ ∃ f, r.Attached f ∧ (r.heap f).state ≠ .closed ∧
      r.onHook k now (.message id msg) = r.message f msg now := by
  unfold onHook
  dsimp only
  cases hdata : r.data (k, id) with
  | none => exact .inl rfl
  | some f =>
    by_cases hc : (r.heap f).state = .closed
    · exact .inl (if_pos hc)
    · refine .inr ⟨f, ?_, hc, rfl⟩
      rw [Attached, h.bound (k, id) f hdata hc]
      exact Option.some_ne_none _

/-- The session hears a frame, and the relay what the session makes of it. -/
theorem Bonds.hear (h : Bonds r) {k : Nat} (hk : k < r.nextPeer) (frame : Frame) (now : Nat) :
    Bonds (((r.peers k).message frame).hooks.foldl (onHook k now)
      (r.setPeer k { (r.peers k).message frame with hooks := [] })) := by
  have hears := h.hears k frame
  generalize (r.peers k).message frame = q at hears ⊢
  cases hears with
  | quiet hquiet howed =>
    rw [foldl_onHook_of_quiet k now _ _ hquiet]
    exact BondsAt.heedAll _ _ howed
  | opened id command hhooks hbonds hnodata hfresh hq =>
    rw [hhooks]
    refine Bonds.ask hbonds hk hnodata ?_ command
    have hpeer : (r.setPeer k { q with hooks := [] }).peers k = { q with hooks := [] } :=
      update_self _ _ _
    rw [hpeer]
    exact hq
  | message id msg hhooks hbonds hpayload =>
    rw [hhooks]
    change Bonds (onHook k now _ (.message id msg))
    rcases hbonds.onHook_message k id now msg with heq | ⟨f, hat, -, heq⟩ <;> rw [heq]
    · exact hbonds
    · exact ((facial_bonds f).message ⟨hbonds, hat⟩ msg now).1

theorem Bonds.wire (h : Bonds r) {k : Nat} (hk : k < r.nextPeer) (frame : Frame) (now : Nat) :
    Bonds (r.wire k frame now) := by
  have hnote := h.notePayload k frame
  have hnext : k < (r.notePayload k frame).nextPeer := by
    rw [(outer_notePayload k frame).2.2]
    exact hk
  exact hnote.hear hnext frame now

end Calls

/-! ## Every run -/

/-- A flow for which an event is due has a channel. -/
theorem Bonds.attached (h : Bonds r) (hdue : ¬ (r.heap f).Idle) : r.Attached f :=
  fun hnone => hdue (h.idle f hnone)

theorem not_admits_of_attaching (hnone : r.attaching = false) (key : Nat × Nat) (f : Nat) :
    ¬ r.Admits key f := by
  rintro ⟨a, ha, hphase⟩
  have hentry := List.any_eq_false.1 hnone ⟨key, a⟩ (AList.mem_lookup_iff.1 ha)
  simp [hphase] at hentry

variable [WireSocket ω] [Limits L]

theorem Bonds.sweepIdle (h : Bonds r) (hnone : r.attaching = false) (now : Nat) :
    Bonds (r.sweepIdle now) := by
  have hmay : ∀ r' : Relay ω L τ, r'.admissions = r.admissions → ∀ f, r'.MayFinish f := by
    rintro r' hsame f key ⟨a, ha, hphase⟩
    rw [hsame] at ha
    exact absurd ⟨a, ha, hphase⟩ (not_admits_of_attaching hnone key f)
  refine (sweepIdle_rule (P := fun r' => Bonds r' ∧ r'.admissions = r.admissions) now ?_ ?_
    ⟨h, rfl⟩).1
  · rintro r' f why ⟨h', hsame⟩
    exact ⟨(h'.finish (hmay r' hsame f) why).1,
      (congrArg Outer.admissions (outer_finish r' f why)).trans hsame⟩
  · rintro r' f - - ⟨h', hsame⟩
    have hnoted : Bonds (r'.setFlow f fun flow => { flow with
        eofs := flow.eofs ++ [{ delivered := flow.delivered, handed := flow.handed }] }) :=
      h'.setFlow ⟨rfl, Iff.rfl, rfl⟩ fun _ hidle =>
        ⟨hidle.task, hidle.dialled, hidle.charging, hidle.quotaTimer⟩
    exact ⟨hnoted.callChannel (fun _ id _ hp => MultiplexPeer.tidy_sendText hp id "EOF") f,
      (congrArg Outer.admissions (outer_callChannel _ f _)).trans hsame⟩

variable [TcpHost τ]

def Event.OfFlow : Event ω → Prop
  | .resolved .. | .tcpOpen _ | .tcpData .. | .tcpDrain _ | .tcpEnd _ | .tcpError ..
  | .connectFailed .. | .verdict .. | .quotaTimeout _ => True
  | _ => False

/-- An event that concerns a flow finds it attached and acts by its rules, or changes nothing. -/
theorem Bonds.step_flow (h : Bonds r) (hr : P r) {E Q : Nat → Relay ω L τ → Prop}
    (hQ : ∀ f r, Q f r → P r) (hrules : ∀ f, Rules f (E f) (Q f))
    (hE : ∀ f r, (r.heap f).pending = [] → (r.heap f).state ≠ .closed → E f r)
    (hdata : ∀ f chunk now, Q f r → Q f (r.tcpData f chunk now)) (hat : ∀ f, r.Attached f → Q f r)
    {event : Event ω} (hevent : event.OfFlow) : P (r.step event) := by
  have hdialled : ∀ {f}, (r.heap f).dialled = true → Q f r := fun hdue =>
    hat _ (h.attached fun hidle => by rw [hidle.dialled] at hdue; cases hdue)
  have hguard : ∀ (f : Nat) {c : Bool} {r' : Relay ω L τ}, (c = true → Q f r') →
      P (if c then r' else r) := by
    intro f c r' hr'
    split
    · next hc => exact hQ f r' (hr' hc)
    · exact hr
  cases event with
  | upgrade | wire | drain | gone | admission | slotReturned | attach | sweepIdle | stop =>
    exact hevent.elim
  | resolved f hits =>
    cases htask : (r.heap f).task with
    | none =>
      simp only [Relay.step, Relay.resolved, htask]
      exact hr
    | some cmd =>
      refine hQ f _ ((hrules f).resolved (hat f (h.attached fun hidle => ?_)) hits)
      rw [hidle.task] at htask
      cases htask
  | tcpOpen f => exact hguard f fun hdue => (hrules f).tcpOpen (hdialled hdue)
  | tcpData f chunk now => exact hguard f fun hdue => hdata f chunk now (hdialled hdue)
  | tcpDrain f => exact hguard f fun hdue => (hrules f).drainBacklog r (hdialled hdue)
  | tcpEnd f => exact hguard f fun hdue => (hrules f).tcpEnd (hE f) (hdialled hdue)
  | tcpError f error => exact hguard f fun hdue => (hrules f).finish r _ (hdialled hdue)
  | connectFailed f code => exact hguard f fun hdue => (hrules f).connectFailed (hdialled hdue) code
  | verdict f answer =>
    refine hguard f fun hdue => (hrules f).verdict (hat f (h.attached fun hidle => ?_)) hdue answer
    rw [hidle.charging] at hdue
    cases hdue
  | quotaTimeout f =>
    refine hguard f fun hdue => (hrules f).finish r _ (hat f (h.attached fun hidle => ?_))
    rw [hidle.quotaTimer] at hdue
    cases hdue

theorem Bonds.step (h : Bonds r) (event : Event ω) : Bonds (r.step event) := by
  cases event with
  | upgrade ip ws => exact h.upgrade ip ws
  | wire k frame now =>
    simp only [Relay.step]
    split
    · next hk => exact h.wire hk frame now
    · exact h
  | drain k =>
    simp only [Relay.step]
    split
    · exact h.callPeer k (MultiplexPeer.tidy_drain (h.tidyPeer k))
    · exact h
  | gone k =>
    simp only [Relay.step]
    split
    · exact h.gone k
    · exact h
  | admission k id outcome now => exact h.admitFlow k id outcome now
  | slotReturned k id ok => exact h.slotReturned k id ok
  | attach k id => exact h.attach k id
  | sweepIdle now =>
    simp only [Relay.step]
    split
    · exact h
    · next hnone => exact h.sweepIdle (by simpa using hnone) now
  | stop => exact h.stop
  | _ =>
    exact h.step_flow (P := Bonds) h (fun _ _ => And.left)
      (fun f => (facial_bonds f).rules fun _ => True) (fun _ _ _ _ => trivial)
      (fun f chunk now h => (facial_bonds f).tcpData h chunk now) (fun _ hat => ⟨h, hat⟩) trivial

end Relay

end EmulateComputer
