import EmulateComputer.Machine.Display

/-!
# DirtyRows — the host's copy of the screen along every run

Whatever the guest, the devices and the host do between two scans, the display stays `Tracked`; a
restore starts a new history.  So the copy a host refreshes row by row is the picture after every
scan, as long as no row is written so often that the sum of its two page counters reaches one of
the two values the display reserves.
-/

namespace EmulateComputer

open Effect Framebuffer Versioned

namespace Display

/-! ## Machine activity -/

section Machine

variable {β ν : Type} {m m' : Machine β ν}

/-- What a machine may do while the host does not look. -/
def Plays (m m' : Machine β ν) : Prop :=
  Redraws m.bus m'.bus ∧ m'.framebuffer = m.framebuffer

instance : IsPreorder (Machine β ν) Plays where
  refl m := ⟨refl_of Redraws m.bus, rfl⟩
  trans _ _ _ := fun h h' => ⟨trans_of Redraws h.1 h'.1, h'.2.trans h.2⟩

theorem plays_of_evolves (hd : m'.bus.framebufferBlitter = m.bus.framebufferBlitter)
    (hram : Ram.Evolves m.bus.ram m'.bus.ram) (hview : m'.framebuffer = m.framebuffer) :
    Plays m m' :=
  ⟨redraws_of_evolves hd hram, hview⟩

theorem plays_of_eq (hd : m'.bus.framebufferBlitter = m.bus.framebufferBlitter)
    (hram : m'.bus.ram = m.bus.ram) (hview : m'.framebuffer = m.framebuffer) : Plays m m' :=
  plays_of_evolves hd (by rw [hram]) hview

variable (m : Machine β ν)

theorem plays_syncIrqs : Plays m m.syncIrqs :=
  plays_of_eq rfl rfl rfl

theorem plays_lazySync : Plays m m.lazySync := by
  unfold Machine.lazySync
  split
  · exact plays_syncIrqs m
  · exact plays_of_eq rfl rfl rfl

theorem plays_interrupt : Plays m m.interrupt := by
  unfold Machine.interrupt
  cases m.cpu.pendingInterrupt with
  | none => exact refl_of Plays m
  | some i => exact plays_of_eq rfl rfl rfl

theorem plays_tickTime : Plays m m.tickTime := by
  unfold Machine.tickTime
  dsimp only
  split_ifs <;> exact plays_of_eq rfl rfl rfl

section Net

variable [NetBackend ν]

theorem evolves_exchange (backend : ν) (bus : Bus β) :
    Ram.Evolves bus.ram (Machine.exchange backend bus).2.ram := by
  have hfirst := VirtioNet.deliverRx_evolves
    ((Machine.transmitAll backend bus.virtioNet.outbox.length bus.virtioNet).2, bus.ram)
  refine hfirst.trans ?_
  exact VirtioNet.deliverRx_evolves ((Machine.receiveUpTo _ _ _).2, (VirtioNet.deliverRx _).2)

variable (m : Machine β ν)

theorem plays_tickNet : Plays m m.tickNet := by
  unfold Machine.tickNet
  cases m.net with
  | none => exact plays_of_eq rfl rfl rfl
  | some backend => exact plays_of_evolves rfl (evolves_exchange backend _) rfl

variable (networked : Bool)

theorem plays_netTurn (n : Nat) (m : Machine β ν) : Plays m (Machine.netTurn networked n m).2 := by
  unfold Machine.netTurn
  split_ifs
  · exact plays_tickNet m
  · exact refl_of Plays m
  · exact refl_of Plays m

theorem plays_beginRun : Plays m m.beginRun := by
  unfold Machine.beginRun
  dsimp only
  have hflag : Plays m (m.withBus fun bus => { bus with deviceIrqsDirty := true }) :=
    plays_of_eq rfl rfl rfl
  split
  · exact trans_of Plays hflag (plays_tickNet _)
  · exact hflag

theorem plays_afterStep (r : StepResult × Machine β ν) :
    match Machine.afterStep networked r with
    | .inl (_, m') => Plays r.2 m'
    | .inr m' => Plays r.2 m' := by
  obtain ⟨result, m⟩ := r
  cases result with
  | waitingForInterrupt =>
    simp only [Machine.afterStep]
    split
    · exact plays_tickNet m
    · exact refl_of Plays m
  | executed =>
    have htime := plays_tickTime m
    simp only [Machine.afterStep]
    cases m.tickTime.bus.shutdown with
    | some code => exact htime
    | none =>
      split_ifs <;> exact htime

variable [BlockBackend β] [ApFloat]

omit [NetBackend ν] in
theorem plays_step : Plays m m.step.2 := by
  refine ⟨?_, rfl⟩
  exact (Hart.BusFrame.of_bus keeps_busRead keeps_busWrite fun addr bus =>
    redraws_of_evolves rfl (Ram.evolves_noteMark bus.ram _)).step m.toSys

theorem plays_runLoop (budget untilNetTick : Nat) (m : Machine β ν) :
    Plays m (Machine.runLoop Machine.lazySync networked budget untilNetTick m).2 := by
  induction budget generalizing untilNetTick m with
  | zero => exact refl_of Plays m
  | succ budget ih =>
    have hturn := plays_netTurn networked untilNetTick m
    have hstep := trans_of Plays hturn (trans_of Plays (plays_lazySync _)
      (trans_of Plays (plays_interrupt _) (plays_step _)))
    have hafter := plays_afterStep networked
      (Machine.interrupt (Machine.lazySync (Machine.netTurn networked untilNetTick m).2)).step
    simp only [Machine.runLoop]
    cases hnext : Machine.afterStep networked
        (Machine.interrupt
          (Machine.lazySync (Machine.netTurn networked untilNetTick m).2)).step with
    | inl r =>
      rw [hnext] at hafter
      exact trans_of Plays hstep hafter
    | inr m' =>
      rw [hnext] at hafter
      exact trans_of Plays (trans_of Plays hstep hafter) (ih _ m')

theorem plays_run (budget : Nat) : Plays m (m.run budget).2 :=
  trans_of Plays (plays_beginRun m) (plays_runLoop _ _ _ _)

end Net

end Machine

/-! ## Restore -/

section Restore

variable {β ν : Type}

/-- A blitter as a restore leaves it: its rows are marked, and the whole screen is to be redrawn. -/
def Marked (d : FramebufferBlitter) : Prop :=
  d.geometryChanged = true ∧
    (d.committed = true → d.generations = List.replicate ROWS RESTORED)

theorem answers_readSection {α : Type} {P : α → Prop} {name : String} {version : U16}
    {body : Read α} (h : Answers P body) : Answers P (Reader.readSection name version body) := by
  refine answers_seq fun _ => answers_ite (fun _ => answers_throw _) fun _ => answers_seq fun _ =>
    answers_seq fun bs => ?_
  have hbody := h (Cursor.new bs.1)
  unfold Post at hbody
  cases hr : body (Cursor.new bs.1) with
  | error why c => exact answers_throw _
  | ok value inner =>
    rw [hr] at hbody
    exact answers_ite (fun _ => answers_throw _) fun _ => answers_pure hbody

theorem answers_restoreBlitter : Answers Marked FramebufferBlitter.restore := by
  refine answers_readSection (answers_seq fun _ => answers_seq fun front => answers_dite
    (fun _ => ?_) fun _ => answers_throw _)
  refine answers_seq fun _ => answers_seq fun _ => answers_seq fun _ => answers_dite
    (fun _ => ?_) fun _ => answers_throw _
  refine answers_seq fun _ => answers_seq fun _ => answers_dite (fun _ => ?_) fun _ =>
    answers_throw _
  refine answers_pure ⟨rfl, fun hcommitted => ?_⟩
  have hempty : front.isEmpty = false := by
    simpa [FramebufferBlitter.committed] using hcommitted
  simp only [hempty]
  rfl

theorem answers_restoreRam (ram : Ram) : Answers (fun ram' => ram'.size = ram.size) ram.restore :=
  answers_seq fun _ => answers_pure (Ram.size_foldl_restorePage _ _)

theorem answers_readContainer (m : Machine β ν) (check : Snapshot.RestoreCheck) :
    Answers (fun r => Marked r.1.bus.framebufferBlitter ∧ r.1.bus.ram.size = m.bus.ram.size ∧
      r.1.framebuffer = m.framebuffer) (m.readContainer check) := by
  have hdevices : ∀ m : Machine β ν, Answers (fun m' => Marked m'.bus.framebufferBlitter ∧
      m'.bus.ram = m.bus.ram ∧ m'.framebuffer = m.framebuffer) m.restoreDevices := by
    intro m
    refine answers_seq fun _ => answers_seq fun _ => answers_seq fun _ => answers_seq fun _ =>
      answers_seq fun _ => answers_seq fun _ => answers_seq fun _ => answers_seq fun _ =>
      answers_seq fun _ => answers_seq fun _ => answers_seq fun _ => ?_
    refine answers_bind answers_restoreBlitter fun d hd => answers_readSection ?_
    exact answers_seq fun _ => answers_seq fun _ => answers_seq fun _ => answers_seq fun _ =>
      answers_seq fun _ => answers_pure ⟨hd, rfl, rfl⟩
  refine answers_seq fun _ => answers_ite (fun _ => answers_throw _) fun _ => ?_
  refine answers_seq fun _ => answers_ite (fun _ => answers_throw _) fun _ => ?_
  refine answers_seq fun _ => answers_seq fun _ => answers_seq fun cpu => ?_
  refine answers_bind (hdevices _) fun m' hm' => ?_
  refine answers_bind (answers_restoreRam _) fun ram hram => answers_seq fun _ => answers_pure ?_
  exact ⟨hm'.1, hram.trans (congrArg Ram.size hm'.2.1), hm'.2.2⟩

end Restore

/-! ## Runs -/

/-- What can happen to a machine and its host.  Guest stores, the blitter's commands and the
guest's choice of a size are bus writes or happen within `run`. -/
inductive Op
  | run (budget : Nat)
  | readPhys (paddr : U64) (size : Nat)
  | writePhys (paddr val : U64) (size : Nat)
  | loadBlob (paddr : U64) (blob : List U8)
  | tickNet
  | addEntropy (bytes : List U8)
  | keyboardEvents (events : List InputEvent)
  | tabletEvents (events : List InputEvent)
  | controlInput (bytes : List U8)
  | controlOutput
  | advanceMtimeFromHost (ticks : U64)
  | requestSize (width height : U32)
  | markAllDirty
  | restore (data : List U8) (check : Snapshot.RestoreCheck)
  | scan

namespace Host

section Runs

variable {β ν : Type} [BlockBackend β] [NetBackend ν] [ApFloat]

/-- The machine after an operation that does not involve the host's screen. -/
def operate (m : Machine β ν) : Op → Option (Machine β ν)
  | .run budget => some (m.run budget).2
  | .readPhys paddr size => some (m.withBus fun bus => (Bus.read paddr size bus).state)
  | .writePhys paddr val size => some (m.withBus fun bus => (Bus.write paddr val size bus).state)
  | .loadBlob paddr blob => some ((m.loadBlob paddr blob).getD m)
  | .tickNet => some m.tickNet
  | .addEntropy bytes => some (m.addEntropy bytes).2
  | .keyboardEvents events => some (m.keyboardEvents events)
  | .tabletEvents events => some (m.tabletEvents events)
  | .controlInput bytes => some (m.controlInput bytes).2
  | .controlOutput => some m.controlOutput.2
  | .advanceMtimeFromHost ticks => some (m.advanceMtimeFromHost ticks)
  | .requestSize width height => some (m.withBus fun bus =>
    { bus with framebufferBlitter :=
        (bus.framebufferBlitter.requestSize width height).getD bus.framebufferBlitter })
  | .markAllDirty => some m.framebufferMarkAllDirty
  | .restore data check =>
    -- A machine that failed to restore is discarded.
    match Machine.restore data check m with
    | .ok _ m' => some m'
    | .error _ _ => none
  | .scan => none

def apply (host : Host β ν) : Op → Option (Host β ν)
  | .scan => some host.scan
  | op => (operate host.machine op).map fun m => { host with machine := m }

/-- The hosts reached from `start` through hosts of which `P` holds. -/
inductive Reaches (P : Host β ν → Prop) (start : Host β ν) : Host β ν → Prop
  | start (h : P start) : Reaches P start start
  | step {host host' : Host β ν} (op : Op) (h : Reaches P start host)
      (hop : host.apply op = some host') (h' : P host') : Reaches P start host'

/-- A machine whose display is as at reset, with RAM for the framebuffer. -/
structure Fresh (m : Machine β ν) : Prop where
  window : m.hasFramebuffer = true
  blitter : m.bus.framebufferBlitter = FramebufferBlitter.new
  view : m.framebuffer = FramebufferView.new

/-! ### Every operation -/

variable {host host' : Host β ν} {m : Machine β ν} {op : Op}

omit [BlockBackend β] [NetBackend ν] [ApFloat] in
theorem IsTracked.plays (h : host.IsTracked) (hplays : Plays host.machine m)
    (hsmall : Unwrapped m.bus.ram) : IsTracked { host with machine := m } := by
  obtain ⟨hredraws, hview⟩ := hplays
  unfold IsTracked
  rw [hview]
  exact hredraws.2 hsmall _ _ h

omit [BlockBackend β] [NetBackend ν] [ApFloat] in
theorem isTracked_fresh (h : Fresh m) (screen : U32 → List U8) :
    IsTracked { machine := m, screen := screen } := by
  refine ⟨_, tracked_fresh (of_decide_eq_true h.window) (fun hcommitted => ?_) ?_ (.inr ?_)⟩
  · rw [h.blitter] at hcommitted
    cases hcommitted
  · rw [h.view]
    exact List.length_replicate
  · rw [h.view]
    exact fun generation hg => List.eq_of_mem_replicate hg

omit [NetBackend ν] [ApFloat] in
theorem IsTracked.restore {data : List U8} {check : Snapshot.RestoreCheck} (h : host.IsTracked)
    (hm : Machine.restore data check host.machine = .ok () m) (hsmall : Unwrapped m.bus.ram) :
    IsTracked { host with machine := m } := by
  obtain ⟨history, h⟩ := h
  have hanswer := answers_readContainer host.machine check (Cursor.new data)
  unfold Machine.restore at hm
  unfold Post at hanswer
  cases hr : host.machine.readContainer check (Cursor.new data) with
  | error why c =>
    rw [hr] at hm
    cases hm
  | ok r c =>
    rw [hr] at hm hanswer
    obtain ⟨⟨hchanged, hmarked⟩, hsize, hview⟩ := hanswer
    have hfresh : IsTracked { machine := r.1.afterRestore, screen := host.screen } := by
      refine ⟨_, tracked_fresh ?_ hmarked ?_ (.inl hchanged)⟩
      · exact hsize.symm ▸ h.window
      · change (r.1.framebuffer.markAllDirty).seen.length = ROWS
        rw [hview, FramebufferView.markAllDirty, List.length_map, h.seen_length]
    have happly : Machine.applyDiskOverlay r.2 r.1.afterRestore = .ok () m := hm
    have hplays := Machine.keeps_applyDiskOverlay (R := Plays)
      (fun _ _ => plays_of_eq rfl rfl rfl) r.2 r.1.afterRestore
    rw [happly] at hplays
    exact hfresh.plays hplays hsmall

/-- Every operation but a scan, a restore and a forced redraw is the machine's own. -/
theorem plays_operate {m' : Machine β ν} (hop : operate m op = some m') :
    Plays m m' ∨ op = .markAllDirty ∨ ∃ data check, op = .restore data check := by
  cases op with
  | run budget =>
    cases hop
    exact .inl (plays_run m budget)
  | readPhys paddr size =>
    cases hop
    exact .inl ⟨keeps_busRead paddr size m.bus, rfl⟩
  | writePhys paddr val size =>
    cases hop
    exact .inl ⟨keeps_busWrite paddr val size m.bus, rfl⟩
  | loadBlob paddr blob =>
    cases hop
    refine .inl ?_
    unfold Machine.loadBlob
    split
    · exact refl_of Plays m
    · cases hload : m.bus.ram.loadBlob (paddr - DRAM_BASE) blob with
      | none => exact refl_of Plays m
      | some ram => exact plays_of_evolves rfl (Ram.evolves_writeSlice hload) rfl
  | tickNet =>
    cases hop
    exact .inl (plays_tickNet m)
  | addEntropy bytes =>
    cases hop
    exact .inl (plays_of_evolves rfl (VirtioEntropy.processQueue_evolves (_, m.bus.ram)) rfl)
  | keyboardEvents events | tabletEvents events =>
    cases hop
    exact .inl (plays_of_evolves rfl (VirtioInput.processEventQueue_evolves (_, m.bus.ram)) rfl)
  | controlInput bytes =>
    cases hop
    refine .inl (plays_of_evolves rfl ?_ rfl)
    change Ram.Evolves m.bus.ram
      (VirtioConsole.hostInput bytes (m.bus.virtioConsole, m.bus.ram)).2.2
    unfold VirtioConsole.hostInput
    split
    · exact VirtioConsole.processQueue_evolves 0 (_, m.bus.ram)
    · exact Ram.Evolves.refl m.bus.ram
  | controlOutput =>
    cases hop
    exact .inl (plays_of_evolves rfl (VirtioConsole.processQueue_evolves 1 (_, m.bus.ram)) rfl)
  | advanceMtimeFromHost ticks =>
    cases hop
    exact .inl (plays_of_eq rfl rfl rfl)
  | requestSize width height =>
    cases hop
    refine .inl ⟨repaints_of_samePicture ?_ m.bus.ram, rfl⟩
    unfold FramebufferBlitter.requestSize
    split <;> exact ⟨rfl, rfl, rfl, rfl⟩
  | markAllDirty => exact .inr (.inl rfl)
  | restore data check => exact .inr (.inr ⟨data, check, rfl⟩)
  | scan => cases hop

theorem apply_eq (hop : host.apply op = some host') :
    (op = .scan ∧ host' = host.scan) ∨
      ∃ m, operate host.machine op = some m ∧ host' = { host with machine := m } := by
  by_cases hscan : op = .scan
  · subst hscan
    cases hop
    exact .inl ⟨rfl, rfl⟩
  · refine .inr ?_
    have hmap : host.apply op =
        (operate host.machine op).map fun m => { host with machine := m } := by
      cases op <;> first | rfl | exact absurd rfl hscan
    obtain ⟨m, hm, rfl⟩ := Option.map_eq_some_iff.mp (hmap.symm.trans hop)
    exact ⟨m, hm, rfl⟩

theorem IsTracked.apply (h : host.IsTracked) (hop : host.apply op = some host')
    (hsmall : Unwrapped host.machine.bus.ram) (hsmall' : Unwrapped host'.machine.bus.ram) :
    host'.IsTracked := by
  rcases apply_eq hop with ⟨-, rfl⟩ | ⟨m, hm, rfl⟩
  · exact isTracked_scan h hsmall
  · rcases plays_operate hm with hplays | rfl | ⟨data, check, rfl⟩
    · exact h.plays hplays hsmall'
    · obtain ⟨history, h⟩ := h
      cases hm
      exact ⟨history, h.unseen _⟩
    · simp only [operate] at hm
      cases hr : Machine.restore data check host.machine with
      | error why m' =>
        rw [hr] at hm
        cases hm
      | ok _ m' =>
        rw [hr] at hm
        cases hm
        exact h.restore hr hsmall'

theorem isTracked_of_reaches (hm : Fresh m) {screen : U32 → List U8}
    (h : Reaches (fun host => Unwrapped host.machine.bus.ram) { machine := m, screen := screen }
      host) : host.IsTracked ∧ Unwrapped host.machine.bus.ram := by
  induction h with
  | start hsmall => exact ⟨isTracked_fresh hm screen, hsmall⟩
  | step op _ hop hsmall' ih => exact ⟨ih.1.apply hop ih.2 hsmall', hsmall'⟩

/-- In every run in which no row is written too often, the host's copy is the picture after each
scan, and a present copies every row of the window. -/
theorem scan_mirrors_of_reaches (m : Machine β ν) (hm : Fresh m) (screen : U32 → List U8)
    (host : Host β ν)
    (h : Reaches (fun host => Unwrapped host.machine.bus.ram) { machine := m, screen := screen }
      host) :
    host.scan.Mirrors ∧
      ∀ t, FramebufferBlitter.present (host.machine.bus.framebufferBlitter, host.machine.bus.ram) =
          .ok () t →
        ∀ row < ROWS, t.1.row row =
          Bytes.slice host.machine.bus.ram.data (FB_RAM_OFFSET + row * FB_STRIDE) FB_STRIDE := by
  obtain ⟨htracked, hsmall⟩ := isTracked_of_reaches hm h
  refine ⟨mirrors_scan htracked hsmall, fun t hpresent row hrow => ?_⟩
  obtain ⟨history, htracked⟩ := htracked
  obtain ⟨-, pixels, gens, hpresented⟩ := FramebufferBlitter.present_ok hpresent
  exact ((htracked.present_rows hsmall hpresented).2 row hrow).2

end Runs

/-- Nothing is attached to the network. -/
@[reducible] def unplugged : NetBackend Empty where
  transmit := nofun
  receive := nofun
  poll := nofun
  nextDeadlineMs := nofun

def displayMachine : Machine MemBackend Empty :=
  .newSystem 134217728 (by decide)

theorem fresh_displayMachine : Fresh displayMachine :=
  ⟨by decide, rfl, rfl⟩

section Poke

variable {β ν : Type}

/-- `host'` is `host` after `n` stores of the byte 1 at one place in RAM. -/
structure Poked (host : Host β ν) (offset n : Nat) (host' : Host β ν) : Prop where
  screen : host'.screen = host.screen
  blitter : host'.machine.bus.framebufferBlitter = host.machine.bus.framebufferBlitter
  view : host'.machine.framebuffer = host.machine.framebuffer
  size : host'.machine.bus.ram.size = host.machine.bus.ram.size
  generations : ∀ page, host'.machine.bus.ram.pageGenerations page =
    host.machine.bus.ram.pageGenerations page + if page = offset / 4096 then n else 0
  data : ∀ i, host'.machine.bus.ram.data i =
    if i = offset ∧ 0 < n then 1 else host.machine.bus.ram.data i

theorem Poked.refl (host : Host β ν) (offset : Nat) : Poked host offset 0 host :=
  ⟨rfl, rfl, rfl, rfl, by simp, by simp⟩

variable {host : Host β ν}

theorem Poked.trans {host' host'' : Host β ν} {offset n m : Nat} (h : Poked host offset n host')
    (h' : Poked host' offset m host'') : Poked host offset (n + m) host'' where
  screen := h'.screen.trans h.screen
  blitter := h'.blitter.trans h.blitter
  view := h'.view.trans h.view
  size := h'.size.trans h.size
  generations page := by
    rw [h'.generations, h.generations]
    split <;> omega
  data i := by
    rw [h'.data, h.data]
    split_ifs <;> first | rfl | omega

variable [BlockBackend β] [NetBackend ν] [ApFloat]

theorem poked_apply {addr : U64} {offset : Nat} (hbase : DRAM_BASE ≤ addr)
    (haddr : (addr - DRAM_BASE).toNat = offset) (hin : offset < host.machine.bus.ram.size) :
    ∃ host', host.apply (.writePhys addr 1 1) = some host' ∧ Poked host offset 1 host' := by
  subst haddr
  have hfits : (addr - DRAM_BASE).toNat + (Bytes.toLE 1 (1 : U64)).length ≤
      host.machine.bus.ram.size := by
    rw [Bytes.length_toLE]
    omega
  have hwrite : (Bus.write addr 1 1 host.machine.bus).state =
      { host.machine.bus with
        ram := host.machine.bus.ram.stored (addr - DRAM_BASE).toNat (Bytes.toLE 1 1) hfits } := by
    unfold Bus.write
    rw [if_pos hbase, Ram.write_eq _ _ _ _ (by decide), Ram.writeSlice_eq, dif_pos hfits]
    rfl
  refine ⟨_, rfl, ?_⟩
  simp only [Machine.withBus, hwrite]
  refine ⟨rfl, rfl, rfl, Ram.size_stored hfits, fun page => ?_, fun i => ?_⟩
  · rw [Ram.pageGenerations_stored, Bytes.length_toLE, Ram.pagesOf, Nat.Ico_succ_singleton,
      Finset.image_singleton]
    simp only [Finset.mem_singleton]
    rfl
  · by_cases hi : i = (addr - DRAM_BASE).toNat
    · subst hi
      simp [Bytes.splice, Bytes.toLE]
    · rw [if_neg fun h => hi h.1]
      by_contra hne
      have hin := Bytes.splice_ne hne
      rw [Bytes.length_toLE] at hin
      omega

end Poke

/-- A scan, a store into the first row and a second scan: the copy has the stored byte. -/
theorem scan_mirrors_store : ∃ host : Host MemBackend Empty,
    @Reaches MemBackend Empty _ unplugged ApFloat.zeros
        (fun host => Unwrapped host.machine.bus.ram) ⟨displayMachine, fun _ => []⟩ host ∧
      Poked (scan ⟨displayMachine, fun _ => []⟩) FB_RAM_OFFSET 1 host ∧ host.scan.Mirrors := by
  let _ := unplugged
  let _ := ApFloat.zeros
  obtain ⟨host, hop, hpoked⟩ := @poked_apply MemBackend Empty (scan ⟨displayMachine, fun _ => []⟩)
    _ _ _ 0x87000000 FB_RAM_OFFSET (by decide) (by decide) (by decide)
  have hreaches : Reaches (fun host => Unwrapped host.machine.bus.ram)
      ⟨displayMachine, fun _ => []⟩ host := by
    refine .step _ (.step .scan (.start fun row _ => ?_) rfl fun row _ => ?_) hop fun row _ => ?_
    · change 0 + 0 < 2 ^ 64 - 2
      decide
    · change 0 + 0 < 2 ^ 64 - 2
      decide
    · have hone : ∀ page, host.machine.bus.ram.pageGenerations page ≤ 1 := fun page => by
        rw [hpoked.generations]
        change 0 + _ ≤ 1
        split <;> decide
      exact (Nat.add_le_add (hone _) (hone _)).trans_lt (by decide)
  exact ⟨host, hreaches, hpoked,
    (scan_mirrors_of_reaches _ fresh_displayMachine (fun _ => []) host hreaches).1⟩

/-! ### A row written too often -/

def PagesUnwrapped {β ν : Type} (host : Host β ν) : Prop :=
  ∀ page, host.machine.bus.ram.pageGenerations page < 2 ^ 64

section Pokes

variable {β ν : Type} [BlockBackend β] [NetBackend ν] [ApFloat] {host : Host β ν}

/-- Many stores to one place. -/
theorem reaches_pokes {start : Host β ν} (addr : U64) (offset : Nat) (hbase : DRAM_BASE ≤ addr)
    (haddr : (addr - DRAM_BASE).toNat = offset) (hin : offset < host.machine.bus.ram.size)
    (n : Nat) (h : Reaches PagesUnwrapped start host)
    (hroom : ∀ page, host.machine.bus.ram.pageGenerations page + n < 2 ^ 64) :
    ∃ host', Reaches PagesUnwrapped start host' ∧ Poked host offset n host' := by
  induction n with
  | zero => exact ⟨host, h, Poked.refl host offset⟩
  | succ n ih =>
    obtain ⟨mid, hmid, hpoked⟩ := ih fun page => by
      have := hroom page
      omega
    have hinMid : offset < mid.machine.bus.ram.size := hpoked.size ▸ hin
    obtain ⟨host', hop, hlast⟩ := poked_apply hbase haddr hinMid
    have hall := hpoked.trans hlast
    refine ⟨host', .step _ hmid hop fun page => ?_, hall⟩
    have := hroom page
    rw [hall.generations]
    split <;> omega

end Pokes

/-- The host of `displayMachine` at the start, with a correct copy of its screen. -/
def displayHost : Host MemBackend Empty :=
  { machine := displayMachine, screen := displayMachine.framebufferRow }

/-- A row whose counters add up to the mark of an unseen row is not reported. -/
theorem not_mirrors_of_unseen {host : Host MemBackend Empty}
    (hblitter : host.machine.bus.framebufferBlitter = FramebufferBlitter.new)
    (hview : host.machine.framebuffer = FramebufferView.new)
    (hsize : host.machine.bus.ram.size = 134217728)
    (hgeneration : rowGeneration host.machine.bus.ram 0 = UNSEEN)
    (hbyte : host.machine.bus.ram.data FB_RAM_OFFSET = 1)
    (hscreen : host.screen 0 = displayMachine.framebufferRow 0) : ¬ host.scan.Mirrors := by
  have hwindow : FB_RAM_OFFSET + FB_BYTES ≤ host.machine.bus.ram.size := by
    rw [hsize]
    decide
  have hclean : (0 : U32) ∉ (host.machine.framebufferDirtyRows []).1 := by
    rw [mem_dirtyRows]
    rintro ⟨i, g, s, hg, hs, hne, hi⟩
    have hshown : Machine.shownGenerations FramebufferBlitter.new host.machine.bus.ram =
        (List.range 768).map (rowGeneration host.machine.bus.ram) :=
      pageGenerationsIn_eq hwindow (by decide)
    rw [hblitter, hshown] at hg
    have hlt : i < 768 := by
      have := (List.getElem?_eq_some_iff.mp hg).1
      simpa using this
    obtain rfl : i = 0 := by
      have hnat := congrArg BitVec.toNat hi
      rw [BitVec.toNat_ofNat, Nat.mod_eq_of_lt (by omega)] at hnat
      exact hnat.symm
    rw [hblitter, hview] at hs
    have hseen : s = UNSEEN := List.eq_of_mem_replicate (List.mem_of_getElem? hs)
    rw [hseen, ← hgeneration] at hne
    simp at hg
    exact hne hg.symm
  intro hmirrors
  have hrow : (0 : U32) < host.scan.machine.bus.framebufferBlitter.active.2 := by
    change (0 : U32) < host.machine.bus.framebufferBlitter.active.2
    rw [hblitter]
    decide
  have hsame := hmirrors 0 hrow
  have hkept : host.scan.screen 0 = host.screen 0 := if_neg hclean
  rw [hkept, hscreen, framebufferRow_eq (m := host.scan.machine) hwindow hrow,
    framebufferRow_eq (m := displayMachine) (by decide) (by decide)] at hsame
  -- The first pixel byte is 1 in RAM and 0 on the screen.
  have hlive : ∀ {d : FramebufferBlitter} {ram : Ram}, d.front = [] →
      (shownRow d ram 0).head? = some (ram.data FB_RAM_OFFSET) := by
    intro d ram hfront
    rw [shownRow, if_neg (by simp [FramebufferBlitter.committed, hfront])]
    rfl
  have hhead := congrArg List.head? hsame
  have hnew : host.scan.machine.bus.framebufferBlitter.front = [] := by
    change host.machine.bus.framebufferBlitter.front = []
    rw [hblitter]
    rfl
  rw [show ((0 : U32).toNat) = 0 from rfl, hlive rfl, hlive hnew] at hhead
  exact absurd (hhead.trans (congrArg some hbyte)) (by decide)

/-- Page counters far from wrapping do not suffice: the two counters of a row can add up to the
mark of a row that was never seen. -/
theorem not_scan_mirrors_of_pagesUnwrapped :
    Fresh displayMachine ∧ ∃ host,
      @Reaches MemBackend Empty _ unplugged ApFloat.zeros PagesUnwrapped displayHost host ∧
        ¬ host.scan.Mirrors := by
  let _ := unplugged
  let _ := ApFloat.zeros
  have hzero : ∀ page, displayHost.machine.bus.ram.pageGenerations page = 0 := fun _ => rfl
  have hstart : Reaches PagesUnwrapped displayHost displayHost := .start fun page => by
    rw [hzero]
    decide
  -- 2^63 stores into the first page of row 0, and one store less into its second page.
  obtain ⟨mid, hmid, hfirst⟩ := reaches_pokes 0x87000000 FB_RAM_OFFSET
    (by decide) (by decide) (by decide) (2 ^ 63) hstart fun page => by
      rw [hzero]
      decide
  have hin : FB_RAM_OFFSET + 4096 < mid.machine.bus.ram.size := by
    rw [hfirst.size]
    decide
  obtain ⟨host, hhost, hsecond⟩ := reaches_pokes 0x87001000
    (FB_RAM_OFFSET + 4096) (by decide) (by decide) hin (2 ^ 63 - 1) hmid fun page => by
      rw [hfirst.generations, hzero]
      split <;> omega
  refine ⟨fresh_displayMachine, host, hhost, not_mirrors_of_unseen ?_ ?_ ?_ ?_ ?_ ?_⟩
  · rw [hsecond.blitter, hfirst.blitter]
    rfl
  · rw [hsecond.view, hfirst.view]
    rfl
  · rw [hsecond.size, hfirst.size]
    rfl
  · rw [rowGeneration_eq]
    simp only [rowSource, hsecond.generations, hfirst.generations, hzero]
    decide
  · rw [hsecond.data, hfirst.data, if_neg (by simp), if_pos ⟨rfl, by decide⟩]
  · have hscreen : displayHost.screen = displayMachine.framebufferRow := rfl
    rw [hsecond.screen, hfirst.screen, hscreen]

end Host

end Display

end EmulateComputer
