import EmulateComputer.Cpu.Frame
import EmulateComputer.Machine

/-!
# LazySync — the recheck flag loses no interrupt

`run` drives the device lines into the PLIC only when the bus has raised its recheck flag.  The
invariant of the loop: while the flag is down, the PLIC shows the level of every line.  Under it
the lazy synchronisation equals the full one, and so does everything that follows.
-/

namespace EmulateComputer

namespace Machine

open Effect

variable {β ν : Type}

/-- While the recheck flag is down, the PLIC shows every line. -/
def InSync (bus : Bus β) : Prop :=
  bus.deviceIrqsDirty = false → ∀ line ∈ irqLines bus, bus.plic.Shows line

theorem inSync_of_dirty {bus : Bus β} (h : bus.deviceIrqsDirty = true) : InSync bus := by
  intro hclean
  rw [h] at hclean
  cases hclean

/-! ## The synchronisation -/

theorem irqLines_isSource (bus : Bus β) : ∀ line ∈ irqLines bus, Plic.IsSource line.1 := by
  intro line hmem
  simp only [irqLines, List.mem_cons, List.not_mem_nil, or_false] at hmem
  rcases hmem with rfl | rfl | rfl | rfl | rfl | rfl | rfl | rfl
  all_goals
    dsimp only
    exact ⟨by decide, by decide⟩

theorem irqLines_nodup (bus : Bus β) : ((irqLines bus).map Prod.fst).Nodup := by
  change [Bus.UART_IRQ, Bus.RTC_IRQ, Bus.VIRTIO_IRQ, Bus.VIRTIO_RNG_IRQ, Bus.VIRTIO_NET_IRQ,
    Bus.VIRTIO_KBD_IRQ, Bus.VIRTIO_CONSOLE_IRQ, Bus.VIRTIO_TABLET_IRQ].Nodup
  decide

theorem inSync_syncIrqs (m : Machine β ν) : InSync m.syncIrqs.bus := fun _ =>
  Plic.shows_driveLines m.bus.plic (irqLines_isSource m.bus) (irqLines_nodup m.bus)

variable {m : Machine β ν}

/-- With the invariant the lazy synchronisation is the full one. -/
theorem lazySync_eq_syncIrqs (h : InSync m.bus) : m.lazySync = m.syncIrqs := by
  unfold lazySync
  cases hdirty : m.bus.deviceIrqsDirty with
  | true => rfl
  | false =>
    have hlines := Plic.driveLines_of_shows (h hdirty)
    rw [syncIrqs, withBus_eq_self (by rw [hlines, ← hdirty])]
    rfl

/-! ## The loop -/

theorem InSync.of_dirtyOrRam {bus bus' : Bus β} (h : InSync bus) (hbus : Bus.DirtyOrRam bus bus') :
    InSync bus' := by
  rcases hbus with hdirty | ⟨ram, rfl⟩
  · exact inSync_of_dirty hdirty
  · exact h

theorem inSync_interrupt (h : InSync m.bus) : InSync m.interrupt.bus := by
  unfold interrupt
  cases m.cpu.pendingInterrupt with
  | none | some i => exact h

/-- Time moves no line within a slice: the RTC follows the host clock alone. -/
theorem inSync_tickTime (h : InSync m.bus) : InSync m.tickTime.bus := by
  unfold tickTime
  dsimp only
  split_ifs
  · exact h
  · exact h
  · exact h

section

variable [NetBackend ν]

theorem dirty_tickNet (m : Machine β ν) : m.tickNet.bus.deviceIrqsDirty = true := by
  unfold tickNet
  cases m.net with
  | none => rfl
  | some backend => rfl

variable {networked : Bool}

theorem inSync_netTurn (h : InSync m.bus) (networked : Bool) (n : Nat) :
    InSync (netTurn networked n m).2.bus := by
  unfold netTurn
  split_ifs
  · exact inSync_of_dirty m.dirty_tickNet
  · exact h
  · exact h

theorem inSync_beginRun (m : Machine β ν) : InSync m.beginRun.bus := by
  unfold beginRun
  dsimp only
  split_ifs
  · exact inSync_of_dirty (dirty_tickNet _)
  · exact inSync_of_dirty rfl

theorem inSync_afterStep {r : StepResult × Machine β ν} (h : InSync r.2.bus)
    (hnext : afterStep networked r = .inr m) : InSync m.bus := by
  obtain ⟨result, m'⟩ := r
  cases result with
  | waitingForInterrupt => cases hnext
  | executed =>
    have htime : InSync m'.tickTime.bus := inSync_tickTime h
    simp only [afterStep] at hnext
    split at hnext
    · cases hnext
    · split at hnext
      · cases hnext
      · cases hnext
        exact htime

variable [BlockBackend β] [ApFloat]

omit [NetBackend ν] in
theorem inSync_step (h : InSync m.bus) : InSync m.step.2.bus :=
  h.of_dirtyOrRam <|
    (Hart.BusFrame.of_bus Bus.keeps_read_dirtyOrRam Bus.keeps_write_dirtyOrRam
      fun _ _ => Or.inr ⟨_, rfl⟩).step m.toSys

/-- One turn of the loop leads back to the invariant. -/
theorem inSync_turn {m' : Machine β ν}
    (h : afterStep networked m.syncIrqs.interrupt.step = .inr m') : InSync m'.bus :=
  inSync_afterStep (inSync_step (inSync_interrupt m.inSync_syncIrqs)) h

/-- The machines at the instruction boundaries of the loop, each as it is before its lines are
synchronised. -/
def boundaries (sync : Machine β ν → Machine β ν) (networked : Bool) :
    Nat → Nat → Machine β ν → List (Machine β ν)
  | 0, _, _ => []
  | budget + 1, untilNetTick, m =>
    let t := netTurn networked untilNetTick m
    t.2 ::
      match afterStep networked (interrupt (sync t.2)).step with
      | .inl _ => []
      | .inr m => boundaries sync networked budget t.1 m

theorem runLoop_lazySync (networked : Bool) (budget untilNetTick : Nat) (h : InSync m.bus) :
    (∀ b ∈ boundaries lazySync networked budget untilNetTick m, b.lazySync = b.syncIrqs) ∧
      boundaries lazySync networked budget untilNetTick m =
        boundaries syncIrqs networked budget untilNetTick m ∧
      runLoop lazySync networked budget untilNetTick m =
        runLoop syncIrqs networked budget untilNetTick m := by
  induction budget generalizing untilNetTick m with
  | zero => exact ⟨fun b hmem => absurd hmem List.not_mem_nil, rfl, rfl⟩
  | succ budget ih =>
    have hsync := lazySync_eq_syncIrqs (inSync_netTurn h networked untilNetTick)
    simp only [boundaries, runLoop, hsync]
    cases hnext : afterStep networked
        (interrupt (syncIrqs (netTurn networked untilNetTick m).2)).step with
    | inl r => exact ⟨fun b hmem => by rw [List.mem_singleton.mp hmem, hsync], rfl, rfl⟩
    | inr m' =>
      obtain ⟨hexact, htrace, hrun⟩ :=
        ih (netTurn networked untilNetTick m).1 (inSync_turn hnext)
      refine ⟨fun b hmem => ?_, congrArg _ htrace, hrun⟩
      rcases List.mem_cons.mp hmem with rfl | hrest
      · exact hsync
      · exact hexact b hrest

/-- In every call of `run`, at every instruction boundary, the lazy synchronisation leaves the
machine, and so `mip` and the PLIC, as the full one would; the boundaries passed and the outcome
of the run are those of a run that synchronises in full at each of them. -/
theorem run_lazySync_exact (m : Machine β ν) (budget : Nat) :
    (∀ b ∈ boundaries lazySync m.net.isSome budget NET_TICK_INTERVAL m.beginRun,
      b.lazySync = b.syncIrqs) ∧
      boundaries lazySync m.net.isSome budget NET_TICK_INTERVAL m.beginRun =
        boundaries syncIrqs m.net.isSome budget NET_TICK_INTERVAL m.beginRun ∧
      m.run budget = m.runWith syncIrqs budget :=
  runLoop_lazySync m.net.isSome budget NET_TICK_INTERVAL m.inSync_beginRun

end

end Machine

end EmulateComputer
