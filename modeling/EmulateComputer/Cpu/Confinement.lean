import EmulateComputer.Cpu.Invariant

/-!
# Confinement — privilege levels cannot reach above themselves

A step below machine mode leaves the machine-level registers alone, up to the parts that are
delegated to supervisor mode; a step within user mode leaves the supervisor level alone too, up to
the floating-point status.  Privilege grows only by entering a trap.
-/

namespace EmulateComputer

open Csr Effect

namespace CsrFile

/-- Machine-level state is unchanged.  Of `mie` only delegated bits may change, of the software
`mip` only a delegated SSIP, of `mstatus` only the fields that `sstatus` can write, which include
the SIE, SPIE and SPP of supervisor traps and returns. -/
structure MachineConfined (csr csr' : CsrFile) : Prop where
  regs : ∀ r, required r = 3 → r ≠ MSTATUS → r ≠ MIE → r ≠ MIP → csr'.regs r = csr.regs r
  mie : csr'.regs MIE &&& ~~~csr.regs MIDELEG = csr.regs MIE &&& ~~~csr.regs MIDELEG
  mip : csr'.regs MIP &&& ~~~(Irq.SSIP &&& csr.regs MIDELEG) =
    csr.regs MIP &&& ~~~(Irq.SSIP &&& csr.regs MIDELEG)
  mstatus : csr'.regs MSTATUS &&& ~~~Mstatus.SSTATUS_WRITE_MASK =
    csr.regs MSTATUS &&& ~~~Mstatus.SSTATUS_WRITE_MASK
  deviceMip : csr'.deviceMip = csr.deviceMip
  stubs : csr'.legacyPmpStubs = csr.legacyPmpStubs

/-- No register above user level is changed, except for FS in `mstatus`. -/
structure SupervisorConfined (csr csr' : CsrFile) : Prop where
  regs : ∀ r, required r ≠ 0 → r ≠ MSTATUS → csr'.regs r = csr.regs r
  mstatus : csr'.regs MSTATUS &&& ~~~Mstatus.FS_MASK = csr.regs MSTATUS &&& ~~~Mstatus.FS_MASK

/-- The counters are no part of either. -/
theorem MachineConfined.counters {csr csr' : CsrFile} (h : MachineConfined csr csr')
    (cycle instret : U64) : MachineConfined csr { csr' with cycle := cycle, instret := instret } :=
  ⟨h.regs, h.mie, h.mip, h.mstatus, h.deviceMip, h.stubs⟩

theorem SupervisorConfined.counters {csr csr' : CsrFile} (h : SupervisorConfined csr csr')
    (cycle instret : U64) :
    SupervisorConfined csr { csr' with cycle := cycle, instret := instret } :=
  ⟨h.regs, h.mstatus⟩

theorem MachineConfined.refl (csr : CsrFile) : MachineConfined csr csr :=
  ⟨fun _ _ _ _ _ => rfl, rfl, rfl, rfl, rfl, rfl⟩

theorem SupervisorConfined.refl (csr : CsrFile) : SupervisorConfined csr csr :=
  ⟨fun _ _ _ => rfl, rfl⟩

/-! ## Writes -/

section Write

variable {csr csr' : CsrFile} {addr r : CsrAddr} {val : U64} {mode : Mode}

/-- A permitted access is to a register of the current level or below. -/
theorem required_le_of_checkAccess {isWrite : Bool}
    (h : csr.checkAccess addr mode isWrite = true) : ¬ mode.bits < required addr := by
  intro hlt
  unfold checkAccess at h
  rw [if_pos hlt] at h
  cases h

theorem not_required_three (hbelow : ¬ mode.bits < required addr) (hmode : mode ≠ .machine) :
    required addr ≠ 3 := by
  intro h3
  rw [h3] at hbelow
  cases mode with
  | user | supervisor => exact hbelow (by decide)
  | machine => exact hmode rfl

/-- From below, no write stores to a machine-level register other than `mstatus`, `mie`, `mip`. -/
theorem target_ne_of_below (hbelow : ¬ mode.bits < required addr) (hmode : mode ≠ .machine)
    (hr : required r = 3) (h1 : r ≠ MSTATUS) (h2 : r ≠ MIE) (h3 : r ≠ MIP) : r ≠ target addr := by
  rintro rfl
  rcases target_cases addr with h | ⟨-, h⟩ | ⟨-, h⟩ | ⟨-, h⟩ | ⟨-, h⟩
  · rw [h] at hr
    exact not_required_three hbelow hmode hr
  · exact h1 h
  · exact h3 h
  · exact h2 h
  · rw [h] at hr
    exact absurd hr (by decide)

/-- From user mode, every write stores to a user-level register. -/
theorem target_user (hbelow : ¬ Mode.user.bits < required addr) : required (target addr) = 0 := by
  have hzero : ∀ r, ¬ Mode.user.bits < required r → required r = 0 := by
    have : Mode.user.bits = 0 := rfl
    bv_omega
  rcases target_cases addr with h | ⟨rfl, -⟩ | ⟨rfl, -⟩ | ⟨rfl, -⟩ | ⟨-, h⟩
  · rw [h]
    exact hzero addr hbelow
  · exact absurd (by decide) hbelow
  · exact absurd (by decide) hbelow
  · exact absurd (by decide) hbelow
  · rw [h]
    decide

theorem written_outside (h : Written csr addr val csr') :
    csr'.deviceMip = csr.deviceMip ∧ csr'.legacyPmpStubs = csr.legacyPmpStubs := by
  cases h <;> exact ⟨rfl, rfl⟩

theorem mie_below (h : Written csr addr val csr') (haddr : addr ≠ MIE) :
    csr'.regs MIE &&& ~~~csr.regs MIDELEG = csr.regs MIE &&& ~~~csr.regs MIDELEG := by
  cases h with
  | enable hsie =>
    have hnone : val &&& csr.regs MIDELEG &&& MIE_MASK &&& ~~~csr.regs MIDELEG = 0 := by
      rw [BitVec.and_assoc val, BitVec.and_comm (csr.regs MIDELEG), ← BitVec.and_assoc,
        BitMask.and_and_not]
    exact BitMask.and_keep (BitVec.and_self) hnone
  | void | cycle | instret | status | pending | satp | float => rfl
  | masked | tvec | epc | plain => rw [csr.regs_setReg_ne (Ne.symm haddr)]

theorem mip_below (h : Written csr addr val csr') (haddr : addr ≠ MIP) :
    csr'.regs MIP &&& ~~~(Irq.SSIP &&& csr.regs MIDELEG) =
      csr.regs MIP &&& ~~~(Irq.SSIP &&& csr.regs MIDELEG) := by
  cases h with
  | pending mask hmask =>
    rcases hmask with ⟨hmip, -⟩ | ⟨-, rfl⟩
    · exact absurd hmip haddr
    · exact BitMask.merge_and_not csr.sipWritable _ _
  | void | cycle | instret | status | enable | satp | float => rfl
  | masked | tvec | epc | plain => rw [csr.regs_setReg_ne (Ne.symm haddr)]

/-- A full or partial status write whose word agrees with the stored one outside `m` changes
nothing outside `m`: UXL and SXL are rewritten with the value they have. -/
theorem stored_and_not {old val mask m : U64} (hold : legal MSTATUS old)
    (hval : ∀ i, m.getLsbD i = false → mask.getLsbD i = true → val.getLsbD i = old.getLsbD i) :
    Mstatus.stored old val mask &&& ~~~m = old &&& ~~~m := by
  refine BitMask.and_not_congr fun i _ hi => ?_
  cases hxl : Mstatus.XL_MASK.getLsbD i with
  | false => exact Mstatus.getLsbD_stored_same hxl (hval i hi)
  | true =>
    refine BitMask.getLsbD_eq_of_and_eq ?_ hxl
    rw [Mstatus.stored_xl]
    exact hold.2.symm

theorem mstatus_below (hl : csr.Legal) (h : Written csr addr val csr') (haddr : addr ≠ MSTATUS) :
    csr'.regs MSTATUS &&& ~~~Mstatus.SSTATUS_WRITE_MASK =
      csr.regs MSTATUS &&& ~~~Mstatus.SSTATUS_WRITE_MASK := by
  rcases h.mstatus haddr with hsame | ⟨-, hst⟩ | ⟨-, hfs⟩
  · rw [hsame]
  · rw [hst]
    refine stored_and_not (hl MSTATUS) fun i hi hmask => ?_
    rw [hi] at hmask
    cases hmask
  · rw [hfs, BitMask.or_and_of_disjoint (by decide)]

/-- A permitted write from below machine mode. -/
theorem machineConfined_write (hl : csr.Legal) (hmode : mode ≠ .machine)
    (h : csr.write addr val mode = some csr') : MachineConfined csr csr' := by
  obtain ⟨hcheck, hw⟩ := write_cases h
  have hbelow := required_le_of_checkAccess hcheck
  have hthree := not_required_three hbelow hmode
  have hne : ∀ r, required r = 3 → addr ≠ r := by
    rintro r hr rfl
    exact hthree hr
  exact
    { regs := fun r hr h1 h2 h3 =>
        hw.regs_of_ne (target_ne_of_below hbelow hmode hr h1 h2 h3) fun _ => h1
      mie := mie_below hw (hne MIE (by decide))
      mip := mip_below hw (hne MIP (by decide))
      mstatus := mstatus_below hl hw (hne MSTATUS (by decide))
      deviceMip := (written_outside hw).1
      stubs := (written_outside hw).2 }

/-- A permitted write from user mode. -/
theorem supervisorConfined_write (h : csr.write addr val .user = some csr') :
    SupervisorConfined csr csr' := by
  obtain ⟨hcheck, hw⟩ := write_cases h
  have hbelow := required_le_of_checkAccess hcheck
  have htarget := target_user hbelow
  have hne : ∀ r, required r ≠ 0 → r ≠ target addr := by
    rintro r hr rfl
    exact hr htarget
  refine ⟨fun r hr h1 => hw.regs_of_ne (hne r hr) fun _ => h1, ?_⟩
  have haddr : addr ≠ MSTATUS := by
    rintro rfl
    exact hbelow (by decide)
  rcases hw.mstatus haddr with hsame | ⟨rfl, -⟩ | ⟨-, hfs⟩
  · rw [hsame]
  · exact absurd (by decide) hbelow
  · rw [hfs, BitMask.or_and_of_disjoint (by simp)]

end Write

/-! ## Traps, returns and floating point -/

section Status

variable {csr : CsrFile}

/-- A new status word changes machine-level state only inside `sstatus`. -/
theorem machineConfined_status (hl : csr.Legal) (status : U64)
    (hstatus : ∀ i, Mstatus.SSTATUS_WRITE_MASK.getLsbD i = false →
      Mstatus.WRITE_MASK.getLsbD i = true → status.getLsbD i = (csr.regs MSTATUS).getLsbD i) :
    MachineConfined csr (csr.setReg MSTATUS
      (Mstatus.stored (csr.regs MSTATUS) status Mstatus.WRITE_MASK)) where
  regs _ _ h1 _ _ := csr.regs_setReg_ne h1 _
  mie := rfl
  mip := rfl
  mstatus := by
    exact stored_and_not (hl MSTATUS) hstatus
  deviceMip := rfl
  stubs := rfl

/-- SD is outside the write mask, so a written bit reads as stored. -/
theorem getLsbD_read_of_written {i : Nat} (hi : Mstatus.WRITE_MASK.getLsbD i = true) :
    csr.mstatusRead.getLsbD i = (csr.regs MSTATUS).getLsbD i := by
  refine csr.getLsbD_mstatusRead ?_
  have hdisjoint : Mstatus.SD &&& Mstatus.WRITE_MASK = 0 := by decide
  simpa [hi] using (BitMask.eq_zero_iff _).mp hdisjoint i

theorem getLsbD_of_subset (part : U64) {mask : U64} (h : part &&& mask = part) {i : Nat}
    (hi : mask.getLsbD i = false) : part.getLsbD i = false := by
  rw [← h, BitVec.getLsbD_and, hi, Bool.and_false]

theorem machineConfined_dirtied (csr : CsrFile) (flags : U64) :
    MachineConfined csr (csr.dirtied flags) where
  regs r hr h1 _ _ := by
    have hne : r ≠ FCSR := by
      rintro rfl
      exact absurd hr (by decide)
    exact (regs_setReg_ne _ h1 _).trans (csr.regs_setReg_ne hne _)
  mie := rfl
  mip := rfl
  mstatus := BitMask.or_and_of_disjoint (by decide)
  deviceMip := rfl
  stubs := rfl

theorem supervisorConfined_dirtied (csr : CsrFile) (flags : U64) :
    SupervisorConfined csr (csr.dirtied flags) where
  regs r hr h1 := by
    have hne : r ≠ FCSR := by
      rintro rfl
      exact hr (by decide)
    exact (regs_setReg_ne _ h1 _).trans (csr.regs_setReg_ne hne _)
  mstatus := BitMask.or_and_of_disjoint (by decide)

end Status

end CsrFile

namespace Arch

open CsrFile

variable {a a' : Arch} {op : Op}

/-- A trap delegated to supervisor mode. -/
theorem machineConfined_trapped (h : a.csr.Legal) (cause tval : U64) (isInterrupt : Bool) :
    MachineConfined a.csr (a.trapped cause tval true isInterrupt).csr := by
  have hstatus := machineConfined_status h (Cpu.strapStatus a.mode a.csr.mstatusRead)
    fun i hi hmask => by
      rw [Mstatus.getLsbD_strapStatus _ _ (getLsbD_of_subset _ (by decide) hi),
        getLsbD_read_of_written hmask]
  -- The saved context lies in three supervisor-level registers.
  have hsaved : ∀ r, r ≠ SEPC → r ≠ SCAUSE → r ≠ STVAL →
      (a.savedCsr SEPC SCAUSE STVAL cause tval).regs r = a.csr.regs r := by
    intro r h1 h2 h3
    exact (regs_setReg_ne _ h3 _).trans ((regs_setReg_ne _ h2 _).trans (regs_setReg_ne _ h1 _))
  have hlevel : ∀ r s, required r = 3 → required s = 1 → r ≠ s := by
    rintro r s hr hs rfl
    rw [hr] at hs
    exact absurd hs (by decide)
  exact
    { regs := fun r hr h1 _ _ => (regs_setReg_ne _ h1 _).trans
        (hsaved r (hlevel r _ hr (by decide)) (hlevel r _ hr (by decide))
          (hlevel r _ hr (by decide)))
      mie := rfl
      mip := rfl
      mstatus := hstatus.mstatus
      deviceMip := rfl
      stubs := rfl }

/-- `sret` below machine mode finds MPRV clear and leaves it clear. -/
theorem machineConfined_sret (h : a.Sound) (hmode : a.mode ≠ .machine) :
    MachineConfined a.csr (a.returned (Cpu.sretStatus a.sretMode (a.csr.loadRaw MSTATUS))
      a.sretMode SEPC).csr := by
  refine machineConfined_status h.legal _ fun i hi hmask => ?_
  change (Cpu.sretStatus a.sretMode a.csr.mstatusRead).getLsbD i = _
  by_cases hmprv : i = 17
  · subst hmprv
    have hbelow : a.sretMode ≠ .machine := by
      unfold sretMode
      split <;> decide
    rw [(Sound.mprv_eq_zero_iff _).mp (Mstatus.sretStatus_mprv _ _ hbelow),
      (Sound.mprv_eq_zero_iff _).mp (h.mprv hmode)]
  · rw [Mstatus.getLsbD_sretStatus, getLsbD_read_of_written hmask]
    have hstrap := getLsbD_of_subset Mstatus.STRAP_MASK (by decide) hi
    have hbit : Mstatus.MPRV.getLsbD i = false := by
      rw [show Mstatus.MPRV = BitVec.twoPow 64 17 from rfl, BitVec.getLsbD_twoPow]
      simp [Ne.symm hmprv]
    rw [BitVec.getLsbD_or, hstrap, hbit, Bool.or_false]

/-- Instructions below machine mode. -/
theorem machineConfined_exec (h : a.Sound) (hmode : a.mode ≠ .machine)
    (heffect : ExecEffect op a a') : MachineConfined a.csr a'.csr := by
  cases heffect with
  | compute | wait | jump => exact .refl _
  | csr regs addr val csr hwrite => exact machineConfined_write h.legal hmode hwrite
  | fp regs fregs flags hon => exact machineConfined_dirtied _ _
  | sret _ => exact machineConfined_sret h hmode
  | mret hmachine => exact absurd hmachine hmode

/-- Instructions in user mode. -/
theorem supervisorConfined_exec (hmode : a.mode = .user) (heffect : ExecEffect op a a') :
    SupervisorConfined a.csr a'.csr := by
  cases heffect with
  | compute | wait | jump => exact .refl _
  | csr regs addr val csr hwrite =>
    rw [hmode] at hwrite
    exact supervisorConfined_write hwrite
  | fp regs fregs flags hon => exact supervisorConfined_dirtied _ _
  | sret huser => exact absurd hmode huser
  | mret hmachine =>
    rw [hmode] at hmachine
    cases hmachine

/-- No instruction raises the privilege. -/
theorem mode_exec_le (heffect : ExecEffect op a a') : a'.mode.le a.mode := by
  have hrefl : ∀ m : Mode, m.le m := by
    intro m
    cases m <;> decide
  have hmachine : ∀ m : Mode, m.le .machine := by
    intro m
    cases m <;> decide
  cases heffect with
  | compute | wait | jump | csr | fp => exact hrefl _
  | sret huser =>
    change a.sretMode.le a.mode
    have hsret : a.sretMode = .supervisor ∨ a.sretMode = .user := by
      unfold sretMode
      split
      · exact Or.inl rfl
      · exact Or.inr rfl
    cases hm : a.mode with
    | user => exact absurd hm huser
    | supervisor => rcases hsret with hs | hs <;> rw [hs] <;> decide
    | machine => exact hmachine _
  | mret hm =>
    rw [hm]
    exact hmachine _

end Arch

/-! ## Steps -/

section Step

open CsrFile

variable {cpu cpu' : Cpu} {P : Fetched → Prop} {T : Exception → Prop}

theorem machineConfined_step (h : cpu.arch.Sound) (hmode : cpu.mode ≠ .machine)
    (hmode' : cpu'.mode ≠ .machine) (heffect : StepEffect P T cpu cpu') :
    MachineConfined cpu.csr cpu'.csr := by
  cases heffect with
  | waiting hsame =>
    rw [hsame]
    exact .refl _
  | trapped c e _ hc hcpu' =>
    obtain ⟨toS, htoS, htrap⟩ := c.arch_takeException e
    obtain ⟨cycle, hcycle⟩ := Sys.csr_tickCycle (c.takeException e)
    have hcsr : cpu'.csr = { (c.takeException e).csr with cycle := cycle } :=
      (congrArg Arch.csr hcpu').trans hcycle
    have hold : c.arch.csr = cpu.csr := by rw [hc]; rfl
    cases toS with
    | false =>
      -- The trap of machine mode would end there.
      have htick : cpu'.mode = (c.takeException e).arch.mode := congrArg Arch.mode hcpu'
      rw [htrap] at htick
      exact absurd htick hmode'
    | true =>
      have hconfined := Arch.machineConfined_trapped (a := c.arch) (by rw [hold]; exact h.legal)
        e.cause e.tval false
      rw [hcsr, ← hold]
      have htrapCsr : (c.takeException e).csr = (c.arch.trapped e.cause e.tval true false).csr :=
        congrArg Arch.csr htrap
      rw [htrapCsr]
      exact hconfined.counters cycle _
  | retired f c d _ hc hd hcpu' =>
    have hsound : c.arch.Sound := by
      rw [hc]
      exact ⟨h.pc, h.legal, h.mprv⟩
    have hold : c.arch.csr = cpu.csr ∧ c.arch.mode = cpu.mode := by rw [hc]; exact ⟨rfl, rfl⟩
    obtain ⟨-, cycle, instret, hcsr⟩ := Sys.retired_end hcpu'
    rw [hcsr, ← hold.1]
    exact (Arch.machineConfined_exec hsound (by rw [hold.2]; exact hmode) hd).counters _ _

theorem supervisorConfined_step (hmode : cpu.mode = .user) (hmode' : cpu'.mode = .user)
    (heffect : StepEffect P T cpu cpu') : SupervisorConfined cpu.csr cpu'.csr := by
  cases heffect with
  | waiting hsame =>
    rw [hsame]
    exact .refl _
  | trapped c e _ hc hcpu' =>
    -- A trap ends above user mode.
    obtain ⟨toS, -, htrap⟩ := c.arch_takeException e
    have htick : cpu'.mode = (c.takeException e).arch.mode := congrArg Arch.mode hcpu'
    rw [htrap, hmode'] at htick
    cases toS <;> cases htick
  | retired f c d _ hc hd hcpu' =>
    have hold : c.arch.csr = cpu.csr ∧ c.arch.mode = cpu.mode := by rw [hc]; exact ⟨rfl, rfl⟩
    obtain ⟨-, cycle, instret, hcsr⟩ := Sys.retired_end hcpu'
    rw [hcsr, ← hold.1]
    exact (Arch.supervisorConfined_exec (by rw [hold.2, hmode]) hd).counters _ _

theorem mode_step_le (heffect : StepEffect P T cpu cpu') : cpu'.mode.le cpu.mode ∨ ∃ e, T e := by
  cases heffect with
  | waiting hsame =>
    rw [hsame]
    left
    cases cpu.mode <;> decide
  | trapped c e he _ _ => exact Or.inr ⟨e, he⟩
  | retired f c d _ hc hd hcpu' =>
    left
    have hold : c.arch.mode = cpu.mode := by rw [hc]; rfl
    rw [(Sys.retired_end hcpu').1, ← hold]
    exact Arch.mode_exec_le hd

end Step

open CsrFile

section

variable {β : Type} [BlockBackend β] [ApFloat] {cpu : Cpu}

/-- Privilege confinement of a step from a reachable state, over any memory and devices. -/
theorem step_privilege_confined (h : Reachable β cpu) (bus : Bus β) :
    (cpu.mode ≠ .machine → (Sys.step { cpu := cpu, bus := bus }).2.cpu.mode ≠ .machine →
      MachineConfined cpu.csr (Sys.step { cpu := cpu, bus := bus }).2.cpu.csr) ∧
    (cpu.mode = .user → (Sys.step { cpu := cpu, bus := bus }).2.cpu.mode = .user →
      SupervisorConfined cpu.csr (Sys.step { cpu := cpu, bus := bus }).2.cpu.csr) ∧
    (¬ (Sys.step { cpu := cpu, bus := bus }).2.cpu.mode.le cpu.mode →
      ∃ e, Sys.Raises { cpu := cpu, bus := bus } e) := by
  have heffect := Sys.step_effect_any { cpu := cpu, bus := bus }
  refine ⟨fun hmode hmode' => machineConfined_step h.sound.1 hmode hmode' heffect,
    fun hmode hmode' => supervisorConfined_step hmode hmode' heffect, fun hrise => ?_⟩
  exact (mode_step_le heffect).resolve_left hrise

end

/-- `nop; csrw mepc, x1; mret` at the start of RAM. -/
def dropCode : Bus MemBackend :=
  .ofBytes [0x13, 0, 0, 0, 0x73, 0x90, 0x10, 0x34, 0x73, 0, 0x20, 0x30] (by decide)

def userHart : Cpu :=
  let step := fun cpu : Cpu => (@Sys.step MemBackend _ ApFloat.zeros ⟨cpu, dropCode⟩).2.cpu
  step (step { Cpu.new with pc := DRAM_BASE + 4, regs := fun r => if r = 0 then 0 else DRAM_BASE })

/-- The `nop` runs in user mode and is confined there. -/
theorem step_privilege_confined_userHart :
    userHart.mode = .user ∧
      (@Sys.step MemBackend _ ApFloat.zeros ⟨userHart, dropCode⟩).2.cpu.mode = .user ∧
      MachineConfined userHart.csr
        (@Sys.step MemBackend _ ApFloat.zeros ⟨userHart, dropCode⟩).2.cpu.csr ∧
      SupervisorConfined userHart.csr
        (@Sys.step MemBackend _ ApFloat.zeros ⟨userHart, dropCode⟩).2.cpu.csr := by
  let _ : ApFloat := ApFloat.zeros
  have hreach : Reachable MemBackend userHart :=
    .step dropCode (.step dropCode (.boot (DRAM_BASE + 4) _ false (by decide) rfl))
  have huser : userHart.mode = .user := by decide +kernel
  have hend : (Sys.step ⟨userHart, dropCode⟩).2.cpu.mode = .user := by decide +kernel
  obtain ⟨hmachine, hsupervisor, -⟩ := step_privilege_confined hreach dropCode
  refine ⟨huser, hend, hmachine ?_ ?_, hsupervisor huser hend⟩
  · decide
  · decide

/-- Confinement composes, with other device levels in between. -/
theorem CsrFile.MachineConfined.trans {a b c : CsrFile} {levels : U64} (h : MachineConfined a b)
    (h' : MachineConfined { b with deviceMip := levels } c) :
    MachineConfined { a with deviceMip := levels } c := by
  have hdeleg := h.regs MIDELEG (by decide) (by decide) (by decide) (by decide)
  exact ⟨fun r hr hs he hp => (h'.regs r hr hs he hp).trans (h.regs r hr hs he hp),
    (hdeleg ▸ h'.mie).trans h.mie, (hdeleg ▸ h'.mip).trans h.mip, h'.mstatus.trans h.mstatus,
    h'.deviceMip, h'.stubs.trans h.stubs⟩

section

variable {β : Type} [BlockBackend β] [ApFloat] {cpu cpu' : Cpu}

variable (β) in
/-- The hart goes on outside machine mode: a step, an interrupt, or a change of device levels. -/
def GoesOn (cpu cpu' : Cpu) : Prop :=
  cpu'.mode ≠ .machine ∧ ((∃ bus : Bus β, cpu' = (Sys.step { cpu, bus }).2.cpu) ∨
    (∃ i, cpu' = cpu.takeInterrupt i) ∨
      ∃ mask pending, cpu' = { cpu with csr := cpu.csr.setDeviceMip mask pending })

/-- A run that stays below machine mode, over any memory and devices, leaves machine-level state
alone: only the device levels may be others at its end. -/
theorem run_machine_confined (h : Reachable β cpu) (hmode : cpu.mode ≠ .machine)
    (hrun : Relation.ReflTransGen (GoesOn β) cpu cpu') :
    ∃ levels, MachineConfined { cpu.csr with deviceMip := levels } cpu'.csr := by
  suffices hall : Reachable β cpu' ∧ cpu'.mode ≠ .machine ∧
      ∃ levels, MachineConfined { cpu.csr with deviceMip := levels } cpu'.csr from hall.2.2
  induction hrun with
  | refl => exact ⟨h, hmode, _, .refl _⟩
  | @tail b _ _ hnext ih =>
    obtain ⟨hreach, hbelow, levels, hconfined⟩ := ih
    obtain ⟨below, ⟨bus, rfl⟩ | ⟨i, rfl⟩ | ⟨mask, pending, rfl⟩⟩ := hnext
    · exact ⟨.step bus hreach, below, _, hconfined.trans
        (machineConfined_step hreach.sound.1 hbelow below (Sys.step_effect_any ⟨b, bus⟩))⟩
    · refine ⟨.interrupt i hreach, below, b.csr.deviceMip, hconfined.trans ?_⟩
      obtain ⟨toS, -, htrap⟩ := b.arch_takeInterrupt i
      cases toS with
      | false => exact absurd (congrArg Arch.mode htrap) below
      | true =>
        rw [show (b.takeInterrupt i).csr = _ from congrArg Arch.csr htrap]
        exact Arch.machineConfined_trapped (a := { b.arch with wfi := false })
          hreach.sound.1.legal _ _ _
    · exact ⟨.devices mask pending hreach, below, _, hconfined.trans (.refl _)⟩

end

/-- The `nop`, a device that raises its line, and a second `nop` in another memory. -/
theorem run_machine_confined_userHart : ∃ cpu',
    Relation.ReflTransGen (@GoesOn MemBackend _ ApFloat.zeros) userHart cpu' ∧
      cpu'.pc = DRAM_BASE + 8 ∧ cpu'.csr.deviceMip = 512 ∧
      ∃ levels, MachineConfined { userHart.csr with deviceMip := levels } cpu'.csr := by
  let _ : ApFloat := ApFloat.zeros
  let nops : Bus MemBackend := .ofBytes [0x13, 0, 0, 0, 0x13, 0, 0, 0] (by decide)
  have hrun : Relation.ReflTransGen (GoesOn MemBackend) userHart _ :=
    ((Relation.ReflTransGen.single ⟨by decide +kernel, .inl ⟨dropCode, rfl⟩⟩).tail
      ⟨by decide +kernel, .inr (.inr ⟨512, 512, rfl⟩)⟩).tail ⟨by decide +kernel, .inl ⟨nops, rfl⟩⟩
  refine ⟨_, hrun, by decide +kernel, by decide +kernel, run_machine_confined
    (.step dropCode (.step dropCode (.boot (DRAM_BASE + 4) _ false (by decide) rfl)))
    (by decide +kernel) hrun⟩

end EmulateComputer
