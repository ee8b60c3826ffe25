import EmulateComputer.Cpu.CsrEffects

/-!
# FpContext — the law that lazy context switching relies on

Whatever changes a floating-point register or `fcsr` leaves FS Dirty, and with FS Off nothing
changes them.  The float library is a parameter of the model, so its results are arbitrary here.
-/

namespace EmulateComputer

open Csr Effect

def Op.isFloat : Op → Bool
  | .fpLoad .. | .fpStore .. | .fp .. => true
  | _ => false

/-! ## The status field -/

namespace CsrFile

theorem fs_setFsDirty (csr : CsrFile) : csr.setFsDirty.fs = FS_DIRTY := by
  have hword : csr.setFsDirty.regs MSTATUS &&& Mstatus.FS_MASK = Mstatus.FS_MASK := by
    change (csr.regs MSTATUS ||| Mstatus.FS_MASK) &&& Mstatus.FS_MASK = Mstatus.FS_MASK
    ext i hi
    simp
    tauto
  rw [fs, hword]
  decide

/-- With FS Off the three views of `fcsr` are out of reach. -/
theorem not_isFloat_of_checkAccess {csr : CsrFile} {addr : CsrAddr} {mode : Mode} {isWrite : Bool}
    (h : csr.checkAccess addr mode isWrite = true) (hoff : csr.fs = FS_OFF) :
    ¬ Csr.isFloat addr := by
  intro hfloat
  have hdenied : csr.checkAccess addr mode isWrite = false := by
    have hsatp : addr ≠ SATP := by
      rcases hfloat with rfl | rfl | rfl <;> decide
    have htime : addr ≠ STIMECMP := by
      rcases hfloat with rfl | rfl | rfl <;> decide
    unfold checkAccess
    split
    · rfl
    split
    · rfl
    rw [if_neg fun hc => hsatp hc.1, if_neg fun hc => htime hc.1, if_pos ⟨hfloat, hoff⟩]
  rw [hdenied] at h
  cases h

end CsrFile

/-! ## Instructions and traps -/

namespace Arch

def FpKept (a a' : Arch) : Prop :=
  a'.fregs = a.fregs ∧ a'.csr.regs FCSR = a.csr.regs FCSR

variable {a a' : Arch} {op : Op}

/-- A permitted CSR write keeps `fcsr`, or is to a view of it and marks FS Dirty. -/
theorem fcsr_write {csr csr' : CsrFile} {addr : CsrAddr} {val : U64} {mode : Mode}
    (h : csr.write addr val mode = some csr') :
    csr'.regs FCSR = csr.regs FCSR ∨ (csr.fs ≠ FS_OFF ∧ csr'.fs = FS_DIRTY) := by
  obtain ⟨hcheck, hw⟩ := CsrFile.write_cases h
  cases hw with
  | float v hfloat _ =>
    exact Or.inr ⟨fun hoff => CsrFile.not_isFloat_of_checkAccess hcheck hoff hfloat,
      CsrFile.fs_setFsDirty _⟩
  | void | cycle | instret | status | pending | enable | satp => exact Or.inl rfl
  | tvec haddr | epc haddr => rcases haddr with rfl | rfl <;> exact Or.inl rfl
  | masked mask hmask =>
    refine Or.inl (csr.regs_setReg_ne ?_ _)
    rintro rfl
    cases hmask
  | plain hview =>
    -- Only the views of `fcsr` store to it.
    refine Or.inl (csr.regs_setReg_ne ?_ _)
    rintro rfl
    exact hview (by simp [isView, isFloat])

theorem fpKept_exec (heffect : ExecEffect op a a') :
    FpKept a a' ∨ (a.csr.fs ≠ FS_OFF ∧ a'.csr.fs = FS_DIRTY) := by
  cases heffect with
  | compute | wait | jump | sret | mret => exact Or.inl ⟨rfl, rfl⟩
  | csr regs addr val csr hwrite =>
    rcases fcsr_write hwrite with hsame | hdirty
    · exact Or.inl ⟨rfl, hsame⟩
    · exact Or.inr hdirty
  | fp regs fregs flags hon => exact Or.inr ⟨hon, CsrFile.fs_setFsDirty _⟩

theorem fpKept_trapped (a : Arch) (cause tval : U64) (toS isInterrupt : Bool) :
    FpKept a (a.trapped cause tval toS isInterrupt) := by
  cases toS with
  | false | true => exact ⟨rfl, rfl⟩

end Arch

/-! ## Steps -/

section

variable {β : Type} [BlockBackend β] [ApFloat]

open Arch

omit [ApFloat] in
theorem fpKept_step {P : Fetched → Prop} {T : Exception → Prop} {cpu cpu' : Cpu}
    (heffect : StepEffect P T cpu cpu') :
    FpKept cpu.arch cpu'.arch ∨ (cpu.csr.fs ≠ FS_OFF ∧ cpu'.csr.fs = FS_DIRTY) := by
  cases heffect with
  | waiting hsame =>
    rw [hsame]
    exact Or.inl ⟨rfl, rfl⟩
  | trapped c e _ hc hcpu' =>
    obtain ⟨toS, -, htrap⟩ := c.arch_takeException e
    obtain ⟨hfregs, hfcsr⟩ := fpKept_trapped c.arch e.cause e.tval toS false
    rw [← htrap, hc] at hfregs hfcsr
    obtain ⟨cycle, hcycle⟩ := Sys.csr_tickCycle (c.takeException e)
    left
    rw [hcpu']
    refine ⟨hfregs, ?_⟩
    change (Sys.tickCycle (c.takeException e)).csr.regs FCSR = _
    rw [hcycle]
    exact hfcsr
  | retired f c d _ hc hd hcpu' =>
    obtain ⟨-, cycle, instret, hcsr⟩ := Sys.retired_end hcpu'
    have hslots : cpu'.csr.regs = d.csr.regs := by rw [hcsr]
    have hfregs : cpu'.fregs = d.fregs := congrArg Arch.fregs hcpu'
    have hexec := fpKept_exec hd
    rw [hc] at hexec
    rcases hexec with ⟨hsame, hfcsr⟩ | ⟨hon, hdirty⟩
    · left
      refine ⟨hfregs.trans hsame, ?_⟩
      change cpu'.csr.regs FCSR = cpu.csr.regs FCSR
      rw [hslots]
      exact hfcsr
    · right
      refine ⟨hon, ?_⟩
      rw [CsrFile.fs, hslots]
      exact hdirty

/-- A floating-point instruction with FS Off is illegal, wherever its operands point. -/
theorem execute_float_off (s : Sys β) (raw : U32) (op : Op) (hop : op.isFloat = true)
    (hoff : s.cpu.csr.fs = FS_OFF) :
    Execute.execute raw op s = .error (.illegalInstruction (raw.setWidth 64)) s := by
  cases op with
  | fpLoad | fpStore | fp => exact Fpu.whenOn_off hoff
  | _ => cases hop

/-- The floating-point context law, for a step from any state: a changed register or `fcsr` means
FS Dirty; FS Off means no change; and a floating-point instruction fetched with FS Off raises an
illegal-instruction exception. -/
theorem step_fp_context (s : Sys β) :
    ((s.step.2.cpu.fregs ≠ s.cpu.fregs ∨ s.step.2.cpu.csr.regs FCSR ≠ s.cpu.csr.regs FCSR) →
      s.step.2.cpu.csr.fs = FS_DIRTY) ∧
    (s.cpu.csr.fs = FS_OFF →
      s.step.2.cpu.fregs = s.cpu.fregs ∧ s.step.2.cpu.csr.regs FCSR = s.cpu.csr.regs FCSR) ∧
    (s.cpu.csr.fs = FS_OFF → ∀ f t, Hart.fetch s.cpu.pc s.awake = .ok f t →
      f.inst.op.isFloat = true → s.Raises (.illegalInstruction (f.raw.setWidth 64))) := by
  have hkept := fpKept_step s.step_effect_any
  refine ⟨fun hchanged => ?_, fun hoff => ?_, fun hoff f t hfetch hop => ?_⟩
  · rcases hkept with ⟨hfregs, hfcsr⟩ | ⟨-, hdirty⟩
    · rcases hchanged with hne | hne
      · exact absurd hfregs hne
      · exact absurd hfcsr hne
    · exact hdirty
  · rcases hkept with hsame | ⟨hon, -⟩
    · exact hsame
    · exact absurd hoff hon
  · have hsame := Hart.keeps_fetch Hart.fetchFrame_sameArch s.cpu.pc s.awake
    rw [hfetch] at hsame
    have hcsr : t.cpu.csr = s.cpu.csr := congrArg Arch.csr hsame
    let t' : Sys β := { t with cpu := { t.cpu with nextPc := t.cpu.pc + f.inst.len } }
    have hoff' : t'.cpu.csr.fs = FS_OFF := by
      rw [hcsr]
      exact hoff
    have hexec := execute_float_off t' f.raw f.inst.op hop hoff'
    refine ⟨t', ?_⟩
    change (Hart.fetch s.cpu.pc >>= fun f => Hart.run f s.cpu.pc) s.awake = _
    rw [run_bind_ok hfetch]
    -- `run` starts by setting `nextPc`, which leads to `t'`.
    change (Execute.execute f.raw f.inst.op >>= _) t' = _
    exact run_bind_error hexec

end

end EmulateComputer
