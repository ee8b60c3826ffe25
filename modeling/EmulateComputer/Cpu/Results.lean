import EmulateComputer.Cpu.Step

/-!
# Results — what the pure parts of the executor return

Register writes, floating-point operations and CSR instructions are functions of the hart alone.
Each result is described here by the fields it replaces; everything else about the hart, its caches
included, follows from the description.
-/

namespace EmulateComputer

open Csr

theorem Cpu.setReg_form (cpu : Cpu) (r : Reg) (v : U64) :
    ∃ regs, cpu.setReg r v = { cpu with regs := regs } := by
  unfold setReg
  split
  · exact ⟨_, rfl⟩
  · exact ⟨cpu.regs, rfl⟩

/-! ## Floating point -/

/-- The CSR file after accruing `flags` and marking FS Dirty. -/
def CsrFile.dirtied (csr : CsrFile) (flags : U64) : CsrFile :=
  (csr.setReg FCSR (csr.regs FCSR ||| (flags &&& 0x1F))).setFsDirty

theorem CsrFile.setFsDirty_eq_dirtied (csr : CsrFile) : csr.setFsDirty = csr.dirtied 0 := by
  have hsame : csr.setReg FCSR (csr.regs FCSR ||| ((0 : U64) &&& 0x1F)) = csr := by
    simp [CsrFile.setReg]
  rw [dirtied, hsame]

theorem CsrFile.setFsDirty_dirtied (csr : CsrFile) (flags : U64) :
    (csr.dirtied flags).setFsDirty = csr.dirtied flags := by
  simp [dirtied, setFsDirty, CsrFile.setReg, BitVec.or_assoc]

/-- An integer result alone, or new floating-point state with FS Dirty. -/
def FpResult (cpu d : Cpu) : Prop :=
  (∃ regs, d = { cpu with regs := regs }) ∨
    ∃ regs fregs flags,
      d = { cpu with regs := regs, fregs := fregs, csr := cpu.csr.dirtied flags }

namespace FpResult

variable {cpu d : Cpu}

theorem refl (cpu : Cpu) : FpResult cpu cpu :=
  Or.inl ⟨cpu.regs, rfl⟩

theorem setReg (h : FpResult cpu d) (r : Reg) (v : U64) : FpResult cpu (d.setReg r v) := by
  obtain ⟨regs, hregs⟩ := d.setReg_form r v
  rw [hregs]
  rcases h with ⟨_, rfl⟩ | ⟨_, fregs, flags, rfl⟩
  · exact Or.inl ⟨regs, rfl⟩
  · exact Or.inr ⟨regs, fregs, flags, rfl⟩

theorem writeF64Raw (h : FpResult cpu d) (rd : Reg) (bits : U64) :
    FpResult cpu (Fpu.writeF64Raw d rd bits) := by
  unfold Fpu.writeF64Raw
  rcases h with ⟨regs, rfl⟩ | ⟨regs, _, flags, rfl⟩
  · exact Or.inr ⟨regs, _, 0, by rw [CsrFile.setFsDirty_eq_dirtied]⟩
  · exact Or.inr ⟨regs, _, flags, by rw [CsrFile.setFsDirty_dirtied]⟩

theorem setFflags (cpu : Cpu) (flags : U64) : FpResult cpu (Fpu.setFflags cpu flags) := by
  unfold Fpu.setFflags
  split
  · exact Or.inr ⟨cpu.regs, cpu.fregs, flags, rfl⟩
  · exact refl cpu

/-- An operation that resolves its rounding mode first. -/
theorem of_resolveRm {raw : U32} {rm : U8} {f : U8 → Cpu} (hf : ∀ eff, FpResult cpu (f eff))
    (h : (Fpu.resolveRm cpu raw rm).map f = .ok d) : FpResult cpu d := by
  cases hr : Fpu.resolveRm cpu raw rm with
  | error e => simp [hr, Except.map] at h
  | ok eff =>
    simp only [hr, Except.map, Except.ok.injEq] at h
    rw [← h]
    exact hf eff

section

variable [ApFloat]

theorem writeApSingle (cpu : Cpu) (rd : Reg) (r : StatusAnd (ApFloat.Value .single))
    (overflowed : Bool) : FpResult cpu (Fpu.writeApSingle cpu rd r overflowed) :=
  (setFflags cpu _).writeF64Raw rd _

theorem writeApDouble (cpu : Cpu) (rd : Reg) (r : StatusAnd (ApFloat.Value .double))
    (overflowed : Bool) : FpResult cpu (Fpu.writeApDouble cpu rd r overflowed) :=
  (setFflags cpu _).writeF64Raw rd _

theorem execFp {raw : U32} {op : FpOp} {sz : FpSize} {rd rs1 rs2 rs3 : Reg} {rm : U8}
    (h : Fpu.execFp cpu raw op sz rd rs1 rs2 rs3 rm = .ok d) : FpResult cpu d := by
  cases op with
  | add | sub | mul | div | sqrt | madd | msub | nmsub | nmadd | cvtFmtW | cvtFmtWu | cvtFmtL
  | cvtFmtLu | cvtFmtFmt =>
    refine of_resolveRm (fun eff => ?_) h
    cases sz with
    | s => exact writeApSingle cpu rd _ _
    | d => exact writeApDouble cpu rd _ _
  | cvtWFmt | cvtWuFmt | cvtLFmt | cvtLuFmt =>
    exact of_resolveRm (fun eff => (setFflags cpu _).setReg rd _) h
  | sgnj | sgnjn | sgnjx | mvFmtX =>
    cases h
    cases sz with
    | s | d => exact (refl cpu).writeF64Raw rd _
  | min | max =>
    cases h
    cases sz with
    | s | d => exact (setFflags cpu _).writeF64Raw rd _
  | eq | lt | le =>
    cases h
    exact (setFflags cpu _).setReg rd _
  | «class» | mvXFmt =>
    cases h
    exact (refl cpu).setReg rd _

end

end FpResult

namespace Fpu

variable {β α : Type} {raw : U32} {x : Hart β α} {s : Sys β}

theorem whenOn_off (h : s.cpu.csr.fs = FS_OFF) :
    whenOn raw x s = .error (.illegalInstruction (raw.setWidth 64)) s := by
  simp [whenOn, Effect.run_bind, h]

end Fpu

/-! ## CSR instructions -/

namespace Execute

/-- The TLB after a write to `addr` that left `csr`: a changed `satp` flushes it. -/
def csrMmu (cpu : Cpu) (addr : CsrAddr) (csr : CsrFile) : Mmu :=
  if addr = SATP ∧ cpu.csr.loadRaw SATP ≠ csr.loadRaw SATP then cpu.mmu.flushAll else cpu.mmu

/-- A read alone, or a checked write of some value. -/
def CsrResult (cpu : Cpu) (addr : CsrAddr) (d : Cpu) : Prop :=
  (∃ regs, d = { cpu with regs := regs }) ∨
    ∃ regs val csr, cpu.csr.write addr val cpu.mode = some csr ∧
      d = { cpu with regs := regs, csr := csr, mmu := csrMmu cpu addr csr }

variable {cpu d : Cpu} {addr : CsrAddr}

theorem csrWrite_form {val : U64} (h : csrWrite cpu addr val = some d) :
    ∃ csr, cpu.csr.write addr val cpu.mode = some csr ∧
      d = { cpu with csr := csr, mmu := csrMmu cpu addr csr } := by
  obtain ⟨csr, hcsr, rfl⟩ := Option.map_eq_some_iff.mp h
  refine ⟨csr, hcsr, ?_⟩
  unfold csrMmu
  split <;> rfl

theorem csrResult_write {val : U64} (h : csrWrite cpu addr val = some d) (rd : Reg) (v : U64) :
    CsrResult cpu addr d ∧ CsrResult cpu addr (d.setReg rd v) := by
  obtain ⟨csr, hcsr, rfl⟩ := csrWrite_form h
  obtain ⟨regs, hregs⟩ := Cpu.setReg_form
    { cpu with csr := csr, mmu := csrMmu cpu addr csr } rd v
  rw [hregs]
  exact ⟨Or.inr ⟨cpu.regs, val, csr, hcsr, rfl⟩, Or.inr ⟨regs, val, csr, hcsr, rfl⟩⟩

theorem execCsr_result {kind : CsrOp} {rd rs1 : Reg} {mtime : U64}
    (h : execCsr cpu kind rd rs1 addr mtime = some d) : CsrResult cpu addr d := by
  have hreplace : ∀ src, csrReplace cpu rd addr src mtime = some d → CsrResult cpu addr d := by
    intro src h
    unfold csrReplace at h
    split at h
    · obtain ⟨old, -, hold⟩ := Option.bind_eq_some_iff.mp h
      obtain ⟨e, he, rfl⟩ := Option.map_eq_some_iff.mp hold
      exact (csrResult_write he rd old).2
    · exact (csrResult_write h rd 0).1
  have hmodify : ∀ src, csrModify cpu kind rd rs1 addr src mtime = some d →
      CsrResult cpu addr d := by
    intro src h
    obtain ⟨old, -, hold⟩ := Option.bind_eq_some_iff.mp h
    split at hold
    · obtain ⟨e, he, rfl⟩ := Option.map_eq_some_iff.mp hold
      exact (csrResult_write he rd old).2
    · cases hold
      exact Or.inl (cpu.setReg_form rd old)
  cases kind with
  | rw | rwi => exact hreplace _ h
  | rs | rsi | rc | rci => exact hmodify _ h

end Execute

end EmulateComputer
