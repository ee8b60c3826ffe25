import EmulateComputer.Cpu.Execute

/-!
# Pending — read-modify-write of the interrupt-pending registers

`mip` and `sip` read as the software-written bits merged with the levels the devices drive, but
their writes reach the software bits alone.  An instruction that reads, modifies and writes back
therefore copies a level into the software bits wherever the bit is writable and not selected by
the operand.  `latched` is the set of these bits, and the law "only selected bits change" holds
exactly when it is empty or nothing is written.
-/

namespace EmulateComputer

open Csr

namespace CsrFile

/-! ## The two views -/

/-- The bits of the software-written pending word that a write to `addr` can change. -/
def pendingWritable (csr : CsrFile) (addr : CsrAddr) : U64 :=
  if addr = MIP then csr.mipWritable else csr.sipWritable

/-- The device levels that a read of `addr` shows. -/
def deviceVisible (csr : CsrFile) (addr : CsrAddr) : U64 :=
  if addr = MIP then BitVec.allOnes 64 else csr.regs MIDELEG

/-- The software-written bits that a read of `addr` shows; Sstc takes STIP away from software. -/
def softwareVisible (csr : CsrFile) (addr : CsrAddr) : U64 :=
  (if csr.stceEnabled then ~~~Irq.STIP else BitVec.allOnes 64) &&& csr.deviceVisible addr

/-- The file once every device line has dropped. -/
def linesDropped (csr : CsrFile) : CsrFile :=
  { csr with deviceMip := 0 }

/-- Device levels that a read-modify-write with operand `src` copies into the software bits. -/
def latched (csr : CsrFile) (addr : CsrAddr) (src : U64) : U64 :=
  csr.deviceMip &&& csr.pendingWritable addr &&& ~~~src &&& ~~~csr.regs MIP

/-- The file after a permitted write of `val` to `mip` or `sip`. -/
def pendingWritten (csr : CsrFile) (addr : CsrAddr) (val : U64) : CsrFile :=
  csr.setReg MIP (BitMask.merge (csr.pendingWritable addr) (csr.regs MIP) val)

variable (csr : CsrFile) {addr : CsrAddr}

theorem mipValue_eq :
    csr.mipValue = (csr.regs MIP &&&
      (if csr.stceEnabled then ~~~Irq.STIP else BitVec.allOnes 64)) ||| csr.deviceMip := by
  unfold mipValue
  cases csr.stceEnabled with
  | false => simp only [Bool.false_eq_true, if_false, BitVec.and_allOnes]
  | true => rfl

theorem loadRaw_pending (h : addr = MIP ∨ addr = SIP) :
    csr.loadRaw addr = (csr.regs MIP &&& csr.softwareVisible addr) |||
      (csr.deviceMip &&& csr.deviceVisible addr) := by
  rcases h with rfl | rfl
  · have hload : csr.loadRaw MIP = csr.mipValue := rfl
    rw [hload, mipValue_eq, softwareVisible, deviceVisible, if_pos rfl, BitVec.and_allOnes,
      BitVec.and_allOnes]
  · have hload : csr.loadRaw SIP = csr.mipValue &&& csr.regs MIDELEG := rfl
    have hne : ¬ SIP = MIP := by decide
    apply BitVec.eq_of_getLsbD_eq
    intro i hi
    simp only [hload, mipValue_eq, softwareVisible, deviceVisible, if_neg hne,
      BitVec.getLsbD_and, BitVec.getLsbD_or]
    rw [Bool.and_or_distrib_right, Bool.and_assoc]

theorem written_pending (h : addr = MIP ∨ addr = SIP) (val : U64) :
    csr.written addr val = some (csr.pendingWritten addr val) := by
  rcases h with rfl | rfl
  · rfl
  · rfl

/-- What can be written can be seen, on both sides. -/
theorem visible_of_writable {i : Nat} (hi : (csr.pendingWritable addr).getLsbD i = true) :
    (csr.softwareVisible addr).getLsbD i = true ∧ (csr.deviceVisible addr).getLsbD i = true := by
  have hones : (BitVec.allOnes 64).getLsbD i = true := by
    rw [BitVec.getLsbD_allOnes]
    exact decide_eq_true (BitVec.lt_of_getLsbD hi)
  unfold softwareVisible deviceVisible
  by_cases haddr : addr = MIP
  · -- The Sstc mask of a read is the one of a write.
    simp only [pendingWritable, haddr, if_true, mipWritable] at hi ⊢
    cases hs : csr.stceEnabled with
    | false => simp only [Bool.false_eq_true, if_false, BitVec.getLsbD_and, hones, Bool.and_self,
        and_self]
    | true =>
      simp only [hs, if_true, BitVec.getLsbD_and, Bool.and_eq_true] at hi
      simp only [if_true, BitVec.getLsbD_and, hi.2, hones, Bool.and_self, and_self]
  · -- SSIP is the only bit of a `sip` write, and Sstc does not touch it.
    simp only [pendingWritable, haddr, if_false, sipWritable, BitVec.getLsbD_and,
      Bool.and_eq_true] at hi ⊢
    have hstip : (~~~Irq.STIP).getLsbD i = true := by
      have hmask : (SIP_WRITE_MASK &&& ~~~Irq.STIP).getLsbD i = true := by
        exact hi.1
      rw [BitVec.getLsbD_and, Bool.and_eq_true] at hmask
      exact hmask.2
    cases hs : csr.stceEnabled with
    | false => simp only [Bool.false_eq_true, if_false, hones, hi.2, and_self]
    | true => simp only [if_true, hstip, hi.2, and_self]

theorem getLsbD_loadRaw_of_writable (h : addr = MIP ∨ addr = SIP) {i : Nat}
    (hi : (csr.pendingWritable addr).getLsbD i = true) :
    (csr.loadRaw addr).getLsbD i = ((csr.regs MIP).getLsbD i || csr.deviceMip.getLsbD i) := by
  obtain ⟨hsoft, hdev⟩ := csr.visible_of_writable hi
  simp [loadRaw_pending csr h, hsoft, hdev]

/-- With the lines down, a read shows the visible software bits. -/
theorem getLsbD_linesDropped (h : addr = MIP ∨ addr = SIP) (i : Nat) :
    (csr.linesDropped.loadRaw addr).getLsbD i =
      ((csr.regs MIP).getLsbD i && (csr.softwareVisible addr).getLsbD i) := by
  have hvisible : csr.linesDropped.softwareVisible addr = csr.softwareVisible addr := rfl
  have hmip : csr.linesDropped.regs MIP = csr.regs MIP := rfl
  have hdevice : csr.linesDropped.deviceMip = 0 := rfl
  rw [loadRaw_pending _ h, hvisible, hmip, hdevice]
  simp

theorem softwareVisible_pendingWritten (val : U64) :
    (csr.pendingWritten addr val).softwareVisible addr = csr.softwareVisible addr := by
  have hmenvcfg : ¬ MENVCFG = MIP := by decide
  have hmideleg : ¬ MIDELEG = MIP := by decide
  simp [softwareVisible, deviceVisible, stceEnabled, pendingWritten, setReg, hmenvcfg, hmideleg]

end CsrFile

/-! ## Set and clear instructions -/

namespace Execute

open CsrFile

/-- The forms that read, modify and write back. -/
def isModify : CsrOp → Bool
  | .rs | .rsi | .rc | .rci => true
  | .rw | .rwi => false

def sets : CsrOp → Bool
  | .rs | .rsi => true
  | _ => false

variable {kind : CsrOp} {addr : CsrAddr}

theorem getLsbD_csrMerge (hk : isModify kind = true) (old src : U64) {i : Nat} (hi : i < 64) :
    (csrMerge kind old src).getLsbD i =
      if src.getLsbD i then sets kind else old.getLsbD i := by
  cases kind <;> cases hsrc : src.getLsbD i <;>
    simp_all [isModify, csrMerge, sets]

/-- The software bits after the write-back: selected bits as the instruction says, the others with
the levels merged in. -/
theorem getLsbD_modified (hk : isModify kind = true) (h : addr = MIP ∨ addr = SIP) (csr : CsrFile)
    (src : U64) (i : Nat) :
    ((csr.pendingWritten addr (csrMerge kind (csr.loadRaw addr) src)).regs MIP).getLsbD i =
      if (csr.pendingWritable addr).getLsbD i then
        if src.getLsbD i then sets kind
        else ((csr.regs MIP).getLsbD i || csr.deviceMip.getLsbD i)
      else (csr.regs MIP).getLsbD i := by
  have hreg : (csr.pendingWritten addr (csrMerge kind (csr.loadRaw addr) src)).regs MIP =
      BitMask.merge (csr.pendingWritable addr) (csr.regs MIP)
        (csrMerge kind (csr.loadRaw addr) src) := by
    simp [pendingWritten, setReg]
  rw [hreg, BitMask.getLsbD_merge]
  by_cases hw : (csr.pendingWritable addr).getLsbD i = true
  · rw [if_pos hw, if_pos hw, getLsbD_csrMerge hk _ _ (BitVec.lt_of_getLsbD hw),
      getLsbD_loadRaw_of_writable csr h hw]
  · rw [if_neg hw, if_neg hw]

/-- Only bits selected by the operand change, and once the device lines drop a read shows the
selected bits as written and every other bit as it was. -/
def OnlySelected (kind : CsrOp) (addr : CsrAddr) (src : U64) (before after : CsrFile) : Prop :=
  (∀ i, src.getLsbD i = false → (after.regs MIP).getLsbD i = (before.regs MIP).getLsbD i) ∧
    ∀ i, (after.linesDropped.loadRaw addr).getLsbD i =
      if (before.pendingWritable addr).getLsbD i && src.getLsbD i then sets kind
      else (before.linesDropped.loadRaw addr).getLsbD i

theorem onlySelected_self (kind : CsrOp) (addr : CsrAddr) (csr : CsrFile) :
    OnlySelected kind addr 0 csr csr := by
  constructor <;> simp

theorem onlySelected_pendingWritten_iff (hk : isModify kind = true) (h : addr = MIP ∨ addr = SIP)
    (csr : CsrFile) (src : U64) :
    OnlySelected kind addr src csr
      (csr.pendingWritten addr (csrMerge kind (csr.loadRaw addr) src)) ↔
      csr.latched addr src = 0 := by
  have hlatched : csr.latched addr src = 0 ↔ ∀ i, (csr.pendingWritable addr).getLsbD i = true →
      src.getLsbD i = false → csr.deviceMip.getLsbD i = true →
      (csr.regs MIP).getLsbD i = true := by
    rw [BitMask.eq_zero_iff]
    refine forall_congr' fun i => ?_
    by_cases hw : (csr.pendingWritable addr).getLsbD i = true
    · have hlt : i < 64 := BitVec.lt_of_getLsbD hw
      simp only [latched, BitVec.getLsbD_and, BitVec.getLsbD_not, hw, hlt]
      cases src.getLsbD i <;> cases csr.deviceMip.getLsbD i <;>
        cases (csr.regs MIP).getLsbD i <;> simp
    · simp [latched, hw]
  rw [hlatched]
  constructor
  · rintro ⟨hkeep, -⟩ i hw hsrc hdev
    have hi := hkeep i hsrc
    rw [getLsbD_modified hk h, if_pos hw, hsrc, hdev] at hi
    simpa using hi.symm
  · intro hnone
    -- A bit that is writable but not selected already shows its level in the software word.
    have hbit : ∀ i, (csr.pendingWritable addr).getLsbD i = true → src.getLsbD i = false →
        ((csr.regs MIP).getLsbD i || csr.deviceMip.getLsbD i) = (csr.regs MIP).getLsbD i := by
      intro i hw hsrc
      cases hdev : csr.deviceMip.getLsbD i <;> simp_all
    refine ⟨fun i hsrc => ?_, fun i => ?_⟩
    · rw [getLsbD_modified hk h, hsrc]
      by_cases hw : (csr.pendingWritable addr).getLsbD i = true
      · simpa [hw] using hbit i hw hsrc
      · simp [hw]
    · rw [getLsbD_linesDropped _ h, getLsbD_linesDropped _ h, softwareVisible_pendingWritten,
        getLsbD_modified hk h]
      by_cases hw : (csr.pendingWritable addr).getLsbD i = true
      · have hsoft := (csr.visible_of_writable hw).1
        cases hsrc : src.getLsbD i
        · simp [hw, hsoft, hbit i hw hsrc]
        · simp [hw, hsoft]
      · simp [hw]

/-- The bits an instruction selects: `x0` and a zero immediate select none. -/
def csrOperand (cpu : Cpu) (kind : CsrOp) (rs1 : Reg) : U64 :=
  if rs1 = 0 then 0 else csrSource cpu kind rs1

theorem checkAccess_pending (csr : CsrFile) (h : addr = MIP ∨ addr = SIP) (mode : Mode)
    (isWrite : Bool) : csr.checkAccess addr mode isWrite = !decide (mode.bits < required addr) := by
  unfold CsrFile.checkAccess
  split
  · next hlow => simp [hlow]
  · next hhigh =>
    rw [decide_eq_false hhigh]
    rcases h with rfl | rfl <;>
    · rw [if_neg fun h => absurd h.2 (by decide), if_neg fun h => absurd h.1 (by decide),
        if_neg fun h => absurd h.1 (by decide), if_neg fun h => absurd h.1 (by decide),
        if_neg fun h => absurd h.1 (by decide)]
      exact Bool.or_eq_true_iff.2 (Or.inr (by decide))

theorem csrWrite_pending (cpu : Cpu) (h : addr = MIP ∨ addr = SIP) (val : U64) :
    csrWrite cpu addr val =
      if cpu.csr.checkAccess addr cpu.mode true then
        some { cpu with csr := cpu.csr.pendingWritten addr val }
      else none := by
  have hsatp : ¬ addr = SATP := by
    rcases h with rfl | rfl <;> decide
  unfold csrWrite CsrFile.write
  rw [written_pending cpu.csr h]
  cases cpu.csr.checkAccess addr cpu.mode true <;> simp [hsatp]

theorem csr_setReg (cpu : Cpu) (r : Reg) (v : U64) : (cpu.setReg r v).csr = cpu.csr := by
  unfold Cpu.setReg
  split <;> rfl

/-- What a set or clear instruction on a pending register does: it is refused in too low a mode. -/
theorem execCsr_pending (cpu : Cpu) (rd rs1 : Reg) (mtime : U64) (hk : isModify kind = true)
    (h : addr = MIP ∨ addr = SIP) :
    (execCsr cpu kind rd rs1 addr mtime).map Cpu.csr =
      if cpu.mode.bits < required addr then none
      else some (if rs1 = 0 then cpu.csr
        else cpu.csr.pendingWritten addr
          (csrMerge kind (cpu.csr.loadRaw addr) (csrSource cpu kind rs1))) := by
  have htime : ¬ addr = TIME := by
    rcases h with rfl | rfl <;> decide
  have hmodify : execCsr cpu kind rd rs1 addr mtime =
      csrModify cpu kind rd rs1 addr (csrSource cpu kind rs1) mtime := by
    cases kind <;> first | rfl | simp [isModify] at hk
  rw [hmodify, csrModify, CsrFile.read, checkAccess_pending _ h]
  by_cases hlow : cpu.mode.bits < required addr
  · simp [hlow]
  · simp only [hlow, decide_false, Bool.not_false, if_true, htime, if_false, Option.bind_some]
    by_cases hrs1 : rs1 = 0
    · simp [hrs1, csr_setReg]
    · simp [hrs1, csrWrite_pending cpu h, checkAccess_pending _ h, hlow, csr_setReg]

section

variable {β : Type} [BlockBackend β] [ApFloat]

theorem execute_csr (s : Sys β) (raw : U32) (kind : CsrOp) (rd rs1 : Reg) (addr : CsrAddr) :
    execute raw (.csr kind rd rs1 addr) s =
      match execCsr s.cpu kind rd rs1 addr s.bus.clint.mtime with
      | some cpu => .ok () { s with cpu := cpu }
      | none => .error (illegal raw) s := by
  simp only [execute, Effect.run_bind, Effect.run_get]
  cases execCsr s.cpu kind rd rs1 addr s.bus.clint.mtime <;> rfl

/-- A set or clear instruction on `mip` or `sip` changes selected software bits only, and leaves
nothing else to be read once the device lines drop, exactly when the mode is too low, it selects
through `x0` or a zero immediate, or meets no level to latch. -/
theorem modify_pending_only_selected_iff (s : Sys β) (raw : U32) (kind : CsrOp) (rd rs1 : Reg)
    (addr : CsrAddr) (hk : isModify kind = true) (h : addr = MIP ∨ addr = SIP) :
    (∀ s', execute raw (.csr kind rd rs1 addr) s = .ok () s' →
        OnlySelected kind addr (csrOperand s.cpu kind rs1) s.cpu.csr s'.cpu.csr) ↔
      s.cpu.mode.bits < required addr ∨ rs1 = 0 ∨
        s.cpu.csr.latched addr (csrOperand s.cpu kind rs1) = 0 := by
  have hcsr := execCsr_pending s.cpu rd rs1 s.bus.clint.mtime hk h
  rw [execute_csr]
  cases hexec : execCsr s.cpu kind rd rs1 addr s.bus.clint.mtime with
  | none =>
    rw [hexec] at hcsr
    by_cases hlow : s.cpu.mode.bits < required addr
    · simp [hlow]
    · simp [hlow] at hcsr
  | some cpu' =>
    rw [hexec] at hcsr
    by_cases hlow : s.cpu.mode.bits < required addr
    · simp [hlow] at hcsr
    simp only [hlow, if_false, Option.map_some, Option.some.injEq] at hcsr
    have hlaw : (∀ s' : Sys β, EStateM.Result.ok (ε := Exception) () { s with cpu := cpu' } =
        .ok () s' → OnlySelected kind addr (csrOperand s.cpu kind rs1) s.cpu.csr s'.cpu.csr) ↔
        OnlySelected kind addr (csrOperand s.cpu kind rs1) s.cpu.csr cpu'.csr := by
      constructor
      · intro hall
        exact hall { s with cpu := cpu' } rfl
      · rintro hone s' hs'
        cases hs'
        exact hone
    rw [hlaw, hcsr]
    by_cases hrs1 : rs1 = 0
    · simpa [hrs1, csrOperand] using onlySelected_self kind addr s.cpu.csr
    · simp only [hrs1, if_false, csrOperand]
      rw [onlySelected_pendingWritten_iff hk h]
      simp [hlow]

end

/-- A hart in machine mode with `SSIP` in `x1` and the given device levels. -/
def drivenHart (levels : U64) : Sys MemBackend :=
  { cpu := { Cpu.new with
      regs := Function.update Cpu.new.regs 1 Irq.SSIP
      csr := { Cpu.new.csr with deviceMip := levels } }
    bus := Bus.new 0 Ram.no_bytes }

/-- A level on a bit that software cannot write is not latched. -/
theorem modify_pending_only_selected_drivenHart :
    isModify .rs = true ∧ ∀ s', @execute MemBackend _ ApFloat.zeros 0 (.csr .rs 0 1 MIP)
      (drivenHart Irq.MTIP) = .ok () s' →
      OnlySelected .rs MIP (csrOperand (drivenHart Irq.MTIP).cpu .rs 1)
        (drivenHart Irq.MTIP).cpu.csr s'.cpu.csr :=
  ⟨rfl, (@modify_pending_only_selected_iff MemBackend _ ApFloat.zeros
    (drivenHart Irq.MTIP) 0 .rs 0 1 MIP rfl (Or.inl rfl)).2 (Or.inr (Or.inr (by decide)))⟩

/-- `csrs mip, x1` selects `SSIP` alone, yet a driven `SEIP` stays pending after its line drops. -/
theorem modify_pending_latches_seip :
    ∃ s', @execute MemBackend _ ApFloat.zeros 0 (.csr .rs 0 1 MIP) (drivenHart Irq.SEIP) =
        .ok () s' ∧
      csrOperand (drivenHart Irq.SEIP).cpu .rs 1 = Irq.SSIP ∧
      (drivenHart Irq.SEIP).cpu.csr.linesDropped.loadRaw MIP = 0 ∧
      s'.cpu.csr.linesDropped.loadRaw MIP = Irq.SSIP ||| Irq.SEIP ∧
      ¬ OnlySelected .rs MIP (csrOperand (drivenHart Irq.SEIP).cpu .rs 1)
        (drivenHart Irq.SEIP).cpu.csr s'.cpu.csr := by
  refine ⟨_, rfl, by decide, by decide, by decide, ?_⟩
  rintro ⟨hkeep, -⟩
  exact absurd (hkeep 9 (by decide)) (by decide)

end Execute

end EmulateComputer
