import EmulateComputer.Cpu.Effects

/-!
# CsrEffects — what writes and traps do to single registers

`Written` lists every form of a permitted CSR write; `Arch.trapped` is trap entry on the
architectural state.  Both are connected to the code by an equation, and the words they store in
`mstatus` are read field by field.
-/

namespace EmulateComputer

open Csr

/-! ## The status word -/

/-- The word that a write of `val` under `mask` stores over `old`. -/
def Mstatus.stored (old val mask : U64) : U64 :=
  let merged := (old &&& ~~~mask) ||| (val &&& mask)
  let legal := if mask &&& MPP_MASK ≠ 0 then CsrFile.coerceMpp old merged else merged
  (legal &&& ~~~(UXL_MASK ||| SXL_MASK)) ||| ((2 : U64) <<< 32) ||| ((2 : U64) <<< 34)

namespace CsrFile

@[simp] theorem regs_setReg_self (csr : CsrFile) (addr : CsrAddr) (val : U64) :
    (csr.setReg addr val).regs addr = val := by
  simp [setReg]

theorem regs_setReg_ne (csr : CsrFile) {addr r : CsrAddr} (h : r ≠ addr) (val : U64) :
    (csr.setReg addr val).regs r = csr.regs r := by
  simp [setReg, h]

end CsrFile

namespace Mstatus

/-- UXL and SXL are hardwired. -/
def XL_MASK : U64 := UXL_MASK ||| SXL_MASK

variable {old val mask m : U64}

/-- A field outside UXL and SXL is the one of the legalised word. -/
theorem stored_and (hm : XL_MASK &&& m = 0) :
    stored old val mask &&& m =
      (if mask &&& MPP_MASK ≠ 0 then
        CsrFile.coerceMpp old ((old &&& ~~~mask) ||| (val &&& mask))
       else (old &&& ~~~mask) ||| (val &&& mask)) &&& m := by
  have hkeep : ~~~(UXL_MASK ||| SXL_MASK) &&& m = m := BitMask.not_and_of_disjoint hm
  have hset : (((2 : U64) <<< 32) ||| ((2 : U64) <<< 34)) &&& m = 0 := by
    have hin : (((2 : U64) <<< 32) ||| ((2 : U64) <<< 34)) =
        (((2 : U64) <<< 32) ||| ((2 : U64) <<< 34)) &&& XL_MASK := by decide
    rw [hin, BitVec.and_assoc, hm]
    simp
  unfold stored
  rw [BitVec.or_assoc, BitMask.and_keep hkeep hset]

/-- UXL and SXL read as 2 after every write. -/
theorem stored_xl (old val mask : U64) :
    stored old val mask &&& XL_MASK = ((2 : U64) <<< 32) ||| ((2 : U64) <<< 34) := by
  have hnone : ~~~(UXL_MASK ||| SXL_MASK) &&& XL_MASK = 0 := by decide
  unfold stored
  rw [BitVec.or_assoc, BitMask.and_set hnone]
  decide

/-- A bit outside UXL and SXL is the merged one, unless MPP keeps its old value. -/
theorem getLsbD_stored {i : Nat} (hxl : XL_MASK.getLsbD i = false) :
    (stored old val mask).getLsbD i = (BitMask.merge mask old val).getLsbD i ∨
      MPP_MASK.getLsbD i = true ∧ (stored old val mask).getLsbD i = old.getLsbD i := by
  by_cases hi : i < 64
  · have hkeep : (~~~XL_MASK).getLsbD i = true := by
      rw [BitVec.getLsbD_not, hxl]
      simp [hi]
    rw [BitMask.getLsbD_eq_of_and_eq (stored_and (by decide)) hkeep]
    split
    · unfold CsrFile.coerceMpp
      split
      · change (BitMask.merge MPP_MASK (BitMask.merge mask old val) old).getLsbD i = _ ∨
          _ ∧ (BitMask.merge MPP_MASK (BitMask.merge mask old val) old).getLsbD i = _
        rw [BitMask.getLsbD_merge MPP_MASK]
        split
        · exact .inr ⟨‹_›, rfl⟩
        · exact .inl rfl
      · exact .inl rfl
    · exact .inl rfl
  · have hge : 64 ≤ i := Nat.le_of_not_lt hi
    rw [BitVec.getLsbD_of_ge _ _ hge, BitVec.getLsbD_of_ge _ _ hge]
    exact .inl rfl

/-- A bit that the write leaves alone, or rewrites with its old value, stays. -/
theorem getLsbD_stored_same {i : Nat} (hxl : XL_MASK.getLsbD i = false)
    (hval : mask.getLsbD i = true → val.getLsbD i = old.getLsbD i) :
    (stored old val mask).getLsbD i = old.getLsbD i := by
  rcases getLsbD_stored hxl with hmerged | ⟨-, hold⟩
  · rw [hmerged, BitMask.getLsbD_merge]
    split
    · exact hval ‹_›
    · rfl
  · exact hold

/-- The previous machine-level mode, as a number. -/
def mpp (status : U64) : U64 :=
  (status &&& MPP_MASK) >>> MPP_SHIFT

/-- MPP never becomes the reserved encoding. -/
theorem mpp_stored_ne (hold : mpp old ≠ 2) (hmask : mask = WRITE_MASK ∨ mask = SSTATUS_WRITE_MASK) :
    mpp (stored old val mask) ≠ 2 := by
  have hxl : XL_MASK &&& MPP_MASK = 0 := by decide
  unfold mpp at hold ⊢
  rw [stored_and hxl]
  rcases hmask with rfl | rfl
  · rw [if_pos (by decide)]
    unfold CsrFile.coerceMpp
    split
    · rw [BitMask.and_set (by decide), BitVec.and_assoc, BitVec.and_self]
      exact hold
    · assumption
  · have hkeep : ~~~SSTATUS_WRITE_MASK &&& MPP_MASK = MPP_MASK := by decide
    have hnone : val &&& SSTATUS_WRITE_MASK &&& MPP_MASK = 0 := by
      rw [BitVec.and_assoc, show SSTATUS_WRITE_MASK &&& MPP_MASK = 0 by decide]
      simp
    rw [if_neg (by decide), BitMask.and_keep hkeep hnone]
    exact hold

end Mstatus

/-! ## Permitted writes -/

def Csr.writeMask (addr : CsrAddr) : Option U64 :=
  if addr = MIE then some MIE_MASK
  else if addr = MEDELEG then some MEDELEG_MASK
  else if addr = MIDELEG then some MIDELEG_MASK
  else if addr = MCOUNTEREN then some COUNTER_ENABLE_MASK
  else if addr = SCOUNTEREN then some COUNTER_ENABLE_MASK
  else if addr = MCOUNTINHIBIT then some MCOUNTINHIBIT_MASK
  else if addr = MENVCFG then some MENVCFG_MASK
  else if addr = SENVCFG then some SENVCFG_MASK
  else none

def Csr.isFloat (addr : CsrAddr) : Prop :=
  addr = FFLAGS ∨ addr = FRM ∨ addr = FCSR

/-- Registers whose write is no plain store under their own address. -/
def Csr.isView (addr : CsrAddr) : Prop :=
  addr = MSTATUS ∨ addr = SSTATUS ∨ addr = MIP ∨ addr = SIP ∨ addr = SIE ∨ isFloat addr

/-- Every form of a permitted write of `val` to `addr`. -/
inductive Written (csr : CsrFile) (addr : CsrAddr) (val : U64) : CsrFile → Prop
  /-- Hardwired registers, and a `satp` mode that does not exist. -/
  | void : Written csr addr val csr
  | status (mask : U64) (h : addr = MSTATUS ∧ mask = Mstatus.WRITE_MASK ∨
      addr = SSTATUS ∧ mask = Mstatus.SSTATUS_WRITE_MASK) :
      Written csr addr val (csr.mstatusWrite val mask)
  | pending (mask : U64) (h : addr = MIP ∧ mask = csr.mipWritable ∨
      addr = SIP ∧ mask = csr.sipWritable) :
      Written csr addr val (csr.setReg MIP (BitMask.merge mask (csr.regs MIP) val))
  | enable (h : addr = SIE) : Written csr addr val (csr.writeSie val)
  | masked (mask : U64) (h : writeMask addr = some mask) :
      Written csr addr val (csr.setReg addr (val &&& mask))
  | tvec (h : addr = MTVEC ∨ addr = STVEC) :
      Written csr addr val (csr.setReg addr (CsrFile.coerceTvec val))
  | epc (h : addr = MEPC ∨ addr = SEPC) : Written csr addr val (csr.setReg addr (val &&& ~~~1))
  | satp (h : addr = SATP) (hmode : val >>> 60 = 0 ∨ val >>> 60 = 8) :
      Written csr addr val (csr.setReg SATP val)
  | float (v : U64) (h : isFloat addr)
      (hv : csr.regs FCSR &&& ~~~(0xFF : U64) = 0 → v &&& ~~~(0xFF : U64) = 0) :
      Written csr addr val (csr.setReg FCSR v).setFsDirty
  | cycle (h : addr = MCYCLE) : Written csr addr val { csr with cycle := val }
  | instret (h : addr = MINSTRET) : Written csr addr val { csr with instret := val }
  | plain (hview : ¬ isView addr) (hmask : writeMask addr = none)
      (htvec : ¬ (addr = MTVEC ∨ addr = STVEC)) (hepc : ¬ (addr = MEPC ∨ addr = SEPC))
      (hsatp : addr ≠ SATP) : Written csr addr val (csr.setReg addr val)

/-- The register that a write to `addr` stores to. -/
def Csr.target (addr : CsrAddr) : CsrAddr :=
  if addr = SSTATUS then MSTATUS
  else if addr = SIP then MIP
  else if addr = SIE then MIE
  else if addr = FFLAGS ∨ addr = FRM then FCSR
  else addr

/-- A register is its own target, unless it is a view. -/
theorem Csr.target_cases (addr : CsrAddr) :
    target addr = addr ∨ (addr = SSTATUS ∧ target addr = MSTATUS) ∨
      (addr = SIP ∧ target addr = MIP) ∨ (addr = SIE ∧ target addr = MIE) ∨
      ((addr = FFLAGS ∨ addr = FRM) ∧ target addr = FCSR) := by
  unfold target
  split_ifs with h1 h2 h3 h4
  · exact .inr (.inl ⟨h1, rfl⟩)
  · exact .inr (.inr (.inl ⟨h2, rfl⟩))
  · exact .inr (.inr (.inr (.inl ⟨h3, rfl⟩)))
  · exact .inr (.inr (.inr (.inr ⟨h4, rfl⟩)))
  · exact .inl rfl

variable {addr : CsrAddr} {csr csr' : CsrFile}

theorem Csr.target_of_not_view (h : ¬ isView addr) : target addr = addr := by
  simp only [isView, isFloat, not_or] at h
  obtain ⟨-, h1, -, h2, h3, h4, h5, -⟩ := h
  simp only [target, h1, h2, h3, h4, h5, or_self, if_false]

/-- A register with a write mask is no view. -/
theorem Csr.target_of_writeMask {mask : U64} (h : writeMask addr = some mask) :
    target addr = addr := by
  refine target_of_not_view ?_
  rintro (rfl | rfl | rfl | rfl | rfl | rfl | rfl | rfl)
  all_goals cases h

/-- Everything but the target is untouched, except that the views of `fcsr` also mark FS Dirty. -/
theorem Written.regs_of_ne {r : CsrAddr} {val : U64} (h : Written csr addr val csr')
    (hr : r ≠ target addr) (hfs : isFloat addr → r ≠ MSTATUS) : csr'.regs r = csr.regs r := by
  cases h with
  | void | cycle | instret => rfl
  | status mask hmask | pending mask hmask =>
    rcases hmask with ⟨rfl, rfl⟩ | ⟨rfl, rfl⟩ <;> exact csr.regs_setReg_ne hr _
  | enable haddr =>
    subst haddr
    exact csr.regs_setReg_ne hr _
  | masked mask hmask =>
    rw [target_of_writeMask hmask] at hr
    exact csr.regs_setReg_ne hr _
  | tvec haddr | epc haddr =>
    rcases haddr with rfl | rfl <;> exact csr.regs_setReg_ne hr _
  | satp haddr hmode =>
    subst haddr
    exact csr.regs_setReg_ne hr _
  | float v haddr hv =>
    have htarget : target addr = FCSR := by
      rcases haddr with rfl | rfl | rfl <;> rfl
    rw [htarget] at hr
    exact (CsrFile.regs_setReg_ne _ (hfs haddr) _).trans (csr.regs_setReg_ne hr _)
  | plain hview =>
    rw [target_of_not_view hview] at hr
    exact csr.regs_setReg_ne hr _

/-- What a write to another register does to `mstatus`: nothing, an `sstatus` write, or FS
Dirty. -/
theorem Written.mstatus {val : U64} (h : Written csr addr val csr') (haddr : addr ≠ MSTATUS) :
    csr'.regs MSTATUS = csr.regs MSTATUS ∨
      (addr = SSTATUS ∧ csr'.regs MSTATUS =
        Mstatus.stored (csr.regs MSTATUS) val Mstatus.SSTATUS_WRITE_MASK) ∨
      (isFloat addr ∧ csr'.regs MSTATUS = csr.regs MSTATUS ||| Mstatus.FS_MASK) := by
  cases h with
  | status mask hmask =>
    rcases hmask with ⟨hst, -⟩ | ⟨hsst, rfl⟩
    · exact absurd hst haddr
    · exact Or.inr (Or.inl ⟨hsst, csr.regs_setReg_self _ _⟩)
  | float v hfloat hv => exact Or.inr (Or.inr ⟨hfloat, rfl⟩)
  | void | cycle | instret | pending | enable | satp => exact Or.inl rfl
  | masked | tvec | epc | plain => exact Or.inl (csr.regs_setReg_ne (Ne.symm haddr) _)

namespace CsrFile

variable {val : U64}

/-- `fcsr` stays in its eight bits, whichever view is written. -/
theorem fcsr_bounded {old new keep c : U64} (hnew : new = (old &&& keep) ||| c)
    (hc : c &&& ~~~(0xFF : U64) = 0) (hold : old &&& ~~~(0xFF : U64) = 0) :
    new &&& ~~~(0xFF : U64) = 0 := by
  have hkept : old &&& keep &&& ~~~(0xFF : U64) = 0 := by
    rw [BitVec.and_assoc, BitVec.and_comm keep, ← BitVec.and_assoc, hold]
    simp
  rw [hnew, BitVec.and_or_distrib_right, hkept, hc]
  simp

theorem frm_bounded (val : U64) : ((val &&& 7) <<< 5) &&& ~~~(0xFF : U64) = 0 := by
  have hin : ((7 : U64) <<< 5) &&& ~~~(0xFF : U64) = 0 := by decide
  rw [BitVec.shiftLeft_and_distrib, BitVec.and_assoc, hin]
  simp

/-- One entry of a table of writes. -/
theorem entry_cases {c : Prop} [Decidable c] {x y : Option CsrFile} {P : Prop}
    (h : (if c then x else y) = some csr') (hx : c → x = some csr' → P)
    (hy : ¬ c → y = some csr' → P) : P := by
  by_cases hc : c
  · rw [if_pos hc] at h
    exact hx hc h
  · rw [if_neg hc] at h
    exact hy hc h

/-- The inversion follows the table of `written` from its first entry to its last. -/
theorem written_cases (h : csr.written addr val = some csr') : Written csr addr val csr' := by
  have hput : ∀ {x : CsrFile}, Written csr addr val x → some x = some csr' →
      Written csr addr val csr' := by
    intro x hx heq
    cases heq
    exact hx
  have hmasked : ∀ {r : CsrAddr} {mask : U64}, writeMask r = some mask → addr = r →
      some (csr.setReg r (val &&& mask)) = some csr' → Written csr addr val csr' := by
    intro r mask hmask hr
    subst hr
    exact hput (.masked mask hmask)
  refine entry_cases h (fun _ => hput .void) fun _ h => ?_
  refine entry_cases h (fun _ => hput .void) fun _ h => ?_
  refine entry_cases h (fun ha => hput (.status _ (Or.inl ⟨ha, rfl⟩))) fun h1 h => ?_
  refine entry_cases h (fun ha => hput (.status _ (Or.inr ⟨ha, rfl⟩))) fun h2 h => ?_
  refine entry_cases h (fun ha => hput (.pending _ (Or.inl ⟨ha, rfl⟩))) fun h3 h => ?_
  refine entry_cases h (fun ha => hput (.pending _ (Or.inr ⟨ha, rfl⟩))) fun h4 h => ?_
  refine entry_cases h (hmasked rfl) fun h5 h => ?_
  refine entry_cases h (fun ha => hput (.enable ha)) fun h6 h => ?_
  refine entry_cases h (hmasked rfl) fun h7 h => ?_
  refine entry_cases h (hmasked rfl) fun h8 h => ?_
  refine entry_cases h (hmasked rfl) fun h9 h => ?_
  refine entry_cases h (hmasked rfl) fun h10 h => ?_
  refine entry_cases h (hmasked rfl) fun h11 h => ?_
  refine entry_cases h (hmasked rfl) fun h12 h => ?_
  refine entry_cases h (hmasked rfl) fun h13 h => ?_
  refine entry_cases h (fun ha => hput (.tvec ha)) fun h14 h => ?_
  refine entry_cases h (fun ha => hput (.epc ha)) fun h15 h => ?_
  refine entry_cases h (fun ha h => ?_) fun h16 h => ?_
  · by_cases hmode : val >>> 60 = 0 ∨ val >>> 60 = 8
    · rw [if_pos hmode] at h
      exact hput (.satp ha hmode) h
    · rw [if_neg hmode] at h
      exact hput .void h
  refine entry_cases h (fun ha => hput (.float _ (Or.inl ha) fun hold => ?_)) fun h17 h => ?_
  · refine fcsr_bounded rfl ?_ hold
    rw [BitVec.and_assoc, show (0x1F : U64) &&& ~~~(0xFF : U64) = 0 by decide]
    simp
  refine entry_cases h (fun ha => hput (.float _ (Or.inr (Or.inl ha)) fun hold => ?_))
    fun h18 h => ?_
  · exact fcsr_bounded rfl (frm_bounded val) hold
  refine entry_cases h (fun ha => hput (.float _ (Or.inr (Or.inr ha)) fun _ => ?_)) fun h19 h => ?_
  · rw [BitVec.and_assoc, show (0xFF : U64) &&& ~~~(0xFF : U64) = 0 by decide]
    simp
  refine entry_cases h (fun ha => hput (.cycle ha)) fun _ h => ?_
  refine entry_cases h (fun ha => hput (.instret ha)) fun _ h => ?_
  refine entry_cases h (fun _ h => (by cases h)) fun _ h => ?_
  refine hput (.plain ?_ ?_ h14 h15 h16) h
  · rintro (ha | ha | ha | ha | ha | ha | ha | ha)
    all_goals contradiction
  · simp only [writeMask, h5, h7, h8, h9, h10, h11, h12, h13, if_false]

/-- A permitted write is one of the listed forms. -/
theorem write_cases {mode : Mode} (h : csr.write addr val mode = some csr') :
    csr.checkAccess addr mode true = true ∧ Written csr addr val csr' := by
  unfold write at h
  split at h
  · exact ⟨‹_›, written_cases h⟩
  · cases h

end CsrFile

/-! ## Trap entry -/

namespace Arch

def savedCsr (a : Arch) (epc cause tval : CsrAddr) (causeVal tvalVal : U64) : CsrFile :=
  ((a.csr.setReg epc a.pc).setReg cause causeVal).setReg tval tvalVal

def trapped (a : Arch) (cause tval : U64) (toS isInterrupt : Bool) : Arch :=
  if toS then
    { a with
      csr := (a.savedCsr SEPC SCAUSE STVAL cause tval).setReg MSTATUS
        (Mstatus.stored (a.csr.regs MSTATUS) (Cpu.strapStatus a.mode a.csr.mstatusRead)
          Mstatus.WRITE_MASK)
      mode := .supervisor
      pc := Cpu.tvecTarget (a.csr.regs STVEC) cause isInterrupt }
  else
    { a with
      csr := (a.savedCsr MEPC MCAUSE MTVAL cause tval).setReg MSTATUS
        (Mstatus.stored (a.csr.regs MSTATUS) (Cpu.mtrapStatus a.mode a.csr.mstatusRead)
          Mstatus.WRITE_MASK)
      mode := .machine
      pc := Cpu.tvecTarget (a.csr.regs MTVEC) cause isInterrupt }

end Arch

namespace Cpu

theorem arch_enterTrap (cpu : Cpu) (cause tval : U64) (toS isInterrupt : Bool) :
    (cpu.enterTrap cause tval cpu.pc toS isInterrupt).arch =
      cpu.arch.trapped cause tval toS isInterrupt := by
  cases toS with
  | false => rfl
  | true => rfl

/-- An exception reaches supervisor mode only from below machine mode. -/
theorem arch_takeException (cpu : Cpu) (e : Exception) :
    ∃ toS, (toS = true → cpu.mode ≠ .machine) ∧
      (cpu.takeException e).arch = cpu.arch.trapped e.cause e.tval toS false := by
  refine ⟨_, fun htoS => ?_, arch_enterTrap { cpu with reservation := none } _ _ _ _⟩
  exact of_decide_eq_true (Bool.and_eq_true _ _ ▸ htoS).1

theorem arch_takeInterrupt (cpu : Cpu) (i : Interrupt) :
    ∃ toS, (toS = true → cpu.mode ≠ .machine) ∧
      (cpu.takeInterrupt i).arch = { cpu.arch with wfi := false }.trapped i.cause 0 toS true := by
  refine ⟨_, fun htoS => ?_, arch_enterTrap { cpu with wfi := false } _ _ _ _⟩
  exact of_decide_eq_true (Bool.and_eq_true _ _ ▸ htoS).1

end Cpu

/-! ## Status words of traps and returns -/

namespace Mstatus

/-- The fields that a trap to, or a return from, supervisor mode rewrites. -/
def STRAP_MASK : U64 := SPIE ||| SIE ||| SPP

variable {i : Nat} (mode : Mode) (status : U64)

/-- A word that keeps the bits outside `t` and sets bits inside it. -/
theorem getLsbD_outside {t x c k : U64} (hi : t.getLsbD i = false) (hk : k &&& t = k)
    (hc : c &&& t = c) : (x &&& ~~~k ||| c).getLsbD i = x.getLsbD i := by
  have hki : k.getLsbD i = false := by
    rw [← hk, BitVec.getLsbD_and, hi, Bool.and_false]
  have hci : c.getLsbD i = false := by
    rw [← hc, BitVec.getLsbD_and, hi, Bool.and_false]
  by_cases h64 : i < 64
  · simp only [BitVec.getLsbD_or, BitVec.getLsbD_and, BitVec.getLsbD_not, hki, hci, h64]
    simp
  · have hge : 64 ≤ i := Nat.le_of_not_lt h64
    rw [BitVec.getLsbD_of_ge _ _ hge, BitVec.getLsbD_of_ge _ _ hge]

/-- Clearing bits inside `t` leaves the others. -/
theorem getLsbD_clear {t x k : U64} (hi : t.getLsbD i = false) (hk : k &&& t = k) :
    (x &&& ~~~k).getLsbD i = x.getLsbD i := by
  have hclear := getLsbD_outside (x := x) (c := 0) hi hk (by simp)
  rwa [show x &&& ~~~k ||| 0 = x &&& ~~~k from BitVec.or_zero] at hclear

theorem getLsbD_strapStatus (hi : STRAP_MASK.getLsbD i = false) :
    (Cpu.strapStatus mode status).getLsbD i = status.getLsbD i := by
  unfold Cpu.strapStatus
  rw [BitVec.or_assoc]
  refine getLsbD_outside hi (by decide) ?_
  split <;> split <;> decide

theorem getLsbD_sretStatus (hi : (STRAP_MASK ||| MPRV).getLsbD i = false) :
    (Cpu.sretStatus mode status).getLsbD i = status.getLsbD i := by
  have hset : ((status &&& ~~~(SIE ||| SPP)) |||
      (if status &&& SPIE ≠ 0 then SIE else 0) ||| SPIE).getLsbD i = status.getLsbD i := by
    rw [BitVec.or_assoc]
    refine getLsbD_outside hi (by decide) ?_
    split <;> decide
  by_cases hm : mode ≠ .machine
  · simp only [Cpu.sretStatus, if_pos hm]
    rw [getLsbD_clear hi (by decide), hset]
  · simp only [Cpu.sretStatus, if_neg hm]
    exact hset

/-- A return below machine mode clears MPRV. -/
theorem sretStatus_mprv (h : mode ≠ .machine) : Cpu.sretStatus mode status &&& MPRV = 0 := by
  unfold Cpu.sretStatus
  rw [if_pos h, BitVec.and_assoc, show ~~~MPRV &&& MPRV = 0 by decide]
  simp

theorem mretStatus_mprv (h : mode ≠ .machine) : Cpu.mretStatus mode status &&& MPRV = 0 := by
  unfold Cpu.mretStatus
  rw [if_pos h, BitVec.and_assoc, show ~~~MPRV &&& MPRV = 0 by decide]
  simp

end Mstatus

namespace CsrFile

/-- SD is computed on reads; every other bit reads as stored. -/
theorem getLsbD_mstatusRead (csr : CsrFile) {i : Nat} (hi : Mstatus.SD.getLsbD i = false) :
    csr.mstatusRead.getLsbD i = (csr.regs MSTATUS).getLsbD i := by
  by_cases hfs : csr.regs MSTATUS &&& Mstatus.FS_MASK = Mstatus.FS_MASK
  · simp only [mstatusRead, if_pos hfs, BitVec.getLsbD_or, hi, Bool.or_false]
  · simp only [mstatusRead, if_neg hfs]
    exact Mstatus.getLsbD_clear hi (BitVec.and_self (x := Mstatus.SD))

/-- A full status write whose word agrees with the stored one at a bit keeps that bit. -/
theorem getLsbD_stored_read (csr : CsrFile) {val : U64} {i : Nat}
    (hxl : Mstatus.XL_MASK.getLsbD i = false) (hval : val.getLsbD i = csr.mstatusRead.getLsbD i) :
    (Mstatus.stored (csr.regs MSTATUS) val Mstatus.WRITE_MASK).getLsbD i =
      (csr.regs MSTATUS).getLsbD i := by
  refine Mstatus.getLsbD_stored_same hxl fun hmask => ?_
  rw [hval]
  refine csr.getLsbD_mstatusRead ?_
  -- SD is outside the write mask.
  have hdisjoint : Mstatus.SD &&& Mstatus.WRITE_MASK = 0 := by decide
  have hbit := (BitMask.eq_zero_iff _).mp hdisjoint i
  simpa [hmask] using hbit

end CsrFile

end EmulateComputer
