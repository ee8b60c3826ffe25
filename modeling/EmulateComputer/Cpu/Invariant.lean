import EmulateComputer.Cpu.CsrEffects
import EmulateComputer.Cpu.Expansion

/-!
# Invariant — what holds of the hart in every reachable state

Legality of the CSR file is a property of each register on its own, so a write is legal as soon as
the word it stores is.  The invariant of the hart adds the even `pc`, the zero register and the
clearing of MPRV below machine mode, and is kept by every instruction, trap and return.
-/

namespace EmulateComputer

open Csr Effect

/-! ## Legal register values -/

/-- The words that register `addr` can hold. -/
def Csr.legal (addr : CsrAddr) (v : U64) : Prop :=
  if addr = MSTATUS then
    Mstatus.mpp v ≠ 2 ∧ v &&& Mstatus.XL_MASK = ((2 : U64) <<< 32) ||| ((2 : U64) <<< 34)
  else if addr = FCSR then v &&& ~~~(0xFF : U64) = 0
  else if addr = MTVEC ∨ addr = STVEC then v &&& 3 = 0 ∨ v &&& 3 = 1
  else if addr = MEPC ∨ addr = SEPC then IsEven v
  else if addr = SATP then v >>> 60 = 0 ∨ v >>> 60 = 8
  else ∀ mask, writeMask addr = some mask → v &&& ~~~mask = 0

namespace CsrFile

def Legal (csr : CsrFile) : Prop :=
  ∀ addr, legal addr (csr.regs addr)

namespace Legal

variable {csr csr' : CsrFile} {addr : CsrAddr} {val : U64}

theorem setReg (h : csr.Legal) (addr : CsrAddr) {val : U64} (hv : legal addr val) :
    (csr.setReg addr val).Legal := by
  intro r
  by_cases hr : r = addr
  · subst hr
    rw [regs_setReg_self]
    exact hv
  · rw [regs_setReg_ne csr hr]
    exact h r

variable {mask : U64}

theorem status (h : csr.Legal)
    (hmask : mask = Mstatus.WRITE_MASK ∨ mask = Mstatus.SSTATUS_WRITE_MASK) :
    legal MSTATUS (Mstatus.stored (csr.regs MSTATUS) val mask) :=
  ⟨Mstatus.mpp_stored_ne (h MSTATUS).1 hmask, Mstatus.stored_xl _ _ _⟩

theorem mstatusWrite (h : csr.Legal)
    (hmask : mask = Mstatus.WRITE_MASK ∨ mask = Mstatus.SSTATUS_WRITE_MASK) :
    (csr.mstatusWrite val mask).Legal := by
  exact h.setReg MSTATUS (h.status hmask)

/-- FS is no part of what makes `mstatus` legal. -/
theorem setFsDirty (h : csr.Legal) : csr.setFsDirty.Legal := by
  refine h.setReg MSTATUS ⟨?_, ?_⟩
  · unfold Mstatus.mpp
    rw [BitMask.or_and_of_disjoint (by decide)]
    exact (h MSTATUS).1
  · rw [BitMask.or_and_of_disjoint (by decide)]
    exact (h MSTATUS).2

theorem coerceTvec (val : U64) :
    CsrFile.coerceTvec val &&& 3 = 0 ∨ CsrFile.coerceTvec val &&& 3 = 1 := by
  unfold CsrFile.coerceTvec
  split
  · left
    rw [BitVec.and_assoc]
    simp
  · rename_i hle
    bv_omega

theorem writeSie (h : csr.Legal) : (csr.writeSie val).Legal := by
  refine h.setReg MIE fun mask hmask => ?_
  obtain rfl : MIE_MASK = mask := Option.some.inj hmask
  have hold : csr.regs MIE &&& ~~~MIE_MASK = 0 := h MIE MIE_MASK rfl
  have hkept : csr.regs MIE &&& ~~~csr.regs MIDELEG &&& ~~~MIE_MASK = 0 := by
    rw [BitVec.and_assoc, BitVec.and_comm (~~~csr.regs MIDELEG), ← BitVec.and_assoc, hold]
    simp
  rw [BitVec.and_or_distrib_right, hkept, BitMask.and_and_not]
  simp

/-- A register with a write mask is legal when nothing lies outside the mask. -/
theorem of_writeMask (hmask : writeMask addr = some mask)
    (hv : val &&& ~~~mask = 0) : legal addr val := by
  have hne : ∀ r, writeMask r = none → addr ≠ r := by
    rintro r hr rfl
    rw [hr] at hmask
    cases hmask
  unfold legal
  rw [if_neg (hne MSTATUS rfl), if_neg (hne FCSR rfl),
    if_neg (not_or.mpr ⟨hne MTVEC rfl, hne STVEC rfl⟩),
    if_neg (not_or.mpr ⟨hne MEPC rfl, hne SEPC rfl⟩), if_neg (hne SATP rfl)]
  intro mask' hmask'
  rw [hmask] at hmask'
  cases hmask'
  exact hv

theorem written (h : csr.Legal) (hw : Written csr addr val csr') : csr'.Legal := by
  cases hw with
  | void => exact h
  | status mask hmask =>
    refine h.mstatusWrite ?_
    rcases hmask with ⟨-, rfl⟩ | ⟨-, rfl⟩
    · exact Or.inl rfl
    · exact Or.inr rfl
  | pending mask hmask => exact h.setReg MIP nofun
  | enable haddr => exact h.writeSie
  | masked mask hmask => exact h.setReg _ (of_writeMask hmask (BitMask.and_and_not val mask))
  | tvec haddr =>
    rcases haddr with rfl | rfl <;> exact h.setReg _ (coerceTvec val)
  | epc haddr =>
    rcases haddr with rfl | rfl <;> exact h.setReg _ (isEven_clear val)
  | satp haddr hmode => exact h.setReg SATP hmode
  | float v haddr hv => exact (h.setReg FCSR (hv (h FCSR))).setFsDirty
  | cycle haddr | instret haddr => exact h
  | plain hview hmask htvec hepc hsatp =>
    refine h.setReg addr ?_
    unfold legal
    rw [if_neg fun ha => hview (Or.inl ha),
      if_neg fun ha => hview (Or.inr (Or.inr (Or.inr (Or.inr (Or.inr (Or.inr (Or.inr ha))))))),
      if_neg htvec, if_neg hepc, if_neg hsatp]
    intro mask hsome
    rw [hmask] at hsome
    cases hsome

theorem dirtied (h : csr.Legal) (flags : U64) : (csr.dirtied flags).Legal := by
  refine (h.setReg FCSR (?_ : _ &&& ~~~(0xFF : U64) = 0)).setFsDirty
  have hflags : flags &&& 0x1F &&& ~~~(0xFF : U64) = 0 := by
    rw [BitVec.and_assoc, show (0x1F : U64) &&& ~~~(0xFF : U64) = 0 by decide]
    simp
  rw [BitMask.or_and_of_disjoint hflags]
  exact h FCSR

/-- The saved context of a trap, with an even `pc`. -/
theorem trapped {a : Arch} (h : a.csr.Legal) (hpc : IsEven a.pc) (cause tval : U64)
    (toS isInterrupt : Bool) : (a.trapped cause tval toS isInterrupt).csr.Legal := by
  have hword : ∀ r v, writeMask r = none → r ∉ [MSTATUS, FCSR, MTVEC, STVEC, MEPC, SEPC, SATP] →
      legal r v := by
    intro r v hmask hr
    simp only [List.mem_cons, List.not_mem_nil, or_false, not_or] at hr
    obtain ⟨h1, h2, h3, h4, h5, h6, h7⟩ := hr
    simp only [legal, h1, h2, h3, h4, h5, h6, h7, hmask, or_self, if_false]
    nofun
  cases toS with
  | false =>
    have hsaved := ((h.setReg MEPC hpc).setReg MCAUSE (hword MCAUSE cause rfl (by decide))).setReg
      MTVAL (hword MTVAL tval rfl (by decide))
    exact hsaved.setReg MSTATUS (h.status (Or.inl rfl))
  | true =>
    have hsaved := ((h.setReg SEPC hpc).setReg SCAUSE (hword SCAUSE cause rfl (by decide))).setReg
      STVAL (hword STVAL tval rfl (by decide))
    exact hsaved.setReg MSTATUS (h.status (Or.inl rfl))

end Legal

end CsrFile

/-! ## The architectural invariant -/

/-- MPRV has no effect below machine mode because it is clear there. -/
def MprvClear (mode : Mode) (csr : CsrFile) : Prop :=
  mode ≠ .machine → csr.regs MSTATUS &&& Mstatus.MPRV = 0

/-- What every instruction and trap keeps. -/
structure Arch.Sound (a : Arch) : Prop where
  pc : IsEven a.pc
  legal : a.csr.Legal
  mprv : MprvClear a.mode a.csr

namespace Arch.Sound

variable {a a' : Arch} {op : Op} {mode : Mode}

theorem mprv_eq_zero_iff (v : U64) : v &&& Mstatus.MPRV = 0 ↔ v.getLsbD 17 = false :=
  BitMask.and_bit_eq_zero_iff v (by decide)

/-- Below machine mode no permitted write reaches MPRV. -/
theorem mprv_write {csr csr' : CsrFile} {addr : CsrAddr} {val : U64}
    (h : csr.write addr val mode = some csr') (hm : MprvClear mode csr) : MprvClear mode csr' := by
  intro hmode
  have hclear := hm hmode
  obtain ⟨hcheck, hw⟩ := CsrFile.write_cases h
  have haddr : addr ≠ MSTATUS := by
    rintro rfl
    have hdenied : csr.checkAccess MSTATUS mode true = false := by
      cases mode with
      | user => rfl
      | supervisor => rfl
      | machine => exact absurd rfl hmode
    rw [hdenied] at hcheck
    cases hcheck
  rcases hw.mstatus haddr with hsame | ⟨-, hst⟩ | ⟨-, hfs⟩
  · rw [hsame]
    exact hclear
  · rw [mprv_eq_zero_iff] at hclear ⊢
    rw [hst, Mstatus.getLsbD_stored_same (by decide) fun h => absurd h (by decide), hclear]
  · rw [hfs, BitMask.or_and_of_disjoint (by decide)]
    exact hclear

theorem isEven_tvecTarget (tvec cause : U64) (isInterrupt : Bool) :
    IsEven (Cpu.tvecTarget tvec cause isInterrupt) := by
  have hbase : IsEven (tvec &&& ~~~3) := by
    rw [isEven_iff, BitVec.and_assoc, show ~~~(3 : U64) &&& 1 = 0 by decide]
    simp
  unfold Cpu.tvecTarget
  split
  · exact hbase.add (isEven_four_mul _)
  · exact hbase

/-- Trap entry, from an even `pc`. -/
theorem trapped (h : a.Sound) (cause tval : U64) {toS : Bool} (isInterrupt : Bool)
    (htoS : toS = true → a.mode ≠ .machine) : (a.trapped cause tval toS isInterrupt).Sound := by
  refine ⟨?_, h.legal.trapped h.pc cause tval toS isInterrupt, ?_⟩
  · cases toS with
    | false | true => exact isEven_tvecTarget _ _ _
  · cases toS with
    | false => exact fun hmode => absurd rfl hmode
    | true =>
      intro _
      -- A delegated trap leaves MPRV as it was, and it was clear.
      have hold := (mprv_eq_zero_iff _).mp (h.mprv (htoS rfl))
      have hread := Mstatus.getLsbD_strapStatus a.mode a.csr.mstatusRead (i := 17) (by decide)
      have hsame := a.csr.getLsbD_stored_read (i := 17) (by decide) hread
      refine (mprv_eq_zero_iff _).mpr ?_
      change (CsrFile.regs (CsrFile.setReg _ MSTATUS _) MSTATUS).getLsbD 17 = false
      rw [CsrFile.regs_setReg_self, hsame, hold]

/-- A trap return: the saved `pc` is even, and MPRV is cleared below machine mode. -/
theorem returned (h : a.Sound) {status : U64} {epc : CsrAddr}
    (hepc : epc = SEPC ∨ epc = MEPC) (hmprv : mode ≠ .machine → status &&& Mstatus.MPRV = 0) :
    (a.returned status mode epc).Sound ∧ IsEven (a.returned status mode epc).nextPc := by
  refine ⟨⟨h.pc, h.legal.mstatusWrite (Or.inl rfl), fun hmode => ?_⟩, ?_⟩
  · change Mstatus.stored _ status Mstatus.WRITE_MASK &&& Mstatus.MPRV = 0
    have hclear := (mprv_eq_zero_iff _).mp (hmprv hmode)
    rcases Mstatus.getLsbD_stored (i := 17) (by decide) with hbit | ⟨hmpp, -⟩
    · rw [mprv_eq_zero_iff, hbit, BitMask.getLsbD_merge, if_pos (by decide), hclear]
    · exact absurd hmpp (by decide)
  · rcases hepc with rfl | rfl
    · exact h.legal SEPC
    · exact h.legal MEPC

/-- Every instruction keeps the invariant, with `nextPc` even before and after. -/
theorem exec (h : a.Sound) (hnext : IsEven a.nextPc) (hop : op.EvenOffset)
    (heffect : ExecEffect op a a') : a'.Sound ∧ IsEven a'.nextPc := by
  cases heffect with
  | compute regs | wait => exact ⟨⟨h.pc, h.legal, h.mprv⟩, hnext⟩
  | jump regs target htarget =>
    refine ⟨⟨h.pc, h.legal, h.mprv⟩, ?_⟩
    rcases htarget with ⟨imm, himm, rfl⟩ | ⟨x, rfl⟩
    · exact h.pc.add (hop imm himm)
    · exact isEven_clear x
  | csr regs addr val csr hwrite =>
    have hlegal := h.legal.written (CsrFile.write_cases hwrite).2
    exact ⟨⟨h.pc, hlegal, mprv_write hwrite h.mprv⟩, hnext⟩
  | fp regs fregs flags hon =>
    refine ⟨⟨h.pc, h.legal.dirtied flags, fun hmode => ?_⟩, hnext⟩
    change (a.csr.regs MSTATUS ||| Mstatus.FS_MASK) &&& Mstatus.MPRV = 0
    rw [BitMask.or_and_of_disjoint (by decide)]
    exact h.mprv hmode
  | sret hmode => exact h.returned (Or.inl rfl) (Mstatus.sretStatus_mprv _ _)
  | mret hmode => exact h.returned (Or.inr rfl) (Mstatus.mretStatus_mprv _ _)

/-- Only the `pc`, the mode and the slots of the CSR file matter. -/
theorem of_regs (h : a.Sound) (hpc : IsEven a'.pc) (hregs : a'.csr.regs = a.csr.regs)
    (hmode : a'.mode = a.mode) : a'.Sound := by
  refine ⟨hpc, fun addr => ?_, fun hbelow => ?_⟩
  · rw [hregs]
    exact h.legal addr
  · rw [hregs]
    exact h.mprv (by rwa [← hmode])

/-- A step keeps the invariant and leaves zero in `x0`. -/
theorem step {cpu cpu' : Cpu} {T : Exception → Prop} (h : cpu.arch.Sound) (hzero : cpu.regs 0 = 0)
    (heffect : StepEffect Fetched.WellDecoded T cpu cpu') : cpu'.arch.Sound ∧ cpu'.regs 0 = 0 := by
  have htick : ∀ d : Cpu, d.arch.Sound → cpu'.arch = (Sys.tickCycle d).arch →
      cpu'.arch.Sound ∧ cpu'.regs 0 = 0 := by
    intro d hd hcpu'
    have hregs : cpu'.regs = Function.update d.regs 0 0 := congrArg Arch.regs hcpu'
    obtain ⟨n, hcsr⟩ := Sys.csr_tickCycle d
    have hslots : (Sys.tickCycle d).csr.regs = d.csr.regs := by rw [hcsr]
    constructor
    · rw [hcpu']
      exact hd.of_regs hd.pc hslots rfl
    · rw [hregs, Function.update_self]
  cases heffect with
  | waiting hsame =>
    rw [hsame]
    exact ⟨h, hzero⟩
  | trapped c e _ hc hcpu' =>
    have hsound : c.arch.Sound := by
      rw [hc]
      exact ⟨h.pc, h.legal, h.mprv⟩
    obtain ⟨toS, htoS, htrap⟩ := c.arch_takeException e
    refine htick _ ?_ hcpu'
    rw [htrap]
    exact hsound.trapped _ _ _ htoS
  | retired f c d hf hc hd hcpu' =>
    obtain ⟨hlen, hoffset⟩ := Decode.decode_even hf
    have hsound : c.arch.Sound := by
      rw [hc]
      exact ⟨h.pc, h.legal, h.mprv⟩
    have hnext : IsEven c.arch.nextPc := by
      rw [hc]
      exact h.pc.add hlen
    obtain ⟨hd', hnext'⟩ := hsound.exec hnext hoffset hd
    obtain ⟨n, hcsr⟩ := Hart.csr_retire d f.inst.op
    have hslots : (Hart.retire d f.inst.op).csr.regs = d.csr.regs := by rw [hcsr]
    exact htick (Hart.retire d f.inst.op) (hd'.of_regs hnext' hslots rfl) hcpu'

end Arch.Sound

/-! ## Reachable states -/

/-- The states of a hart under steps, interrupts and device levels, with any memory and devices at
each step. -/
inductive Reachable (β : Type) [BlockBackend β] [ApFloat] : Cpu → Prop
  /-- Reset, with an even `pc`, boot arguments in registers other than `x0`, and with or without
  the storage-only PMP registers. -/
  | boot (pc : U64) (regs : Reg → U64) (stubs : Bool) (hpc : pc &&& 1 = 0) (hregs : regs 0 = 0) :
      Reachable β { Cpu.new with
        pc := pc
        regs := regs
        csr := if stubs then CsrFile.new.enablePmpStubs else CsrFile.new }
  | step {cpu : Cpu} (bus : Bus β) (h : Reachable β cpu) :
      Reachable β (Sys.step { cpu := cpu, bus := bus }).2.cpu
  | interrupt {cpu : Cpu} (i : Interrupt) (h : Reachable β cpu) : Reachable β (cpu.takeInterrupt i)
  | devices {cpu : Cpu} (mask pending : U64) (h : Reachable β cpu) :
      Reachable β { cpu with csr := cpu.csr.setDeviceMip mask pending }

namespace Reachable

/-- The reset values are legal; apart from `mstatus` no register with a rule is set. -/
theorem legal_new : CsrFile.new.Legal := by
  have hzero : ∀ addr, addr ≠ MSTATUS → legal addr 0 := by
    intro addr hne
    unfold legal
    rw [if_neg hne]
    split
    · simp
    split
    · simp
    split
    · rfl
    split
    · simp
    · simp
  intro addr
  by_cases hst : addr = MSTATUS
  · subst hst
    exact ⟨by decide, by decide⟩
  by_cases hmisa : addr = MISA
  · subst hmisa
    exact fun mask hmask => by cases hmask
  by_cases htime : addr = STIMECMP
  · subst htime
    exact fun mask hmask => by cases hmask
  · have hreg : CsrFile.new.regs addr = 0 := by
      simp [CsrFile.new, hst, hmisa, htime]
    rw [hreg]
    exact hzero addr hst

variable {β : Type} [BlockBackend β] [ApFloat] {cpu : Cpu}

/-- The inductive invariant of the hart. -/
theorem sound (h : Reachable β cpu) :
    cpu.arch.Sound ∧ cpu.regs 0 = 0 ∧ cpu.decodeCache.WellDecoded := by
  induction h with
  | boot pc regs stubs hpc hregs =>
    refine ⟨⟨(isEven_iff pc).mpr hpc, ?_, fun hmode => absurd rfl hmode⟩, hregs,
      DecodeCache.wellDecoded_new⟩
    cases stubs with
    | false | true => exact legal_new
  | @step cpu bus h ih =>
    obtain ⟨hsound, hzero, hcache⟩ := ih
    have hfetch := (Hart.fetchesDecoded_fetch cpu.pc (Sys.awake { cpu := cpu, bus := bus })
      hcache).mono (fun _ _ hf => hf.1) fun _ _ _ => trivial
    obtain ⟨hsound', hzero'⟩ := hsound.step hzero
      (Sys.step_effect { cpu := cpu, bus := bus } hfetch)
    exact ⟨hsound', hzero', Hart.keepsDecoded_step { cpu := cpu, bus := bus } hcache⟩
  | @interrupt cpu i h ih =>
    obtain ⟨hsound, hzero, hcache⟩ := ih
    obtain ⟨toS, htoS, htrap⟩ := cpu.arch_takeInterrupt i
    have hawake : { cpu.arch with wfi := false }.Sound := ⟨hsound.pc, hsound.legal, hsound.mprv⟩
    refine ⟨?_, ?_, ?_⟩
    · rw [htrap]
      exact hawake.trapped _ _ _ htoS
    · have hregs : (cpu.takeInterrupt i).regs = cpu.regs := by
        have := congrArg Arch.regs htrap
        cases toS <;> exact this
      rw [hregs]
      exact hzero
    · rw [Cpu.decodeCache_takeInterrupt]
      exact hcache
  | devices mask pending h ih => exact ⟨⟨ih.1.pc, ih.1.legal, ih.1.mprv⟩, ih.2⟩

end Reachable

/-- The invariant in the terms of the registers. -/
structure Cpu.Invariant (cpu : Cpu) : Prop where
  x0 : cpu.reg 0 = 0
  pc : cpu.pc &&& 1 = 0
  mepc : cpu.csr.regs MEPC &&& 1 = 0
  sepc : cpu.csr.regs SEPC &&& 1 = 0
  mpp : (cpu.csr.regs MSTATUS &&& Mstatus.MPP_MASK) >>> Mstatus.MPP_SHIFT = 0 ∨
    (cpu.csr.regs MSTATUS &&& Mstatus.MPP_MASK) >>> Mstatus.MPP_SHIFT = 1 ∨
    (cpu.csr.regs MSTATUS &&& Mstatus.MPP_MASK) >>> Mstatus.MPP_SHIFT = 3
  uxl : (cpu.csr.regs MSTATUS &&& Mstatus.UXL_MASK) >>> 32 = 2
  sxl : (cpu.csr.regs MSTATUS &&& Mstatus.SXL_MASK) >>> 34 = 2
  satp : cpu.csr.regs SATP >>> 60 = 0 ∨ cpu.csr.regs SATP >>> 60 = 8
  mtvec : cpu.csr.regs MTVEC &&& 3 = 0 ∨ cpu.csr.regs MTVEC &&& 3 = 1
  stvec : cpu.csr.regs STVEC &&& 3 = 0 ∨ cpu.csr.regs STVEC &&& 3 = 1
  mie : cpu.csr.regs MIE &&& ~~~MIE_MASK = 0
  mideleg : cpu.csr.regs MIDELEG &&& ~~~MIDELEG_MASK = 0
  medeleg : cpu.csr.regs MEDELEG &&& ~~~MEDELEG_MASK = 0
  menvcfg : cpu.csr.regs MENVCFG &&& ~~~MENVCFG_MASK = 0
  senvcfg : cpu.csr.regs SENVCFG &&& ~~~SENVCFG_MASK = 0
  mcounteren : cpu.csr.regs MCOUNTEREN &&& ~~~COUNTER_ENABLE_MASK = 0
  scounteren : cpu.csr.regs SCOUNTEREN &&& ~~~COUNTER_ENABLE_MASK = 0
  mcountinhibit : cpu.csr.regs MCOUNTINHIBIT &&& ~~~MCOUNTINHIBIT_MASK = 0
  fcsr : cpu.csr.regs FCSR ≤ 0xFF
  mprv : cpu.mode ≠ .machine → cpu.csr.regs MSTATUS &&& Mstatus.MPRV = 0

theorem Mstatus.mpp_cases {v : U64} (h : mpp v ≠ 2) : mpp v = 0 ∨ mpp v = 1 ∨ mpp v = 3 := by
  have hle : (mpp v).toNat ≤ 3 := by
    unfold mpp
    rw [show MPP_MASK = (3 : U64) <<< 11 from rfl, show MPP_SHIFT = 11 from rfl,
      BitVec.ushiftRight_and_distrib, show ((3 : U64) <<< 11) >>> 11 = 3 by decide,
      BitVec.toNat_and]
    exact Nat.and_le_right
  bv_omega

theorem fcsr_le {v : U64} (h : v &&& ~~~(0xFF : U64) = 0) : v ≤ 0xFF := by
  have hsame : v &&& 0xFF = v := by
    have hkeep := BitMask.not_and_of_disjoint (m := v) (k := ~~~(0xFF : U64))
      (by rw [BitVec.and_comm]; exact h)
    rwa [BitVec.not_not, BitVec.and_comm] at hkeep
  rw [← hsame, BitVec.le_def, BitVec.toNat_and]
  exact Nat.and_le_right

section

variable {β : Type} [BlockBackend β] [ApFloat] {cpu : Cpu}

/-- The invariant holds in every reachable state of the hart. -/
theorem reachable_invariant (h : Reachable β cpu) : cpu.Invariant := by
  obtain ⟨hsound, hzero, -⟩ := h.sound
  have hlegal := hsound.legal
  have hxl : cpu.csr.regs MSTATUS &&& Mstatus.XL_MASK =
      ((2 : U64) <<< 32) ||| ((2 : U64) <<< 34) := (hlegal MSTATUS).2
  have hfield : ∀ m : U64, Mstatus.XL_MASK &&& m = m →
      cpu.csr.regs MSTATUS &&& m = (((2 : U64) <<< 32) ||| ((2 : U64) <<< 34)) &&& m := by
    intro m hm
    rw [← hxl, BitVec.and_assoc, hm]
  exact
    { x0 := hzero
      pc := (isEven_iff _).mp hsound.pc
      mepc := (isEven_iff _).mp (hlegal MEPC)
      sepc := (isEven_iff _).mp (hlegal SEPC)
      mpp := Mstatus.mpp_cases (hlegal MSTATUS).1
      uxl := by rw [hfield _ (by decide)]; decide
      sxl := by rw [hfield _ (by decide)]; decide
      satp := hlegal SATP
      mtvec := hlegal MTVEC
      stvec := hlegal STVEC
      mie := hlegal MIE _ rfl
      mideleg := hlegal MIDELEG _ rfl
      medeleg := hlegal MEDELEG _ rfl
      menvcfg := hlegal MENVCFG _ rfl
      senvcfg := hlegal SENVCFG _ rfl
      mcounteren := hlegal MCOUNTEREN _ rfl
      scounteren := hlegal SCOUNTEREN _ rfl
      mcountinhibit := hlegal MCOUNTINHIBIT _ rfl
      fcsr := fcsr_le (hlegal FCSR)
      mprv := hsound.mprv }

end

/-- A hart booted at the start of RAM takes a step, then a timer interrupt. -/
theorem reachable_invariant_boot :
    Cpu.Invariant ((@Sys.step MemBackend _ ApFloat.zeros
      { cpu := { Cpu.new with pc := DRAM_BASE }, bus := Bus.new 0 (by decide) }).2.cpu.takeInterrupt
        .machineTimer) := by
  let _ : ApFloat := ApFloat.zeros
  exact reachable_invariant
    (.interrupt .machineTimer (.step _ (.boot DRAM_BASE (fun _ => 0) false (by decide) rfl)))

end EmulateComputer
