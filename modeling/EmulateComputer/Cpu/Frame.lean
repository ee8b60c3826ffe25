import EmulateComputer.Cpu.Results

/-!
# Frame — what an access and an instruction of the hart can change

Loads, stores, fetches and instructions are programs over three primitive accesses: a bus read, a
bus write and a translation.  A relation that the primitive accesses keep is kept by every program
built from them; the rules below are stated once, for an arbitrary preorder, and instantiated by
the architectural state, by the bus and by the invariants of the hart.

`Arch` is the part of the hart that software sees.  Memory accesses leave it alone, whether they
succeed or fault, and `ExecEffect` lists everything a completed instruction can do to it.
-/

namespace EmulateComputer

open Csr Effect

structure Arch where
  regs : Reg → U64
  fregs : Reg → U64
  pc : U64
  nextPc : U64
  mode : Mode
  csr : CsrFile
  wfi : Bool

namespace Cpu

def arch (cpu : Cpu) : Arch :=
  ⟨cpu.regs, cpu.fregs, cpu.pc, cpu.nextPc, cpu.mode, cpu.csr, cpu.wfi⟩

end Cpu

def Op.offset : Op → Option U64
  | .jal _ imm | .branch _ _ _ imm => some imm
  | _ => none

namespace Hart

variable {β : Type} [BlockBackend β] {R : Sys β → Sys β → Prop}

/-- `R` is kept by translations and bus reads. -/
structure ReadFrame (R : Sys β → Sys β → Prop) : Prop extends IsPreorder (Sys β) R where
  read : ∀ e pa size, Keeps R (onBus e (Bus.read pa size))
  mmu : ∀ satp p va, Keeps R (onMmu (Mmu.translate satp p va))

/-- `R` is also kept by bus writes and by giving up the reservation. -/
structure WriteFrame (R : Sys β → Sys β → Prop) : Prop extends ReadFrame R where
  write : ∀ e pa val size, Keeps R (onBus e (Bus.write pa val size))
  release : ∀ s, R s { s with cpu := { s.cpu with reservation := none } }

/-! ## Loads -/

section Read

theorem keeps_translate (h : ReadFrame R) (va : U64) (acc : AccessType) (mode : Mode) :
    Keeps R (translate va acc mode) := by
  have := h.toIsPreorder
  exact keeps_bind keeps_get fun s => keeps_ite (fun _ => keeps_pure va) fun _ => h.mmu _ _ va

theorem keeps_translateBytes (h : ReadFrame R) (va : U64) (acc : AccessType) (mode : Mode)
    (offsets : List Nat) : Keeps R (translateBytes va acc mode offsets) := by
  have := h.toIsPreorder
  induction offsets with
  | nil => exact keeps_pure []
  | cons i offsets ih =>
    refine keeps_ite (fun _ => keeps_throw _) fun _ => ?_
    refine keeps_bind (keeps_translate h _ acc mode) fun pa => ?_
    exact keeps_bind ih fun pas => keeps_pure (pa :: pas)

theorem keeps_loadBytes (h : ReadFrame R) (va : U64) (pas : List U64) (i : Nat) (v : U64) :
    Keeps R (loadBytes va pas i v) := by
  have := h.toIsPreorder
  induction pas generalizing i v with
  | nil => exact keeps_pure v
  | cons pa pas ih => exact keeps_bind (h.read _ pa 1) fun b => ih _ _

theorem keeps_load (h : ReadFrame R) (va : U64) (size : Nat) : Keeps R (load va size) := by
  have := h.toIsPreorder
  refine keeps_bind keeps_get fun s => keeps_ite (fun _ => ?_) fun _ => ?_
  · refine keeps_ite (fun _ => keeps_throw _) fun _ => ?_
    exact keeps_bind (keeps_translateBytes h _ _ _ _) fun pas => keeps_loadBytes h va pas 0 0
  · exact keeps_bind (keeps_translate h va _ _) fun pa => h.read _ pa size

theorem keeps_translateAmo (h : ReadFrame R) (va : U64) (size : Nat) (isStore : Bool) :
    Keeps R (translateAmo va size isStore) := by
  have := h.toIsPreorder
  exact keeps_bind keeps_get fun s =>
    keeps_ite (fun _ => keeps_throw _) fun _ => keeps_translate h va _ _

end Read

/-! ## Stores -/

section Write

theorem keeps_release (h : WriteFrame R) :
    Keeps R (modifyCpu fun cpu => { cpu with reservation := none }) :=
  keeps_modify h.release

theorem keeps_storeBytes (h : WriteFrame R) (va val : U64) (pas : List U64) (i : Nat) :
    Keeps R (storeBytes va val pas i) := by
  have := h.toIsPreorder
  induction pas generalizing i with
  | nil => exact keeps_pure ()
  | cons pa pas ih => exact keeps_bind (h.write _ pa _ 1) fun _ => ih _

theorem keeps_storeCrossPage (h : WriteFrame R) (va val : U64) (size : Nat) (mode : Mode) :
    Keeps R (storeCrossPage va val size mode) := by
  have := h.toIsPreorder
  refine keeps_ite (fun _ => keeps_throw _) fun _ => ?_
  refine keeps_bind (keeps_translateBytes h.toReadFrame _ _ _ _) fun pas => ?_
  refine keeps_bind keeps_get fun s => ?_
  exact keeps_ite (fun _ => keeps_throw _) fun _ => keeps_storeBytes h va val pas 0

theorem keeps_store (h : WriteFrame R) (va val : U64) (size : Nat) :
    Keeps R (store va val size) := by
  have := h.toIsPreorder
  refine keeps_bind keeps_get fun s => keeps_bind (keeps_release h) fun _ => ?_
  refine keeps_ite (fun _ => keeps_storeCrossPage h va val size _) fun _ => ?_
  exact keeps_bind (keeps_translate h.toReadFrame va _ _) fun pa => h.write _ pa val size

end Write

/-! ## Fetches -/

section Fetch

theorem keeps_fetchWindow (h : ReadFrame R) (pc pa : U64) : Keeps R (fetchWindow pc pa) := by
  have := h.toIsPreorder
  refine keeps_bind (h.read _ pa 2) fun low => keeps_bind keeps_get fun s => ?_
  refine keeps_ite (fun _ => keeps_pure _) fun _ => ?_
  -- The upper half is translated on its own when it opens a new page.
  have htail : ∀ pa2, Keeps R (do
      let high ← onBus (.instructionAccessFault (pc + 2)) (Bus.read pa2 2)
      let t ← get
      pure { raw := low.setWidth 32 ||| (high.setWidth 32 <<< 16)
             cachePage := windowPage t.bus pc (pc + 2) pa pa2 : FetchedInstruction }) :=
    fun pa2 => keeps_bind (h.read _ pa2 2) fun _ => keeps_bind keeps_get fun _ => keeps_pure _
  refine keeps_ite (fun _ => ?_) fun _ => htail (pa + 2)
  exact keeps_bind (keeps_translate h _ _ _) htail

/-- `R` ignores the fetch memo. -/
structure MemoFrame (R : Sys β → Sys β → Prop) : Prop extends ReadFrame R where
  memo : ∀ s memo, R s { s with cpu := { s.cpu with fetchTranslation := memo } }

/-- `R` ignores the block cache too. -/
structure FetchFrame (R : Sys β → Sys β → Prop) : Prop extends MemoFrame R where
  cache : ∀ s cache, R s { s with cpu := { s.cpu with decodeCache := cache } }

theorem keeps_translateFetch (h : MemoFrame R) (pc : U64) : Keeps R (translateFetch pc) := by
  have := h.toIsPreorder
  refine keeps_bind keeps_get fun s => ?_
  cases memoisedFetch s.cpu pc with
  | some pa => exact keeps_pure pa
  | none =>
    refine keeps_bind (keeps_translate h.toReadFrame pc _ _) fun pa => ?_
    exact keeps_bind (keeps_modify fun t => h.memo t _) fun _ => keeps_pure pa

theorem keeps_setCache (h : FetchFrame R) (cache : DecodeCache) :
    Keeps R (modifyCpu fun cpu => { cpu with decodeCache := cache }) :=
  keeps_modify fun s => h.cache s cache

theorem keeps_fetchDecode (h : FetchFrame R) (pc pa : U64) (append : Option (Nat × Nat)) :
    Keeps R (fetchDecode pc pa append) := by
  have := h.toIsPreorder
  refine keeps_bind (keeps_fetchWindow h.toReadFrame pc pa) fun fetched => ?_
  cases Decode.decode fetched.raw with
  | none => exact keeps_throw _
  | some decoded =>
    cases fetched.cachePage with
    | none => exact keeps_pure _
    | some page =>
      refine keeps_bind keeps_get fun s => ?_
      exact keeps_bind (keeps_setCache h _) fun _ => keeps_pure _

theorem keeps_fetchPhysical (h : FetchFrame R) (pc : U64) (append : Option (Nat × Nat)) :
    Keeps R (fetchPhysical pc append) := by
  have := h.toIsPreorder
  refine keeps_ite (fun _ => keeps_throw _) fun _ => ?_
  refine keeps_bind (keeps_translateFetch h.toMemoFrame pc) fun pa => ?_
  cases append with
  | some at' => exact keeps_fetchDecode h pc pa _
  | none =>
    refine keeps_bind keeps_get fun s => keeps_bind (keeps_setCache h _) fun _ => ?_
    cases (s.cpu.decodeCache.lookupPhysical pa s.bus.ram).1 with
    | hit location => exact keeps_pure _
    | miss => exact keeps_fetchDecode h pc pa none

theorem keeps_fetch (h : FetchFrame R) (pc : U64) : Keeps R (fetch pc) := by
  have := h.toIsPreorder
  refine keeps_bind keeps_get fun s => keeps_bind (keeps_setCache h _) fun _ => ?_
  cases (s.cpu.decodeCache.lookupActive pc s.bus.ram).1 with
  | hit location => exact keeps_pure _
  | append slot index => exact keeps_fetchPhysical h pc _
  | none => exact keeps_fetchPhysical h pc none

end Fetch

/-! ## Instructions -/

/-- What an instruction can do to the caches: nothing, or a flush. -/
structure CachesStep (cpu cpu' : Cpu) : Prop where
  memo : cpu'.fetchTranslation = cpu.fetchTranslation
  cache : cpu'.decodeCache = cpu.decodeCache ∨ cpu'.decodeCache = cpu.decodeCache.flush
  mmu : cpu'.mmu = cpu.mmu ∨ cpu'.mmu = cpu.mmu.flushAll

/-- `R` is kept by accesses, and by changes of the hart that at most flush a cache. -/
structure ExecFrame (R : Sys β → Sys β → Prop) : Prop extends WriteFrame R where
  cpu : ∀ s cpu, CachesStep s.cpu cpu → R s { s with cpu := cpu }

namespace CachesStep

variable {cpu d : Cpu}

theorem refl (cpu : Cpu) : CachesStep cpu cpu :=
  ⟨rfl, Or.inl rfl, Or.inl rfl⟩

theorem setReg (cpu : Cpu) (r : Reg) (v : U64) : CachesStep cpu (cpu.setReg r v) := by
  obtain ⟨regs, hregs⟩ := cpu.setReg_form r v
  rw [hregs]
  exact ⟨rfl, Or.inl rfl, Or.inl rfl⟩

theorem fp (h : FpResult cpu d) : CachesStep cpu d := by
  rcases h with ⟨regs, rfl⟩ | ⟨regs, fregs, flags, rfl⟩
  · exact ⟨rfl, Or.inl rfl, Or.inl rfl⟩
  · exact ⟨rfl, Or.inl rfl, Or.inl rfl⟩

theorem csr {addr : CsrAddr} (h : Execute.CsrResult cpu addr d) : CachesStep cpu d := by
  rcases h with ⟨regs, rfl⟩ | ⟨regs, val, csr, -, rfl⟩
  · exact ⟨rfl, Or.inl rfl, Or.inl rfl⟩
  · refine ⟨rfl, Or.inl rfl, ?_⟩
    unfold Execute.csrMmu
    split
    · exact Or.inr rfl
    · exact Or.inl rfl

end CachesStep

def SameArch (s s' : Sys β) : Prop :=
  s'.cpu.arch = s.cpu.arch

theorem readFrame_sameArch : ReadFrame (SameArch : Sys β → Sys β → Prop) where
  refl _ := rfl
  trans _ _ _ hab hbc := Eq.trans hbc hab
  read _ _ _ := keeps_zoom_any fun _ _ => rfl
  mmu _ _ _ := keeps_zoom_any fun _ _ => rfl

theorem writeFrame_sameArch : WriteFrame (SameArch : Sys β → Sys β → Prop) :=
  { readFrame_sameArch with
    write := fun _ _ _ _ => keeps_zoom_any fun _ _ => rfl
    release := fun _ => rfl }

theorem fetchFrame_sameArch : FetchFrame (SameArch : Sys β → Sys β → Prop) :=
  { readFrame_sameArch with
    memo := fun _ _ => rfl
    cache := fun _ _ => rfl }

/-- The frame together with the architectural state, as accesses see them. -/
theorem ExecFrame.both (h : ExecFrame R) : WriteFrame fun s t => R s t ∧ SameArch s t where
  refl s := ⟨h.refl s, rfl⟩
  trans _ _ _ hab hbc := ⟨h.trans _ _ _ hab.1 hbc.1, Eq.trans hbc.2 hab.2⟩
  read e pa size s := ⟨h.read e pa size s, writeFrame_sameArch.read e pa size s⟩
  mmu satp p va s := ⟨h.mmu satp p va s, writeFrame_sameArch.mmu satp p va s⟩
  write e pa val size s := ⟨h.write e pa val size s, writeFrame_sameArch.write e pa val size s⟩
  release s := ⟨h.release s, rfl⟩

end Hart

namespace Arch

/-- Where a jump may go: to `pc` plus the offset of the instruction, or to an address whose lowest
bit was cleared. -/
def JumpTarget (a : Arch) (op : Op) (target : U64) : Prop :=
  (∃ imm, op.offset = some imm ∧ target = a.pc + imm) ∨ ∃ x : U64, target = x &&& ~~~1

def sretMode (a : Arch) : Mode :=
  if a.csr.loadRaw MSTATUS &&& Mstatus.SPP ≠ 0 then .supervisor else .user

def mretMode (a : Arch) : Mode :=
  .fromBits ((a.csr.loadRaw MSTATUS &&& Mstatus.MPP_MASK) >>> Mstatus.MPP_SHIFT)

def returned (a : Arch) (status : U64) (mode : Mode) (epc : CsrAddr) : Arch :=
  { a with
    csr := a.csr.storeRaw MSTATUS status
    mode := mode
    nextPc := (a.csr.storeRaw MSTATUS status).loadRaw epc }

end Arch

/-- Everything a completed instruction can do to the architectural state. -/
inductive ExecEffect (op : Op) (a : Arch) : Arch → Prop
  | compute (regs : Reg → U64) : ExecEffect op a { a with regs := regs }
  | wait : ExecEffect op a { a with wfi := true }
  | jump (regs : Reg → U64) (target : U64) (h : a.JumpTarget op target) :
      ExecEffect op a { a with regs := regs, nextPc := target }
  | csr (regs : Reg → U64) (addr : CsrAddr) (val : U64) (csr : CsrFile)
      (h : a.csr.write addr val a.mode = some csr) :
      ExecEffect op a { a with regs := regs, csr := csr }
  | fp (regs fregs : Reg → U64) (flags : U64) (hon : a.csr.fs ≠ FS_OFF) :
      ExecEffect op a { a with regs := regs, fregs := fregs, csr := a.csr.dirtied flags }
  | sret (h : a.mode ≠ .user) :
      ExecEffect op a (a.returned
        (Cpu.sretStatus a.sretMode (a.csr.loadRaw MSTATUS)) a.sretMode SEPC)
  | mret (h : a.mode = .machine) :
      ExecEffect op a (a.returned
        (Cpu.mretStatus a.mretMode (a.csr.loadRaw MSTATUS)) a.mretMode MEPC)

namespace Execute

variable {op : Op}

theorem effect_refl (op : Op) (a : Arch) : ExecEffect op a a :=
  .compute a.regs

theorem effect_setReg (op : Op) (cpu : Cpu) (r : Reg) (v : U64) :
    ExecEffect op cpu.arch (cpu.setReg r v).arch := by
  obtain ⟨regs, hregs⟩ := cpu.setReg_form r v
  rw [hregs]
  exact .compute regs

variable {cpu d : Cpu}

theorem effect_jumpTo {target : U64} (h : cpu.arch.JumpTarget op target) (rd : Reg) :
    ExecEffect op cpu.arch (jumpTo cpu rd target).arch := by
  obtain ⟨regs, hregs⟩ := Cpu.setReg_form { cpu with nextPc := target } rd cpu.nextPc
  rw [jumpTo, hregs]
  exact .jump regs target h

theorem effect_csr {addr : CsrAddr} (h : CsrResult cpu addr d) : ExecEffect op cpu.arch d.arch := by
  rcases h with ⟨regs, rfl⟩ | ⟨regs, val, csr, hcsr, rfl⟩
  · exact .compute regs
  · exact .csr regs addr val csr hcsr

theorem effect_fp (hon : cpu.csr.fs ≠ FS_OFF) (h : FpResult cpu d) :
    ExecEffect op cpu.arch d.arch := by
  rcases h with ⟨regs, rfl⟩ | ⟨regs, fregs, flags, rfl⟩
  · exact .compute regs
  · exact .fp regs fregs flags hon

theorem effect_sret (h : cpu.sret.toOption = some d) :
    Hart.CachesStep cpu d ∧ ExecEffect op cpu.arch d.arch := by
  unfold Cpu.sret at h
  split at h
  · cases h
  · next hmode =>
    cases h
    exact ⟨⟨rfl, Or.inl rfl, Or.inl rfl⟩, .sret fun hu => hmode (Or.inl hu)⟩

theorem effect_mret (h : cpu.mret.toOption = some d) :
    Hart.CachesStep cpu d ∧ ExecEffect op cpu.arch d.arch := by
  unfold Cpu.mret at h
  split at h
  · cases h
  · next hmode =>
    cases h
    exact ⟨⟨rfl, Or.inl rfl, Or.inl rfl⟩, .mret (not_not.mp hmode)⟩

section

variable {β : Type} {R : Sys β → Sys β → Prop} {s₀ s : Sys β} {x : Hart β Unit}

open Hart

/-- From the architectural state `a`: an effect if the program completes, `a` itself if it
faults. -/
def Outcome (op : Op) (a : Arch) (x : Hart β Unit) : Prop :=
  ∀ s, s.cpu.arch = a →
    Post x s (fun _ t => ExecEffect op a t.cpu.arch) fun _ t => t.cpu.arch = a

/-- From `s`, which accesses have reached from `s₀` along `R`: an effect if the program completes,
the architectural state of `s₀` if it faults, along `R` in both cases. -/
def Moves (R : Sys β → Sys β → Prop) (op : Op) (s₀ s : Sys β) (x : Hart β Unit) : Prop :=
  R s₀ s ∧ SameArch s₀ s →
    Post x s (fun _ t => R s₀ t ∧ ExecEffect op s₀.cpu.arch t.cpu.arch)
      fun _ t => R s₀ t ∧ SameArch s₀ t

theorem moves_throw (e : Exception) : Moves R op s₀ s (throw e) :=
  fun hs => hs

theorem moves_get {f : Sys β → Hart β Unit} (h : Moves R op s₀ s (f s)) :
    Moves R op s₀ s (get >>= f) :=
  fun hs => post_get (h hs)

theorem moves_ite {c : Prop} [Decidable c] {y : Hart β Unit} (hx : c → Moves R op s₀ s x)
    (hy : ¬ c → Moves R op s₀ s y) : Moves R op s₀ s (if c then x else y) :=
  fun hs => post_ite (fun hc => hx hc hs) fun hc => hy hc hs

theorem moves_whenOn {raw : U32} (hx : s₀.cpu.csr.fs ≠ FS_OFF → Moves R op s₀ s x) :
    Moves R op s₀ s (Fpu.whenOn raw x) := by
  intro hs
  have hcsr : s.cpu.csr = s₀.cpu.csr := congrArg Arch.csr hs.2
  exact moves_get (moves_ite (fun _ => moves_throw _) fun hon => hx (hcsr ▸ hon)) hs

variable [BlockBackend β] (h : ExecFrame R) {f : Cpu → Cpu}

include h

/-- Memory accesses come first, and the change of the hart last. -/
theorem moves_bind {α : Type} {x : Hart β α} {f : α → Hart β Unit}
    (hx : Keeps (fun s t => R s t ∧ SameArch s t) x) (hf : ∀ v t, Moves R op s₀ t (f v)) :
    Moves R op s₀ s (x >>= f) := by
  intro hs
  exact post_bind ((Post.of_keeps hx).mono (fun v t ht => hf v t (h.both.trans _ _ _ hs ht))
    fun _ t ht => h.both.trans _ _ _ hs ht)

theorem moves_keeps (hx : Keeps (fun s t => R s t ∧ SameArch s t) x) : Moves R op s₀ s x := by
  intro hs
  refine (Post.of_keeps hx).mono (fun _ t ht => ?_) fun _ t ht => h.both.trans _ _ _ hs ht
  have hmoved := h.both.trans _ _ _ hs ht
  refine ⟨hmoved.1, ?_⟩
  rw [show t.cpu.arch = s₀.cpu.arch from hmoved.2]
  exact effect_refl op _

theorem moves_modifyCpu (hcaches : CachesStep s.cpu (f s.cpu))
    (heffect : ExecEffect op s.cpu.arch (f s.cpu).arch) : Moves R op s₀ s (modifyCpu f) := by
  intro hs
  have := h.toIsPreorder
  rw [show s.cpu.arch = s₀.cpu.arch from hs.2] at heffect
  exact ⟨trans_of R hs.1 (h.cpu s _ hcaches), heffect⟩

theorem moves_setReg (rd : Reg) (v : Cpu → U64) :
    Moves R op s₀ s (modifyCpu fun cpu => cpu.setReg rd (v cpu)) :=
  moves_modifyCpu h (.setReg _ rd _) (effect_setReg op _ rd _)

theorem moves_jumpTo (rd : Reg) {target : Cpu → U64}
    (htarget : s.cpu.arch.JumpTarget op (target s.cpu)) :
    Moves R op s₀ s (modifyCpu fun cpu => jumpTo cpu rd (target cpu)) := by
  have hset := CachesStep.setReg { s.cpu with nextPc := target s.cpu } rd s.cpu.nextPc
  exact moves_modifyCpu h ⟨hset.memo, hset.cache, hset.mmu⟩ (effect_jumpTo htarget rd)

theorem moves_putCpu {e : Exception} {o : Option Cpu}
    (ho : ∀ d, o = some d → CachesStep s.cpu d ∧ ExecEffect op s.cpu.arch d.arch) :
    Moves R op s₀ s (putCpu e o) := by
  cases o with
  | none => exact moves_throw e
  | some d => exact moves_modifyCpu h (f := fun _ => d) (ho d rfl).1 (ho d rfl).2

theorem moves_execLr (width : AmoWidth) (rd rs1 : Reg) : Moves R op s₀ s (execLr width rd rs1) := by
  refine moves_get (moves_bind h (keeps_translateAmo h.both.toReadFrame _ _ _) fun pa _ => ?_)
  refine moves_bind h (h.both.read _ pa _) fun v t => ?_
  have hset := CachesStep.setReg t.cpu rd (amoLoaded width v)
  exact moves_modifyCpu h ⟨hset.memo, hset.cache, hset.mmu⟩ (effect_setReg op t.cpu rd _)

theorem moves_execSc (width : AmoWidth) (rd rs1 rs2 : Reg) :
    Moves R op s₀ s (execSc width rd rs1 rs2) := by
  refine moves_get (moves_bind h (keeps_translateAmo h.both.toReadFrame _ _ _) fun pa _ => ?_)
  refine moves_get (moves_ite (fun _ => moves_throw _) fun _ => ?_)
  refine moves_bind h (keeps_release h.both) fun _ _ => ?_
  refine moves_ite (fun _ => ?_) fun _ => moves_setReg h rd _
  exact moves_bind h (h.both.write _ pa _ _) fun _ _ => moves_setReg h rd _

theorem moves_execAmo (kind : AmoOp) (width : AmoWidth) (rd rs1 rs2 : Reg) :
    Moves R op s₀ s (execAmo kind width rd rs1 rs2) := by
  refine moves_get (moves_bind h (keeps_release h.both) fun _ _ => ?_)
  refine moves_bind h (keeps_translateAmo h.both.toReadFrame _ _ _) fun pa _ => ?_
  refine moves_bind h (h.both.read _ pa _) fun old _ => ?_
  exact moves_bind h (h.both.write _ pa _ _) fun _ _ => moves_setReg h rd _

theorem moves_fpResult (hon : s₀.cpu.csr.fs ≠ FS_OFF)
    (hf : FpResult s.cpu (f s.cpu)) : Moves R op s₀ s (modifyCpu f) := by
  intro hs
  have hcsr : s.cpu.csr = s₀.cpu.csr := congrArg Arch.csr hs.2
  exact moves_modifyCpu h (.fp hf) (effect_fp (hcsr ▸ hon) hf) hs

theorem moves_fpLoad (hon : s₀.cpu.csr.fs ≠ FS_OFF) (sz : FpSize) (frd rs1 : Reg) (imm : U64) :
    Moves R op s₀ s (Fpu.execLoad sz frd rs1 imm) := by
  refine moves_get (moves_bind h (keeps_load h.both.toReadFrame _ _) fun v t => ?_)
  refine moves_fpResult h hon ?_
  cases sz with
  | s | d => exact (FpResult.refl t.cpu).writeF64Raw frd _

theorem moves_fpStore (sz : FpSize) (rs1 frs2 : Reg) (imm : U64) :
    Moves R op s₀ s (Fpu.execStore sz rs1 frs2 imm) := by
  refine moves_get ?_
  cases sz with
  | s | d => exact moves_keeps h (keeps_store h.both _ _ _)

variable [ApFloat]

theorem moves_fp (hon : s₀.cpu.csr.fs ≠ FS_OFF) (raw : U32) (kind : FpOp) (sz : FpSize)
    (rd rs1 rs2 rs3 : Reg) (rm : U8) :
    Moves R op s₀ s (putResult (Fpu.execFp s.cpu raw kind sz rd rs1 rs2 rs3 rm)) := by
  cases hd : Fpu.execFp s.cpu raw kind sz rd rs1 rs2 rs3 rm with
  | error e => exact moves_throw e
  | ok d => exact moves_fpResult h hon (f := fun _ => d) (FpResult.execFp hd)

theorem moves_execute (raw : U32) (op : Op) : Moves R op s₀ s (execute raw op) := by
  refine moves_get ?_
  cases op with
  | lui | auipc | opImm | opImm32 | opReg | opReg32 | bit | bitUnary | bitImm =>
    exact moves_setReg h _ _
  | jal rd imm => exact moves_jumpTo h rd (Or.inl ⟨imm, rfl, rfl⟩)
  | jalr rd rs1 imm => exact moves_jumpTo h rd (Or.inr ⟨s.cpu.reg rs1 + imm, rfl⟩)
  | branch cond rs1 rs2 imm =>
    refine moves_modifyCpu h ?_ ?_ <;> split
    · exact ⟨rfl, Or.inl rfl, Or.inl rfl⟩
    · exact .refl s.cpu
    · exact .jump s.cpu.regs (s.cpu.pc + imm) (Or.inl ⟨imm, rfl, rfl⟩)
    · exact effect_refl _ _
  | load kind rd rs1 imm =>
    refine moves_get (moves_bind h (keeps_load h.both.toReadFrame _ _) fun v _ => ?_)
    exact moves_setReg h rd _
  | store kind rs1 rs2 imm => exact moves_get (moves_keeps h (keeps_store h.both _ _ _))
  | fence =>
    have := h.both.toIsPreorder
    exact moves_keeps h (keeps_pure ())
  | fenceI => exact moves_modifyCpu h ⟨rfl, Or.inr rfl, Or.inl rfl⟩ (effect_refl _ _)
  | ecall | ebreak => exact moves_throw _
  | csr kind rd rs1 addr =>
    exact moves_putCpu h fun d hd => ⟨.csr (execCsr_result hd), effect_csr (execCsr_result hd)⟩
  | mret => exact moves_putCpu h fun _ => effect_mret
  | sret => exact moves_putCpu h fun _ => effect_sret
  | wfi =>
    refine moves_ite (fun _ => moves_throw _) fun _ => ?_
    exact moves_modifyCpu h ⟨rfl, Or.inl rfl, Or.inl rfl⟩ .wait
  | sfenceVma rs1 rs2 =>
    refine moves_ite (fun _ => moves_throw _) fun _ => ?_
    exact moves_modifyCpu h ⟨rfl, Or.inl rfl, Or.inr rfl⟩ (effect_refl _ _)
  | lr width rd rs1 => exact moves_execLr h width rd rs1
  | sc width rd rs1 rs2 => exact moves_execSc h width rd rs1 rs2
  | amo kind width rd rs1 rs2 => exact moves_execAmo h kind width rd rs1 rs2
  | fpLoad sz frd rs1 imm => exact moves_whenOn fun hon => moves_fpLoad h hon sz frd rs1 imm
  | fpStore sz rs1 frs2 imm => exact moves_whenOn fun _ => moves_fpStore h sz rs1 frs2 imm
  | fp kind sz rd rs1 rs2 rs3 rm =>
    exact moves_whenOn fun hon => moves_fp h hon raw kind sz rd rs1 rs2 rs3 rm

theorem keeps_execute (raw : U32) (op : Op) : Keeps R (execute raw op) := by
  intro s
  have := h.toIsPreorder
  have hmoves := (moves_execute h raw op : Moves R op s s _) ⟨refl_of R s, rfl⟩
  cases hr : execute raw op s with
  | ok _ t => exact ((post_ok hr).mp hmoves).1
  | error e t => exact ((post_error hr).mp hmoves).1

omit h in
theorem outcome_execute {a : Arch} (raw : U32) (op : Op) :
    Outcome op a (execute raw op : Hart β Unit) := by
  rintro s rfl
  have hany : ExecFrame fun _ _ : Sys β => True :=
    { refl := fun _ => trivial, trans := fun _ _ _ _ _ => trivial, read := fun _ _ _ _ => trivial
      mmu := fun _ _ _ _ => trivial, write := fun _ _ _ _ _ => trivial
      release := fun _ => trivial, cpu := fun _ _ _ => trivial }
  exact (moves_execute hany raw op ⟨trivial, rfl⟩).mono (fun _ _ ht => ht.2) fun _ _ ht => ht.2

end

end Execute

/-! ## The bus along a step -/

namespace Hart

open Execute (keeps_execute)

variable {β : Type} [BlockBackend β] {R : Sys β → Sys β → Prop}

/-- `R` speaks of the bus only. -/
structure BusFrame (R : Sys β → Sys β → Prop) : Prop extends WriteFrame R where
  cpu : ∀ s cpu, R s { s with cpu := cpu }

namespace BusFrame

/-- A preorder on buses that every access keeps. -/
theorem of_bus {R : Bus β → Bus β → Prop} [IsPreorder (Bus β) R]
    (hread : ∀ addr size, Keeps R (Bus.read addr size))
    (hwrite : ∀ addr val size, Keeps R (Bus.write addr val size))
    (hnote : ∀ addr bus, R bus (Bus.noteMark addr bus)) :
    BusFrame fun s t : Sys β => R s.bus t.bus where
  refl s := refl_of R s.bus
  trans _ _ _ := trans_of R
  read _ pa size := keeps_zoom (hread pa size) fun _ _ h => h
  mmu satp p va := keeps_zoom (Mmu.keeps_translate hread hwrite hnote satp p va) fun _ _ h => h
  write _ pa val size := keeps_zoom (hwrite pa val size) fun _ _ h => h
  release s := refl_of R s.bus
  cpu s _ := refl_of R s.bus

theorem toExecFrame (h : BusFrame R) : ExecFrame R :=
  { h.toWriteFrame with cpu := fun s cpu _ => h.cpu s cpu }

theorem toFetchFrame (h : BusFrame R) : FetchFrame R :=
  { h.toReadFrame with
    memo := fun s _ => h.cpu s _
    cache := fun s _ => h.cpu s _ }

variable [ApFloat]

theorem keeps_run (h : BusFrame R) (f : Fetched) (pc : U64) : Keeps R (run f pc) := by
  have := h.toIsPreorder
  refine keeps_bind (keeps_modify fun s => h.cpu s _) fun _ => ?_
  refine keeps_bind (keeps_execute h.toExecFrame f.raw f.inst.op) fun _ => ?_
  refine keeps_bind (keeps_modify fun s => h.cpu s _) fun _ => keeps_modify fun s => ?_
  unfold finish
  cases f.location with
  | none => exact refl_of R s
  | some location => exact h.cpu s _

theorem keeps_stepInner (h : BusFrame R) : Keeps R stepInner := by
  have := h.toIsPreorder
  refine keeps_bind keeps_get fun s => ?_
  exact keeps_bind (keeps_fetch h.toFetchFrame _) fun f => h.keeps_run f _

theorem stepAwake (h : BusFrame R) (s : Sys β) : R s s.stepAwake := by
  have := h.toIsPreorder
  have hinner := h.keeps_stepInner s
  unfold Sys.stepAwake
  cases hr : stepInner s with
  | ok _ t | error e t =>
    rw [hr] at hinner
    exact trans_of R hinner (h.cpu t _)

/-- A step of the hart moves the bus along `R`. -/
theorem step (h : BusFrame R) (s : Sys β) : R s s.step.2 := by
  have := h.toIsPreorder
  unfold Sys.step
  split
  · split
    · exact trans_of R (h.cpu s _) (h.stepAwake _)
    · exact refl_of R s
  · exact h.stepAwake s

end BusFrame

end Hart

end EmulateComputer
