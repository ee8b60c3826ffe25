import EmulateComputer.Cpu.WellDecoded

/-!
# Effects — what one step can do to the architectural state

`StepEffect` lists everything a step can do.  Invariants of the hart are proved by cases on it and
on `ExecEffect`, and never unfold the executor.
-/

namespace EmulateComputer

open Csr Effect

/-- Everything a step can do.  `P` is what is known of a fetched instruction, `T` of an exception
taken. -/
inductive StepEffect (P : Fetched → Prop) (T : Exception → Prop) (cpu cpu' : Cpu) : Prop
  /-- The hart waits for an interrupt. -/
  | waiting (h : cpu' = cpu)
  /-- The fetch or the instruction failed, and its exception was taken. -/
  | trapped (c : Cpu) (e : Exception) (he : T e)
      (hc : c.arch = { cpu.arch with nextPc := c.nextPc, wfi := false })
      (h : cpu'.arch = (Sys.tickCycle (c.takeException e)).arch)
  /-- An instruction completed. -/
  | retired (f : Fetched) (c d : Cpu) (hf : P f)
      (hc : c.arch = { cpu.arch with nextPc := cpu.pc + f.inst.len, wfi := false })
      (hd : ExecEffect f.inst.op c.arch d.arch)
      (h : cpu'.arch = (Sys.tickCycle (Hart.retire d f.inst.op)).arch)

namespace Hart

/-- Of the CSR file only the counter of retired instructions may move. -/
theorem csr_retire (c : Cpu) (op : Op) : ∃ n, (retire c op).csr = { c.csr with instret := n } := by
  unfold retire
  dsimp only
  split
  · exact ⟨_, rfl⟩
  · exact ⟨c.csr.instret, rfl⟩

variable {β : Type}

theorem arch_finish (f : Fetched) (pc : U64) (s : Sys β) :
    (finish f pc s).cpu.arch = s.cpu.arch := by
  unfold finish
  cases f.location with
  | none => rfl
  | some location => rfl

variable [BlockBackend β] [ApFloat] {P : Fetched → Prop}

/-- What `run` leaves, from a state with the architectural state `a`. -/
def RunPost (P : Fetched → Prop) (a : Arch) (t : Sys β) : Prop :=
  ∃ f, ∃ c d : Cpu, P f ∧ c.arch = { a with nextPc := a.pc + f.inst.len } ∧
    ExecEffect f.inst.op c.arch d.arch ∧ t.cpu.arch = (retire d f.inst.op).arch

/-- Only `nextPc` may have moved when an attempt fails. -/
def FailPost (a : Arch) (t : Sys β) : Prop :=
  t.cpu.arch = { a with nextPc := t.cpu.nextPc }

theorem post_run {f : Fetched} (hf : P f) (pc : U64) (s : Sys β) :
    Post (run f pc) s (fun _ t => RunPost P s.cpu.arch t) fun _ t => FailPost s.cpu.arch t := by
  have hexec := Execute.outcome_execute f.raw f.inst.op
    { s with cpu := { s.cpu with nextPc := s.cpu.pc + f.inst.len } } rfl
  refine post_bind (post_bind (hexec.mono (fun _ t ht => ?_) fun _ t ht => ?_))
  · exact ⟨f, _, t.cpu, hf, rfl, ht, arch_finish f pc _⟩
  · change t.cpu.arch = { s.cpu.arch with nextPc := t.cpu.arch.nextPc }
    rw [ht]
    rfl

/-- An attempt fails with only `nextPc` changed, or completes a fetched instruction. -/
theorem post_stepInner (s : Sys β) (hP : Post (fetch s.cpu.pc) s (fun f _ => P f) fun _ _ => True) :
    Post stepInner s (fun _ t => RunPost P s.cpu.arch t) fun _ t => FailPost s.cpu.arch t := by
  have hkeep := keeps_fetch fetchFrame_sameArch s.cpu.pc s
  change Post (fetch s.cpu.pc >>= fun f => run f s.cpu.pc) s _ _
  cases hr : fetch s.cpu.pc s with
  | ok f t =>
    rw [hr] at hkeep
    have hsame : t.cpu.arch = s.cpu.arch := hkeep
    have hrun := post_run ((post_ok hr).mp hP) s.cpu.pc t
    rw [hsame] at hrun
    exact post_bind ((post_ok hr).mpr hrun)
  | error e t =>
    rw [hr] at hkeep
    have hsame : t.cpu.arch = s.cpu.arch := hkeep
    refine post_bind ((post_error hr).mpr ?_)
    change t.cpu.arch = { s.cpu.arch with nextPc := t.cpu.arch.nextPc }
    rw [hsame]

end Hart

namespace Sys

theorem arch_tickCycle {c d : Cpu} (h : c.arch = d.arch) :
    (tickCycle c).arch = (tickCycle d).arch := by
  have hregs : c.regs = d.regs := congrArg Arch.regs h
  have hfregs : c.fregs = d.fregs := congrArg Arch.fregs h
  have hpc : c.pc = d.pc := congrArg Arch.pc h
  have hnext : c.nextPc = d.nextPc := congrArg Arch.nextPc h
  have hmode : c.mode = d.mode := congrArg Arch.mode h
  have hcsr : c.csr = d.csr := congrArg Arch.csr h
  have hwfi : c.wfi = d.wfi := congrArg Arch.wfi h
  simp only [Cpu.arch, tickCycle, hregs, hfregs, hpc, hnext, hmode, hcsr, hwfi]

/-- Of the CSR file only the cycle counter may move. -/
theorem csr_tickCycle (c : Cpu) : ∃ n, (tickCycle c).csr = { c.csr with cycle := n } := by
  unfold tickCycle
  split
  · exact ⟨_, rfl⟩
  · exact ⟨c.csr.cycle, rfl⟩

/-- The end of a step that retired an instruction, in terms of the instruction. -/
theorem retired_end {cpu' d : Cpu} {op : Op} (h : cpu'.arch = (tickCycle (Hart.retire d op)).arch) :
    cpu'.mode = d.mode ∧
      ∃ cycle instret, cpu'.csr = { d.csr with cycle := cycle, instret := instret } := by
  obtain ⟨cycle, hcycle⟩ := csr_tickCycle (Hart.retire d op)
  obtain ⟨instret, hinstret⟩ := Hart.csr_retire d op
  have hcsr : cpu'.csr = (tickCycle (Hart.retire d op)).csr := congrArg Arch.csr h
  refine ⟨congrArg Arch.mode h, cycle, instret, ?_⟩
  rw [hcsr, hcycle, hinstret]

variable {β : Type}

def awake (s : Sys β) : Sys β :=
  { s with cpu := { s.cpu with wfi := false } }

theorem awake_eq {s : Sys β} (h : s.cpu.wfi = false) : s.awake = s := by
  obtain ⟨cpu, bus⟩ := s
  obtain ⟨regs, fregs, pc, nextPc, mode, csr, mmu, cache, memo, reservation, wfi⟩ := cpu
  cases h
  rfl

variable [BlockBackend β] [ApFloat] {P : Fetched → Prop}

/-- The attempt fails, so that the step enters the trap of `e`. -/
def Raises (s : Sys β) (e : Exception) : Prop :=
  ∃ t, Hart.stepInner s.awake = .error e t

/-- A hart that waits and is not woken stays as it is; every other one attempts an instruction. -/
theorem step_cases (s : Sys β) : s.step.2 = s ∨ s.step.2 = s.awake.stepAwake := by
  unfold step
  by_cases hwfi : s.cpu.wfi = true
  · rw [if_pos hwfi]
    split
    · exact Or.inr rfl
    · exact Or.inl rfl
  · rw [if_neg hwfi, awake_eq (by simpa using hwfi)]
    exact Or.inr rfl

/-- Everything a step can do to the architectural state. -/
theorem step_effect (s : Sys β)
    (hP : Post (Hart.fetch s.cpu.pc) s.awake (fun f _ => P f) fun _ _ => True) :
    StepEffect P s.Raises s.cpu s.step.2.cpu := by
  rcases s.step_cases with hsame | hattempt
  · exact .waiting (congrArg Sys.cpu hsame)
  · rw [hattempt]
    have hpost := Hart.post_stepInner s.awake hP
    unfold stepAwake
    cases hr : Hart.stepInner s.awake with
    | ok _ t =>
      obtain ⟨f, c, d, hf, hc, hd, ht⟩ := (post_ok hr).mp hpost
      exact .retired f c d hf hc hd (arch_tickCycle ht)
    | error e t => exact .trapped t.cpu e ⟨t, hr⟩ ((post_error hr).mp hpost) rfl

/-- The same where nothing needs to be known of the fetched instruction. -/
theorem step_effect_any (s : Sys β) : StepEffect (fun _ => True) s.Raises s.cpu s.step.2.cpu := by
  refine step_effect s ?_
  unfold Post
  split <;> trivial

end Sys

end EmulateComputer
