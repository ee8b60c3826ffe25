import EmulateComputer.Bus.Refusals
import EmulateComputer.Cpu.Execute

/-!
# StoreConditional — when SC raises an access fault

An SC whose reservation does not match writes nothing, and still has to raise the access fault its
write would raise.  It asks `writeAccessible`, which knows the regions and not what their devices
accept; so it passes over the words a device refuses.
-/

namespace EmulateComputer

open Effect

namespace Execute

open Hart

variable {β : Type} [BlockBackend β] {width : AmoWidth} {rd rs1 rs2 : Reg} {s t : Sys β} {pa : U64}

theorem amoSize_eq (width : AmoWidth) : amoSize width = 4 ∨ amoSize width = 8 := by
  cases width with
  | w => exact .inl rfl
  | d => exact .inr rfl

/-- An SC faults when the static check fails, and with a matching reservation when its write
does. -/
theorem execSc_fault_iff
    (htranslate : translateAmo (s.cpu.reg rs1) (amoSize width) true s = .ok pa t) :
    (∃ u, execSc width rd rs1 rs2 s = .error (.storeAccessFault (s.cpu.reg rs1)) u) ↔
      t.bus.writeAccessible pa (amoSize width) = false ∨
        s.cpu.reservation = some pa ∧
          fails (Bus.write pa (s.cpu.reg rs2) (amoSize width)) t.bus = true := by
  unfold execSc
  rw [run_bind, run_get]
  dsimp only
  rw [run_bind_ok htranslate, run_bind, run_get]
  dsimp only
  by_cases haccess : t.bus.writeAccessible pa (amoSize width) = true
  · rw [if_neg (not_not.2 haccess), haccess, run_bind]
    by_cases hmatch : s.cpu.reservation = some pa
    · simp only [modifyCpu, run_modify, hmatch, if_true, true_and, Bool.true_eq_false,
        false_or]
      rw [run_bind]
      unfold onBus zoom fails
      cases Bus.write pa (s.cpu.reg rs2) (amoSize width) t.bus with
      | ok a u | error e u => simp
    · simp [modifyCpu, hmatch]
  · simp [haccess]

/-- An SC whose address translates faults exactly when its write would fail, unless a device
refuses the word and the reservation does not match. -/
theorem sc_fault_agrees_iff (width : AmoWidth) (rd rs1 rs2 : Reg) (s t : Sys β) (pa : U64)
    (htranslate : translateAmo (s.cpu.reg rs1) (amoSize width) true s = .ok pa t)
    (haligned : pa.toNat % amoSize width = 0) :
    ((∃ u, execSc width rd rs1 rs2 s = .error (.storeAccessFault (s.cpu.reg rs1)) u) ↔
        fails (Bus.write pa (s.cpu.reg rs2) (amoSize width)) t.bus = true) ↔
      s.cpu.reservation = some pa ∨ ¬ Bus.Refused pa (s.cpu.reg rs2) (amoSize width) := by
  have hfails : fails (Bus.write pa (s.cpu.reg rs2) (amoSize width)) t.bus = true ↔
      t.bus.writeAccessible pa (amoSize width) = false ∨
        Bus.Refused pa (s.cpu.reg rs2) (amoSize width) :=
    Bus.fails_write_iff (amoSize_eq width) haligned _
  have haccess : Bus.Refused pa (s.cpu.reg rs2) (amoSize width) →
      t.bus.writeAccessible pa (amoSize width) = true :=
    Bus.writeAccessible_of_refused (by cases width <;> decide) (by cases width <;> decide)
  rw [execSc_fault_iff htranslate, hfails]
  by_cases hmatch : s.cpu.reservation = some pa
  · simp [hmatch]
  · simp only [hmatch, false_and, or_false, false_or]
    constructor
    · intro hagree hrefused
      have hno := hagree.2 (.inr hrefused)
      rw [haccess hrefused] at hno
      cases hno
    · intro hnot
      exact ⟨.inl, fun h => h.resolve_right hnot⟩

/-- A hart in machine mode with the address of the entropy device in `x1`. -/
def atEntropyDevice : Sys MemBackend :=
  { cpu := Cpu.new.setReg 1 Region.virtioRng.base
    bus := Bus.new 16 (by decide) }

/-- A word of four bytes, which the device takes. -/
theorem sc_fault_agrees_iff_word :
    Region.virtioRng.base.toNat % 4 = 0 ∧
    ((∃ u, execSc .w 2 1 3 atEntropyDevice =
        .error (.storeAccessFault (atEntropyDevice.cpu.reg 1)) u) ↔
      fails (Bus.write Region.virtioRng.base (atEntropyDevice.cpu.reg 3) 4) atEntropyDevice.bus =
        true) := by
  refine ⟨by decide, ?_⟩
  refine (sc_fault_agrees_iff .w 2 1 3 atEntropyDevice atEntropyDevice Region.virtioRng.base rfl
    (by decide)).2 (.inr ?_)
  rintro ⟨r, hr, -, hrefuses⟩
  have hregion : Region.ofAddr Region.virtioRng.base = some .virtioRng := by decide
  cases hregion.symm.trans hr
  exact absurd hrefuses (by decide)

/-- A word of eight bytes, which it refuses: the SC fails without a fault. -/
theorem sc_no_fault_entropyDevice :
    ¬ (∃ u, execSc .d 2 1 3 atEntropyDevice =
      .error (.storeAccessFault (atEntropyDevice.cpu.reg 1)) u) ∧
    fails (Bus.write Region.virtioRng.base (atEntropyDevice.cpu.reg 3) 8) atEntropyDevice.bus =
      true := by
  refine ⟨fun hfault => ?_, by decide +kernel⟩
  have htranslate : translateAmo (atEntropyDevice.cpu.reg 1) (amoSize .d) true atEntropyDevice =
      .ok Region.virtioRng.base atEntropyDevice := rfl
  rcases (execSc_fault_iff htranslate).1 hfault with haccess | ⟨hmatch, -⟩
  · exact absurd haccess (by decide)
  · cases hmatch

end Execute

end EmulateComputer
