import EmulateComputer.Devices.Platform

/-!
# RtcAlarm — how often a Goldfish alarm fires

An alarm that has fired stays armed: acknowledging it with `CLEAR_INTERRUPT` clears the pending
flag only, and the next update of the clock finds the same alarm due and raises the interrupt
again.  After its acknowledgement the alarm is silent in every run whose updates of the clock find
it disarmed, which `CLEAR_ALARM` does, or not yet due.
-/

namespace EmulateComputer

namespace GoldfishRtc

/-- A register write of the guest, or a clock update of the host. -/
inductive Op
  | write (offset value : U64) (size : Nat)
  | setTimeNs (timeNs : U64)
  | advanceMtimeTicks (ticks : U64)

def apply (rtc : GoldfishRtc) : Op → GoldfishRtc
  | .write offset value size => (write offset value size rtc).state
  | .setTimeNs timeNs => rtc.setTimeNs timeNs
  | .advanceMtimeTicks ticks => rtc.advanceMtimeTicks ticks

def run (rtc : GoldfishRtc) (ops : List Op) : GoldfishRtc :=
  ops.foldl apply rtc

def ack (value : U64) : Op :=
  .write CLEAR_INTERRUPT value 4

def Op.programsAlarm : Op → Bool
  | .write offset _ size => offset = ALARM_LOW && size = 4
  | _ => false

/-- The alarm is armed and has fired. -/
def Fired (rtc : GoldfishRtc) : Prop :=
  rtc.alarmArmed = true ∧ rtc.interruptPending = true

instance (rtc : GoldfishRtc) : Decidable rtc.Fired :=
  inferInstanceAs (Decidable (_ ∧ _))

/-- The alarm fires in `before`, the guest acknowledges it, and until it programs the alarm again
the interrupt line stays low at every point of `after`. -/
def OneShot (before between after : List Op) (value : U64) : Prop :=
  Fired (run new before) → (∀ op ∈ between ++ after, op.programsAlarm = false) →
    ∀ done, done <+: after → (run new (before ++ between ++ ack value :: done)).irqPending = false

/-- The clock an operation sets, if it re-evaluates the alarm. -/
def clockOf (rtc : GoldfishRtc) : Op → Option U64
  | .write offset value size =>
    if offset = TIME_LOW ∧ size = 4 then
      some ((rtc.timeNs &&& ~~~0xFFFFFFFF) ||| low32 value)
    else none
  | .setTimeNs timeNs => some timeNs
  | .advanceMtimeTicks ticks => some (rtc.timeNs + ticks * NS_PER_MTIME_TICK)

/-- An operation that re-evaluates the alarm finds it disarmed or not yet due. -/
def Quiet (rtc : GoldfishRtc) (op : Op) : Prop :=
  ∀ clock, rtc.clockOf op = some clock → rtc.alarmArmed = false ∨ clock < rtc.alarmNs

instance (rtc : GoldfishRtc) (op : Op) : Decidable (rtc.Quiet op) :=
  match h : rtc.clockOf op with
  | none => isTrue fun clock hclock => by rw [h] at hclock; cases hclock
  | some clock =>
    decidable_of_iff (rtc.alarmArmed = false ∨ clock < rtc.alarmNs)
      ⟨fun hq c hc => by rw [h] at hc; cases hc; exact hq, fun hq => hq clock h⟩

/-- Every operation of a run is quiet in the state in which it happens. -/
def QuietRun (rtc : GoldfishRtc) : List Op → Prop
  | [] => True
  | op :: ops => rtc.Quiet op ∧ QuietRun (rtc.apply op) ops

instance decidableQuietRun : ∀ (rtc : GoldfishRtc) (ops : List Op), Decidable (rtc.QuietRun ops)
  | _, [] => isTrue trivial
  | rtc, op :: ops =>
    have := decidableQuietRun (rtc.apply op) ops
    inferInstanceAs (Decidable (_ ∧ _))

/-! ## What one operation does to the pending flag -/

variable {rtc : GoldfishRtc}

section

variable (hpending : rtc.interruptPending = false)

include hpending

/-- Re-evaluating raises the flag only when the alarm is armed and due. -/
theorem interruptPending_updateAlarm (hquiet : rtc.alarmArmed = false ∨ rtc.timeNs < rtc.alarmNs) :
    rtc.updateAlarm.interruptPending = false := by
  have hnot : ¬ (rtc.alarmArmed = true ∧ rtc.alarmNs ≤ rtc.timeNs) := by
    rintro ⟨harmed, hdue⟩
    rcases hquiet with hoff | hearly
    · exact Bool.noConfusion (hoff.symm.trans harmed)
    · exact absurd hearly (BitVec.not_lt.mpr hdue)
  rw [updateAlarm, if_neg hnot]
  exact hpending

/-- A register store that does not program the alarm never raises the flag. -/
theorem interruptPending_stored (offset value : U64) :
    (rtc.stored offset value).interruptPending = false := by
  unfold stored
  split_ifs <;> first
    | exact hpending
    | rfl

/-- A quiet operation that does not program the alarm leaves the flag down. -/
theorem interruptPending_apply {op : Op} (hop : op.programsAlarm = false) (hquiet : rtc.Quiet op) :
    (rtc.apply op).interruptPending = false := by
  cases op with
  | setTimeNs timeNs => exact interruptPending_updateAlarm hpending (hquiet timeNs rfl)
  | advanceMtimeTicks ticks => exact interruptPending_updateAlarm hpending (hquiet _ rfl)
  | write offset value size =>
    simp only [apply, write]
    by_cases hsize : size = 4
    · subst hsize
      cases hupdates : updatesAlarm offset with
      | none => exact hpending
      | some updates =>
        cases updates with
        | false => exact interruptPending_stored hpending offset (low32 value)
        | true =>
          -- Only the low halves re-evaluate, and the alarm's is excluded.
          have hoffset : offset = TIME_LOW := by
            unfold updatesAlarm at hupdates
            split_ifs at hupdates with hlow
            · rcases hlow with htime | halarm
              · exact htime
              · simp [Op.programsAlarm, halarm] at hop
            · cases hupdates
            · cases hupdates
          subst hoffset
          have hclock : rtc.clockOf (.write TIME_LOW value 4) =
              some (rtc.stored TIME_LOW (low32 value)).timeNs := by
            simp [clockOf, stored]
          exact interruptPending_updateAlarm hpending (hquiet _ hclock)
    · rw [if_pos hsize]
      exact hpending

end

/-! ## Runs -/

theorem run_append (rtc : GoldfishRtc) (ops ops' : List Op) :
    rtc.run (ops ++ ops') = (rtc.run ops).run ops' :=
  List.foldl_append

theorem interruptPending_run {ops : List Op} (hpending : rtc.interruptPending = false)
    (hops : ∀ op ∈ ops, op.programsAlarm = false) (hquiet : rtc.QuietRun ops) :
    (rtc.run ops).interruptPending = false := by
  induction ops generalizing rtc with
  | nil => exact hpending
  | cons op ops ih =>
    exact ih (interruptPending_apply hpending (hops op List.mem_cons_self) hquiet.1)
      (fun other hmem => hops other (List.mem_cons_of_mem _ hmem)) hquiet.2

/-- Quietness of a run is quietness of its beginnings. -/
theorem QuietRun.of_append {ops ops' : List Op} (h : rtc.QuietRun (ops ++ ops')) :
    rtc.QuietRun ops := by
  induction ops generalizing rtc with
  | nil => trivial
  | cons op ops ih => exact ⟨h.1, ih h.2⟩

/-- The alarm is set to 1000 ns and the interrupt enabled; ten ticks later it is due. -/
def firing : List Op :=
  [.write ALARM_HIGH 0 4, .write ALARM_LOW 1000 4, .write IRQ_ENABLED 1 4, .advanceMtimeTicks 10]

end GoldfishRtc

end EmulateComputer
