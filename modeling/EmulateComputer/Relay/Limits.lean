import Mathlib.Data.Rat.Floor
import EmulateComputer.Lib.Table

/-!
# Limits — flow slots and daily byte quotas per client address

The relay asks its `Limits` before it opens a flow and before it forwards a chunk.  `MemoryLimits`
keeps the counters in the process.  Its clock is read once per call, in seconds since the epoch, and
a window counts the bytes of one UTC day.

The bound on a day is about whole sequences of calls.  What a call does to the window of one address
and one day is said once, in `Ages`: it only grows, or the day is over.
-/

namespace EmulateComputer

structure LimitConfig where
  /-- Concurrent flows per IP; 0 disables. -/
  maxPerIp : Nat
  /-- Bytes per IP per UTC day; 0 disables. -/
  bytesPerDay : Nat

inductive RefusalReason
  | concurrency
  | quota
  deriving DecidableEq

/-- Why a handshake was refused, and when retrying might work. -/
structure Refusal where
  reason : RefusalReason
  retryAfterSeconds : Int
  deriving DecidableEq

/-- What `charge` gives back: its verdict, a promise of one, or an exception. -/
inductive ChargeAnswer
  | verdict (ok : Bool)
  | promised
  | thrown
  deriving DecidableEq

/-- The limiter as the relay sees it.  `admitIp` always answers through a promise; a store that has
decided when the call returns says so, for the others the settlement is an event of its own. -/
class Limits (L : Type) where
  admitIp : L → String → Option (Option Refusal) × L
  release : L → String → L
  charge : L → String → Nat → ChargeAnswer × L

/-- A limiter that refuses nobody and says by a script what becomes of each charge. -/
structure ChargeScript where
  answers : List ChargeAnswer

instance : Limits ChargeScript where
  admitIp s _ := (some none, s)
  release s _ := s
  charge s _ _ :=
    match s.answers with
    | [] => (.verdict true, s)
    | answer :: answers => (answer, ⟨answers⟩)

def DAY : Int := 86400

def utcDay (now : ℚ) : Int :=
  ⌊now / DAY⌋

theorem utcDay_mono {now later : ℚ} (h : now ≤ later) : utcDay now ≤ utcDay later := by
  have hday : (0 : ℚ) ≤ (DAY : ℚ) := by
    norm_num [DAY]
  exact Int.floor_le_floor (div_le_div_of_nonneg_right h hday)

/-- Seconds until the fixed window containing `nowSeconds` ends. -/
def untilWindowEnd (nowSeconds : ℚ) (span : Int) : Int :=
  max 1 (span - ⌊nowSeconds⌋.tmod span)

/-- Byte counter reset at UTC midnight. -/
structure DailyWindow where
  dayStart : Int := 0
  day : Nat := 0
  deriving DecidableEq

def DailyWindow.roll (now : ℚ) (w : DailyWindow) : DailyWindow :=
  let d := utcDay now
  if d ≠ w.dayStart then { dayStart := d, day := 0 } else w

@[simp]
theorem DailyWindow.dayStart_roll (now : ℚ) (w : DailyWindow) :
    (w.roll now).dayStart = utcDay now := by
  unfold DailyWindow.roll
  by_cases h : utcDay now = w.dayStart <;> simp [h]

theorem DailyWindow.day_roll (now : ℚ) (w : DailyWindow) :
    (w.roll now).day = if w.dayStart = utcDay now then w.day else 0 := by
  unfold DailyWindow.roll
  by_cases h : utcDay now = w.dayStart
  · simp [h]
  · simp [h, Ne.symm h]

structure MemoryLimits where
  cfg : LimitConfig
  live : Table String Nat
  windows : Table String DailyWindow

namespace MemoryLimits

def new (cfg : LimitConfig) : MemoryLimits :=
  { cfg, live := ∅, windows := ∅ }

def exhausted (ip : String) (now : ℚ) (m : MemoryLimits) : Option Refusal × MemoryLimits :=
  match m.windows.lookup ip with
  | none => (none, m)
  | some w =>
    let w := w.roll now
    let m := { m with windows := m.windows.insert ip w }
    if 0 < m.cfg.bytesPerDay ∧ m.cfg.bytesPerDay ≤ w.day then
      (some { reason := .quota, retryAfterSeconds := untilWindowEnd now DAY }, m)
    else (none, m)

def admitIp (ip : String) (now : ℚ) (m : MemoryLimits) : Option Refusal × MemoryLimits :=
  let live := (m.live.lookup ip).getD 0
  if 0 < m.cfg.maxPerIp ∧ m.cfg.maxPerIp ≤ live then
    (some { reason := .concurrency, retryAfterSeconds := 1 }, m)
  else
    match m.exhausted ip now with
    | (some refusal, m) => (some refusal, m)
    | (none, m) => (none, { m with live := m.live.insert ip (live + 1) })

def release (ip : String) (m : MemoryLimits) : MemoryLimits :=
  let live := (m.live.lookup ip).getD 0
  if live ≤ 1 then { m with live := m.live.erase ip }
  else { m with live := m.live.insert ip (live - 1) }

def count (ip : String) (n : Nat) (now : ℚ) (m : MemoryLimits) : MemoryLimits :=
  let w := ((m.windows.lookup ip).getD {}).roll now
  { m with windows := m.windows.insert ip { w with day := w.day + n } }

def charge (ip : String) (n : Nat) (now : ℚ) (m : MemoryLimits) : Bool × MemoryLimits :=
  let (refusal, m) := (m.count ip n now).exhausted ip now
  (refusal.isNone, m)

def sweepOne (now : ℚ) (m : MemoryLimits) (ip : String) : MemoryLimits :=
  match m.windows.lookup ip with
  | none => m
  | some w =>
    let w := w.roll now
    if w.day = 0 ∧ (m.live.lookup ip).isNone then { m with windows := m.windows.erase ip }
    else { m with windows := m.windows.insert ip w }

/-- Drop counters that can no longer refuse anything. -/
def sweep (now : ℚ) (m : MemoryLimits) : MemoryLimits :=
  m.windows.keys.foldl (sweepOne now) m

/-! ## Sequences of calls -/

inductive Call
  | admitIp (ip : String)
  | release (ip : String)
  | charge (ip : String) (n : Nat)
  | sweep
  deriving DecidableEq

def run (call : Call) (now : ℚ) (m : MemoryLimits) : MemoryLimits :=
  match call with
  | .admitIp ip => (m.admitIp ip now).2
  | .release ip => m.release ip
  | .charge ip n => (m.charge ip n now).2
  | .sweep => m.sweep now

/-- What one call adds to the approved bytes of `ip` on day `d`. -/
def grant (ip : String) (d : Int) (call : Call) (now : ℚ) (m : MemoryLimits) : Nat :=
  match call with
  | .charge ip' n => if ip' = ip ∧ utcDay now = d ∧ (m.charge ip' n now).1 then n else 0
  | _ => 0

/-- The approved bytes of `ip` on day `d` over a sequence of calls, each with its clock reading. -/
def approved (ip : String) (d : Int) : MemoryLimits → List (Call × ℚ) → Nat
  | _, [] => 0
  | m, (call, now) :: calls => m.grant ip d call now + approved ip d (m.run call now) calls

/-- What the window of `ip` has counted on day `d`. -/
def spent (ip : String) (d : Int) (m : MemoryLimits) : Nat :=
  match m.windows.lookup ip with
  | none => 0
  | some w => if w.dayStart = d then w.day else 0

/-! ### One call -/

/-- Every window has been rolled, at the latest on day `d`. -/
def RolledBy (d : Int) (m : MemoryLimits) : Prop :=
  ∀ ip w, m.windows.lookup ip = some w → w.dayStart ≤ d

/-- A step of the windows on the day of `now`: what is counted there does not shrink, unless the day
it was counted on is over. -/
structure Ages (now : ℚ) (m m' : MemoryLimits) : Prop where
  cfg : m'.cfg = m.cfg
  rolled : m'.RolledBy (utcDay now)
  spent : ∀ ip d, m.spent ip d ≤ m'.spent ip d ∨ d < utcDay now

section Steps

variable {m m' m'' : MemoryLimits} {now : ℚ} {ip : String} {w : DailyWindow}

theorem spent_of_lookup (hw : m.windows.lookup ip = some w) (d : Int) :
    m.spent ip d = if w.dayStart = d then w.day else 0 := by
  rw [spent, hw]

theorem Ages.refl (h : m.RolledBy (utcDay now)) : Ages now m m where
  cfg := rfl
  rolled := h
  spent := fun _ _ => .inl (Nat.le_refl _)

theorem Ages.trans (h : Ages now m m') (h' : Ages now m' m'') : Ages now m m'' where
  cfg := h'.cfg.trans h.cfg
  rolled := h'.rolled
  spent := by
    intro ip d
    rcases h.spent ip d with hle | hover
    · rcases h'.spent ip d with hle' | hover
      · exact .inl (Nat.le_trans hle hle')
      · exact .inr hover
    · exact .inr hover

theorem Ages.live (h : Ages now m m') (live : Table String Nat) : Ages now m { m' with live } where
  cfg := h.cfg
  rolled := h.rolled
  spent := h.spent

section

variable (h : m.RolledBy (utcDay now))

include h

/-- Writing back a window that has been rolled and has counted at least what was there. -/
theorem Ages.insert (hstart : w.dayStart = utcDay now) (hday : m.spent ip (utcDay now) ≤ w.day) :
    Ages now m { m with windows := m.windows.insert ip w } where
  cfg := rfl
  rolled := Table.forall_insert (fun ip' w' _ => h ip' w') hstart.le
  spent := by
    intro ip' d
    by_cases hip : ip' = ip
    · -- The window of `ip` now stands at today: a day other than today is over or untouched.
      subst hip
      rcases lt_trichotomy d (utcDay now) with hd | rfl | hd
      · exact .inr hd
      · refine .inl ?_
        have hlookup : (m.windows.insert ip' w).lookup ip' = some w := AList.lookup_insert _
        rw [spent_of_lookup (m := { m with windows := m.windows.insert ip' w }) hlookup,
          if_pos hstart]
        exact hday
      · refine .inl ?_
        have hzero : m.spent ip' d = 0 := by
          unfold MemoryLimits.spent
          cases hw : m.windows.lookup ip' with
          | none => rfl
          | some w' =>
            have hle := h ip' w' hw
            exact if_neg (by omega)
        rw [hzero]
        exact Nat.zero_le _
    · refine .inl (Nat.le_of_eq ?_)
      simp only [MemoryLimits.spent, Table.lookup_insert, if_neg hip]

theorem ages_exhausted (ip : String) : Ages now m (m.exhausted ip now).2 := by
  unfold exhausted
  cases hw : m.windows.lookup ip with
  | none => exact .refl h
  | some w =>
    have hstep : Ages now m { m with windows := m.windows.insert ip (w.roll now) } := by
      refine .insert h (DailyWindow.dayStart_roll now w) ?_
      rw [DailyWindow.day_roll, spent_of_lookup hw]
    dsimp only
    split <;> exact hstep

theorem ages_count (ip : String) (n : Nat) : Ages now m (m.count ip n now) := by
  refine .insert h (DailyWindow.dayStart_roll now _) ?_
  rw [DailyWindow.day_roll]
  cases hw : m.windows.lookup ip with
  | none =>
    rw [spent, hw]
    exact Nat.zero_le _
  | some w =>
    rw [spent_of_lookup hw]
    exact Nat.le_add_right _ _

theorem ages_charge (ip : String) (n : Nat) : Ages now m (m.charge ip n now).2 :=
  (ages_count h ip n).trans (ages_exhausted (ages_count h ip n).rolled ip)

theorem ages_admitIp (ip : String) : Ages now m (m.admitIp ip now).2 := by
  unfold admitIp
  dsimp only
  split
  · exact .refl h
  · have hover := ages_exhausted h ip
    revert hover
    rcases m.exhausted ip now with ⟨_ | refusal, m'⟩
    · intro hover
      exact hover.live _
    · exact fun hover => hover

theorem ages_release (ip : String) : Ages now m (m.release ip) := by
  unfold release
  dsimp only
  split
  · exact (Ages.refl h).live _
  · exact (Ages.refl h).live _

theorem ages_sweepOne (ip : String) : Ages now m (sweepOne now m ip) := by
  unfold sweepOne
  cases hw : m.windows.lookup ip with
  | none => exact .refl h
  | some w =>
    dsimp only
    split
    · next hzero =>
      -- A dropped window has counted nothing today, and its other days are over.
      refine ⟨rfl, Table.forall_erase h, ?_⟩
      · intro ip' d
        by_cases hip : ip' = ip
        · subst hip
          rw [spent_of_lookup hw]
          split
          · next hd =>
            rw [DailyWindow.day_roll] at hzero
            by_cases htoday : w.dayStart = utcDay now
            · rw [if_pos htoday] at hzero
              exact .inl (by omega)
            · have hle := h ip' w hw
              exact .inr (by omega)
          · exact .inl (Nat.zero_le _)
        · refine .inl (Nat.le_of_eq ?_)
          simp only [spent, Table.lookup_erase, if_neg hip]
    · refine .insert h (DailyWindow.dayStart_roll now w) ?_
      rw [DailyWindow.day_roll, spent_of_lookup hw]

theorem ages_sweep : Ages now m (m.sweep now) := by
  have hfold : ∀ (ips : List String) (m : MemoryLimits), m.RolledBy (utcDay now) →
      Ages now m (ips.foldl (sweepOne now) m) := by
    intro ips
    induction ips with
    | nil => exact fun m h => .refl h
    | cons ip ips ih =>
      intro m h
      have hone := ages_sweepOne h ip
      exact hone.trans (ih _ hone.rolled)
  exact hfold _ m h

theorem ages_run (call : Call) : Ages now m (m.run call now) := by
  cases call with
  | admitIp ip => exact ages_admitIp h ip
  | release ip => exact ages_release h ip
  | charge ip n => exact ages_charge h ip n
  | sweep => exact ages_sweep h

end

/-- An approved charge has been counted, and the count is below the limit. -/
theorem spent_charge (hpos : 0 < m.cfg.bytesPerDay) {n : Nat} (hok : (m.charge ip n now).1 = true) :
    (m.charge ip n now).2.spent ip (utcDay now) = m.spent ip (utcDay now) + n ∧
      (m.charge ip n now).2.spent ip (utcDay now) < m.cfg.bytesPerDay := by
  set w := ((m.windows.lookup ip).getD {}).roll now with hw
  have hlookup : (m.count ip n now).windows.lookup ip = some { w with day := w.day + n } := by
    rw [count, Table.lookup_insert, if_pos rfl]
  have hstart : w.dayStart = utcDay now := DailyWindow.dayStart_roll now _
  have hroll : ({ w with day := w.day + n } : DailyWindow).roll now =
      { w with day := w.day + n } := by
    unfold DailyWindow.roll
    simp [hstart]
  have hday : w.day = m.spent ip (utcDay now) := by
    rw [hw, DailyWindow.day_roll, spent]
    cases m.windows.lookup ip with
    | none => simp
    | some w => rfl
  -- The verdict is the comparison of the new count with the limit.
  unfold charge exhausted at hok ⊢
  rw [hlookup] at hok ⊢
  simp only [hroll] at hok ⊢
  have hcfg : (m.count ip n now).cfg = m.cfg := rfl
  rw [hcfg] at hok ⊢
  split at hok
  · cases hok
  · next hbelow =>
    rw [if_neg hbelow, spent_of_lookup (AList.lookup_insert _), if_pos hstart, ← hday]
    dsimp only
    exact ⟨rfl, by omega⟩

end Steps

/-! ### Slots -/

theorem live_exhausted (m : MemoryLimits) (ip : String) (now : ℚ) :
    (m.exhausted ip now).2.live = m.live ∧ (m.exhausted ip now).2.cfg = m.cfg := by
  unfold exhausted
  split
  · exact ⟨rfl, rfl⟩
  · dsimp only
    split <;> exact ⟨rfl, rfl⟩

/-- A refusal leaves the slots alone; a grant takes one, below the limit if there is one. -/
theorem admitIp_cases (m : MemoryLimits) (ip : String) (now : ℚ) :
    (m.admitIp ip now).2.cfg = m.cfg ∧
      ((m.admitIp ip now).1 ≠ none ∧ (m.admitIp ip now).2.live = m.live ∨
        (m.admitIp ip now).1 = none ∧
          (0 < m.cfg.maxPerIp → (m.live.lookup ip).getD 0 + 1 ≤ m.cfg.maxPerIp) ∧
          (m.admitIp ip now).2.live = m.live.insert ip ((m.live.lookup ip).getD 0 + 1)) := by
  unfold admitIp
  dsimp only
  split
  · exact ⟨rfl, .inl ⟨nofun, rfl⟩⟩
  · next hroom =>
    obtain ⟨hlive, hcfg⟩ := m.live_exhausted ip now
    revert hlive hcfg
    rcases m.exhausted ip now with ⟨_ | refusal, m'⟩
    · intro hlive hcfg
      refine ⟨hcfg, .inr ⟨rfl, fun hpos => by omega, ?_⟩⟩
      change m'.live.insert ip _ = _
      rw [hlive]
    · intro hlive hcfg
      exact ⟨hcfg, .inl ⟨nofun, hlive⟩⟩

/-! ### Whole sequences -/

/-- On a day that is over nothing more is approved. -/
theorem approved_eq_zero (ip : String) (d : Int) :
    ∀ (calls : List (Call × ℚ)) (m : MemoryLimits), (∀ call ∈ calls, d < utcDay call.2) →
      approved ip d m calls = 0
  | [], _, _ => rfl
  | (call, now) :: calls, m, h => by
    have hnow : d < utcDay now := h _ List.mem_cons_self
    have hgrant : m.grant ip d call now = 0 := by
      cases call with
      | charge ip' n => exact if_neg fun hday => by omega
      | admitIp _ => rfl
      | release _ => rfl
      | sweep => rfl
    rw [approved, hgrant, approved_eq_zero ip d calls _ fun c hc => h c (List.mem_cons_of_mem _ hc)]

/-- What is approved from here on fits into what the window has left. -/
theorem approved_add_spent_lt (ip : String) (d : Int) :
    ∀ (calls : List (Call × ℚ)) (m : MemoryLimits) (today : Int), 0 < m.cfg.bytesPerDay →
      m.RolledBy today → (∀ call ∈ calls, today ≤ utcDay call.2) →
      calls.Pairwise (fun a b => a.2 ≤ b.2) →
      approved ip d m calls = 0 ∨ approved ip d m calls + m.spent ip d < m.cfg.bytesPerDay
  | [], _, _, _, _, _, _ => .inl rfl
  | (call, now) :: calls, m, today, hpos, hrolled, hlater, hsorted => by
    obtain ⟨hnext, hsorted⟩ := List.pairwise_cons.1 hsorted
    have hnow : m.RolledBy (utcDay now) := fun ip' w hw =>
      (hrolled ip' w hw).trans (hlater _ List.mem_cons_self)
    have hstep := ages_run hnow call
    have hrest := approved_add_spent_lt ip d calls (m.run call now) (utcDay now)
      (by rw [hstep.cfg]; exact hpos) hstep.rolled
      (fun c hc => utcDay_mono (hnext c hc)) hsorted
    rw [hstep.cfg] at hrest
    rw [approved]
    by_cases hgrant : m.grant ip d call now = 0
    · rw [hgrant, Nat.zero_add]
      rcases hrest with hzero | hlt
      · exact .inl hzero
      · rcases hstep.spent ip d with hle | hover
        · exact .inr (by omega)
        · refine .inl (approved_eq_zero ip d calls _ fun c hc => ?_)
          exact lt_of_lt_of_le hover (utcDay_mono (hnext c hc))
    · -- Only an approved charge of this address on this day grants anything.
      cases call with
      | charge ip' n =>
        unfold grant at hgrant ⊢
        dsimp only at hgrant ⊢
        split at hgrant
        · next hok =>
          obtain ⟨rfl, rfl, hok⟩ := hok
          obtain ⟨hspent, hlt⟩ := spent_charge hpos hok
          rw [if_pos ⟨rfl, rfl, hok⟩]
          refine .inr ?_
          rcases hrest with hzero | hsum
          · omega
          · have hrun : m.run (.charge ip' n) now = (m.charge ip' n now).2 := rfl
            rw [hrun] at hsum ⊢
            omega
        · exact absurd rfl hgrant
      | admitIp _ | release _ | sweep => exact absurd rfl hgrant

/-- With a quota and a clock that never goes backwards, what is approved for one address on one day
stays below the quota. -/
theorem approved_lt (cfg : LimitConfig) (hpos : 0 < cfg.bytesPerDay) (calls : List (Call × ℚ))
    (hsorted : calls.Pairwise (fun a b => a.2 ≤ b.2)) (ip : String) (d : Int) :
    approved ip d (new cfg) calls < cfg.bytesPerDay := by
  cases calls with
  | nil => exact hpos
  | cons call calls =>
    have hlater : ∀ c ∈ call :: calls, utcDay call.2 ≤ utcDay c.2 := by
      intro c hc
      rcases List.mem_cons.1 hc with rfl | hc
      · exact le_refl _
      · exact utcDay_mono ((List.pairwise_cons.1 hsorted).1 c hc)
    have hempty : (new cfg).RolledBy (utcDay call.2) := fun ip w hw => by cases hw
    rcases approved_add_spent_lt ip d _ (new cfg) _ hpos hempty hlater hsorted
      with hzero | hlt
    · rw [hzero]
      exact hpos
    · exact Nat.lt_of_le_of_lt (Nat.le_add_right _ _) hlt

end MemoryLimits

/-! ## As the limiter of a relay -/

/-- The limits in memory with the clock they read, which gives one reading per call. -/
structure MemoryStore where
  limits : MemoryLimits
  clock : Nat → ℚ
  calls : Nat := 0

/-- The bodies run when they are called; only the answers of `admitIp` come through a promise. -/
instance : Limits MemoryStore where
  admitIp s ip :=
    let (refusal, limits) := s.limits.admitIp ip (s.clock s.calls)
    (some refusal, { s with limits, calls := s.calls + 1 })
  release s ip := { s with limits := s.limits.release ip }
  charge s ip n :=
    let (ok, limits) := s.limits.charge ip n (s.clock s.calls)
    (.verdict ok, { s with limits, calls := s.calls + 1 })

/-- A limiter that logs the address of every slot it grants at once and of every one it gets
back. -/
structure LoggedLimits (L : Type) where
  store : L
  granted : List String := []
  returned : List String := []

instance {L : Type} [Limits L] : Limits (LoggedLimits L) where
  admitIp l ip :=
    ((Limits.admitIp l.store ip).1,
      { l with
        store := (Limits.admitIp l.store ip).2
        granted := l.granted ++ if (Limits.admitIp l.store ip).1 = some none then [ip] else [] })
  release l ip := { l with store := Limits.release l.store ip, returned := l.returned ++ [ip] }
  charge l ip n :=
    ((Limits.charge l.store ip n).1, { l with store := (Limits.charge l.store ip n).2 })

end EmulateComputer
