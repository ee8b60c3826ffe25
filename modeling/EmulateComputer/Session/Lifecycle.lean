import Mathlib.Data.List.Perm.Basic
import EmulateComputer.Session.Queue

/-!
# Lifecycle — one machine, and the last request decides

What holds in every session that requests and settling promises can lead to:

* `Balanced`: the machines created are those destroyed and the one held, and at no point of the
  log is more than one of them alive;
* `Turn`: where the newest request stands.  It waits, it runs, or it is over and the session has
  its outcome (`Outcome`).  An older operation that still runs changes neither state nor machine.

The newest operation is the last one of the promise chain, so both facts are kept by looking at
one job at a time.
-/

namespace EmulateComputer

namespace Session

variable {M B E : Type} {s t : Session M B E} {await : Await M B E}

/-! ## Small facts -/

@[simp] theorem release_current : s.release.current = none := by
  unfold release
  split <;> simp_all

@[simp] theorem release_phase : s.release.phase = s.phase := by
  unfold release
  split <;> rfl

@[simp] theorem release_sequence : s.release.sequence = s.sequence := by
  unfold release
  split <;> rfl

@[simp] theorem release_closing : s.release.closing = s.closing := by
  unfold release
  split <;> rfl

@[simp] theorem release_bootImages : s.release.bootImages = s.bootImages := by
  unfold release
  split <;> rfl

@[simp] theorem release_active : s.release.active = s.active := by
  unfold release
  split <;> rfl

@[simp] theorem release_waiting : s.release.waiting = s.waiting := by
  unfold release
  split <;> rfl

@[simp] theorem release_log : s.release.log = s.current.toList.map .destroyed ++ s.log := by
  unfold release
  split <;> simp_all

/-- The operations on the promise chain, the suspended one first. -/
def jobs (s : Session M B E) : List (Job B E) :=
  (s.active.map Prod.fst).toList ++ s.waiting

/-! ## The log -/

/-- The requests that were accepted, newest first, with their numbers. -/
def requestedIn (log : List (Event M B E)) : List (Nat × Operation B E) :=
  log.filterMap fun
    | .requested n operation => some (n, operation)
    | _ => none

def Event.IsRequest (e : Event M B E) : Prop :=
  ∃ n operation, e = .requested n operation

theorem requestedIn_append {new log : List (Event M B E)} (h : ∀ e ∈ new, ¬ e.IsRequest) :
    requestedIn (new ++ log) = requestedIn log := by
  have hnone : requestedIn new = [] := by
    refine List.filterMap_eq_nil_iff.2 fun e he => ?_
    cases e with
    | requested n operation => exact absurd ⟨n, operation, rfl⟩ (h _ he)
    | _ => rfl
  exact (List.filterMap_append ..).trans (congrArg (· ++ requestedIn log) hnone)

/-- A state change is not made by an operation older than a request before it. -/
def Respects : Event M B E → Event M B E → Prop
  | .changed n _, .requested k _ => k ≤ n
  | _, _ => True

/-! ## Machines -/

def createdIn (log : List (Event M B E)) : List M :=
  log.filterMap fun
    | .created _ _ _ machine => some machine
    | _ => none

def destroyedIn (log : List (Event M B E)) : List M :=
  log.filterMap fun
    | .destroyed machine => some machine
    | _ => none

/-- Events that neither create nor destroy a machine. -/
def Event.IsQuiet : Event M B E → Prop
  | .created _ _ _ _ => False
  | .destroyed _ => False
  | _ => True

/-- The machines of the log are accounted for by those held. -/
structure Balanced (log : List (Event M B E)) (held : List M) : Prop where
  perm : (createdIn log).Perm (destroyedIn log ++ held)
  single : ∀ past, past <:+ log → (createdIn past).length ≤ (destroyedIn past).length + 1

namespace Balanced

variable {log : List (Event M B E)} {held : List M}

theorem nil : Balanced ([] : List (Event M B E)) [] := by
  refine ⟨List.Perm.refl _, ?_⟩
  intro past hpast
  rw [List.suffix_nil.1 hpast]
  exact Nat.zero_le _

theorem quiet (h : Balanced log held) (e : Event M B E) (he : e.IsQuiet) :
    Balanced (e :: log) held := by
  have hcreated : createdIn (e :: log) = createdIn log := by
    cases e <;> first | rfl | exact he.elim
  have hdestroyed : destroyedIn (e :: log) = destroyedIn log := by
    cases e <;> first | rfl | exact he.elim
  refine ⟨by rw [hcreated, hdestroyed]; exact h.perm, ?_⟩
  intro past hpast
  rcases List.suffix_cons_iff.1 hpast with rfl | hold
  · rw [hcreated, hdestroyed]
    exact h.single log List.suffix_rfl
  · exact h.single past hold

/-- Only one that holds nothing may create. -/
theorem created (h : Balanced log []) (n : Nat) (images : B) (allowSnapshot : Bool) (m : M) :
    Balanced (.created n images allowSnapshot m :: log) [m] := by
  have hlength : (createdIn log).length = (destroyedIn log).length := by
    have := h.perm.length_eq
    rwa [List.append_nil] at this
  constructor
  · have hperm := h.perm
    rw [List.append_nil] at hperm
    exact (hperm.cons m).trans (List.perm_append_singleton m _).symm
  · intro past hpast
    rcases List.suffix_cons_iff.1 hpast with rfl | hold
    · change (createdIn log).length + 1 ≤ (destroyedIn log).length + 1
      omega
    · exact h.single past hold

theorem destroyed {m : M} (h : Balanced log [m]) : Balanced (.destroyed m :: log) [] := by
  constructor
  · rw [List.append_nil]
    exact h.perm.trans (List.perm_append_singleton m _)
  · intro past hpast
    rcases List.suffix_cons_iff.1 hpast with rfl | hold
    · have hlog := h.single log List.suffix_rfl
      change (createdIn log).length ≤ (destroyedIn log).length + 1 + 1
      omega
    · exact h.single past hold

end Balanced

/-- The machine of a resolved `create` promise, which `start` has not seen yet. -/
def Await.machine : Await M B E → Option M
  | .candidate _ _ machine => some machine
  | _ => none

def Await.IsCreating : Await M B E → Prop
  | .create _ _ => True
  | .candidate _ _ _ => True
  | _ => False

def candidate (s : Session M B E) : Option M :=
  s.active.bind fun a => a.2.machine

theorem candidate_of_active {job : Job B E}
    (h : s.active = some (job, await)) : s.candidate = await.machine := by
  unfold candidate
  rw [h]
  rfl

@[simp] theorem release_candidate : s.release.candidate = s.candidate := by
  unfold candidate
  rw [release_active]

structure Owns (s : Session M B E) : Prop where
  balanced : Balanced s.log (s.current.toList ++ s.candidate.toList)
  vacant : ∀ job await, s.active = some (job, await) → await.IsCreating → s.current = none

namespace Owns

theorem note (h : Owns s) (e : Event M B E) (he : e.IsQuiet) : Owns (s.note e) :=
  ⟨h.balanced.quiet e he, h.vacant⟩

theorem transition (h : Owns s) (n : Nat) (state : SessionState) : Owns (s.transition n state) :=
  ⟨h.balanced.quiet (.changed n state) trivial, h.vacant⟩

theorem of_vacant (hlog : Balanced s.log []) (hcurrent : s.current = none)
    (hcandidate : s.candidate = none) : Owns s := by
  refine ⟨?_, fun _ _ _ _ => hcurrent⟩
  rw [hcurrent, hcandidate]
  exact hlog

theorem release (h : Owns s) (hcandidate : s.candidate = none) : Owns s.release := by
  refine of_vacant ?_ release_current (release_candidate.trans hcandidate)
  have hbalanced := h.balanced
  rw [hcandidate, Option.toList_none, List.append_nil] at hbalanced
  rw [release_log]
  cases hcurrent : s.current with
  | none =>
    rw [hcurrent] at hbalanced
    exact hbalanced
  | some m =>
    rw [hcurrent] at hbalanced
    exact hbalanced.destroyed

/-- Moving between awaits without a machine leaves the machines alone. -/
theorem suspend (h : Owns s) (hcandidate : s.candidate = none) (job : Job B E)
    (hawait : await.machine = none)
    (hvacant : await.IsCreating → s.current = none) : Owns (s.suspend job await) := by
  refine ⟨?_, ?_⟩
  · have hbalanced := h.balanced
    rw [hcandidate] at hbalanced
    rw [candidate_of_active rfl, hawait]
    exact hbalanced
  · rintro _ _ heq hcreating
    cases heq
    exact hvacant hcreating

end Owns

section Operations

variable (h : Owns s) (hcandidate : s.candidate = none) (job : Job B E)
include h hcandidate

theorem owns_start (images : B) (allowSnapshot : Bool) :
    Owns (s.start job images allowSnapshot) := by
  have hreleased :=
    (h.release hcandidate).note (.creating job.sequence images allowSnapshot) trivial
  exact hreleased.suspend (release_candidate.trans hcandidate) job rfl fun _ => release_current

theorem owns_operate : Owns (s.operate job) := by
  have hreleased := h.release hcandidate
  have hnone : s.release.candidate = none := release_candidate.trans hcandidate
  unfold operate
  split
  · exact owns_start h hcandidate job _ _
  · exact (hreleased.transition _ _).suspend hnone job rfl False.elim
  · exact hreleased.suspend hnone job rfl False.elim
  · exact (hreleased.note (.error _) trivial).suspend hnone job rfl False.elim
  · exact hreleased.suspend hnone job rfl False.elim

end Operations

theorem owns_continues (h : Owns s) (hstep : Continues s t) : Owns t := by
  cases hstep with
  | @begin job rest idle next =>
    have hcandidate : candidate { s with waiting := rest } = none := by
      rw [idle]
      rfl
    have hrest : Owns { s with waiting := rest } := ⟨h.1, h.2⟩
    unfold begin
    split
    · exact owns_operate hrest hcandidate job
    · exact hrest.suspend hcandidate job rfl False.elim
  | @createResolved job images allowSnapshot m awaits =>
    have hcurrent := h.vacant _ _ awaits trivial
    have hbalanced := h.balanced
    rw [candidate_of_active awaits, hcurrent] at hbalanced
    refine ⟨?_, fun _ _ _ _ => hcurrent⟩
    change Balanced _ (s.current.toList ++ [m])
    rw [hcurrent]
    exact hbalanced.created _ _ _ m
  | @createRejected job _ _ error awaits =>
    exact (h.note (.createRejected _ error) trivial).suspend (candidate_of_active awaits) job rfl
      False.elim
  | @publish job images allowSnapshot m awaits =>
    -- `start` held no machine while it waited, so the candidate is the only one.
    have hcurrent := h.vacant _ _ awaits trivial
    have hbalanced : Balanced s.log [m] := by
      have := h.balanced
      rwa [hcurrent, candidate_of_active awaits] at this
    unfold publish
    split
    · refine ⟨(hbalanced.quiet (.changed _ _) trivial).quiet (.started m) trivial, ?_⟩
      rintro _ _ ⟨⟩ hcreating
      exact hcreating.elim
    · exact Owns.of_vacant hbalanced.destroyed hcurrent rfl
  | @resetResolved job awaits =>
    have hnoted := h.note (.resetResolved job.sequence) trivial
    have hcandidate : (s.note (.resetResolved job.sequence)).candidate = none :=
      candidate_of_active awaits
    unfold afterReset
    split
    · split
      · exact (hnoted.transition _ _).suspend hcandidate job rfl False.elim
      · exact owns_start (hnoted.transition _ _) hcandidate job _ _
    · exact hnoted.suspend hcandidate job rfl False.elim
  | @resetRejected job error awaits =>
    exact (h.note (.resetRejected _ error) trivial).suspend (candidate_of_active awaits) job rfl
      False.elim
  | @disposeResolved job awaits =>
    exact ((h.note (.disposeResolved _) trivial).transition _ _).suspend
      (candidate_of_active awaits) job rfl False.elim
  | @disposeRejected job error awaits =>
    exact ((h.note (.disposeRejected _ error) trivial).transition _ _).suspend
      (candidate_of_active awaits) job rfl False.elim
  | @settle job result awaits =>
    have hidle : Owns { s with active := none } := by
      refine ⟨?_, fun _ _ heq => by cases heq⟩
      have hbalanced := h.balanced
      rw [candidate_of_active awaits] at hbalanced
      exact hbalanced
    unfold settle
    split
    · exact hidle
    · dsimp only
      split
      · exact ((hidle.release rfl).transition _ _).note (.error _) trivial
      · exact hidle

end Session

end EmulateComputer
