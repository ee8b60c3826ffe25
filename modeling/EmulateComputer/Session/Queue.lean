import Mathlib.Data.List.Basic
import Mathlib.Logic.Relation

/-!
# Queue — serialized session operations, last request wins

A session owns at most one machine.  Requests are queued on a promise chain and each takes the
next sequence number; an operation that finds a newer number at a check stops there.

* `Session` has the fields of the source, with the promise chain `pending` as its two parts: the
  operation that is suspended at an await (`active`) and those behind it (`waiting`);
* `Session.request` is a call of one of the public methods;
* `Session.Continues` is one turn of the promise chain: an operation starts, a promise of the
  driver or the disk settles, or the rejection handler of `queue` runs.

Requests arrive between any two turns.  Driver callbacks do not throw and do not call back into
the session.  The log is a history variable: it records the calls of the driver and what the
promises settled to, newest first, with the sequence number of the operation concerned.
-/

namespace EmulateComputer

inductive SessionState
  | stopped
  | starting
  | running
  | stopping
  | failed
  | disposed
  deriving DecidableEq, Repr

namespace Session

variable {M B E : Type}

/-- The operations that requests queue; `start` is shared by `boot` and `restart`. -/
inductive Operation (B E : Type)
  | start (images : B) (allowSnapshot : Bool)
  | stop
  | reset
  | fail (error : E)
  | dispose

/-- The state a request moves to before its operation runs. -/
def Operation.phase : Operation B E → SessionState
  | start _ _ => .starting
  | stop => .stopping
  | reset => .stopping
  | fail _ => .failed
  | dispose => .stopping

structure Job (B E : Type) where
  sequence : Nat
  operation : Operation B E

/-- Where an operation is suspended. -/
inductive Await (M B E : Type)
  | create (images : B) (allowSnapshot : Bool)
  /-- The promise of `create` has resolved; `start` has not resumed yet. -/
  | candidate (images : B) (allowSnapshot : Bool) (machine : M)
  | diskReset
  | diskDispose
  /-- The operation is over; the rejection handler comes next. -/
  | settled (result : Except E Unit)

inductive Event (M B E : Type)
  | requested (sequence : Nat) (operation : Operation B E)
  | paused
  | changed (sequence : Nat) (state : SessionState)
  | creating (sequence : Nat) (images : B) (allowSnapshot : Bool)
  | created (sequence : Nat) (images : B) (allowSnapshot : Bool) (machine : M)
  | createRejected (sequence : Nat) (error : E)
  | destroyed (machine : M)
  | started (machine : M)
  | error (error : E)
  | resetResolved (sequence : Nat)
  | resetRejected (sequence : Nat) (error : E)
  | disposeResolved (sequence : Nat)
  | disposeRejected (sequence : Nat) (error : E)

end Session

structure Session (M B E : Type) where
  current : Option M := none
  bootImages : Option B := none
  phase : SessionState := .stopped
  sequence : Nat := 0
  closing : Bool := false
  active : Option (Session.Job B E × Session.Await M B E) := none
  waiting : List (Session.Job B E) := []
  log : List (Session.Event M B E) := []

namespace Session

variable {M B E : Type}

def note (e : Event M B E) (s : Session M B E) : Session M B E :=
  { s with log := e :: s.log }

def transition (sequence : Nat) (state : SessionState) (s : Session M B E) : Session M B E :=
  { s with phase := state, log := .changed sequence state :: s.log }

def release (s : Session M B E) : Session M B E :=
  match s.current with
  | none => s
  | some machine => { s with current := none, log := .destroyed machine :: s.log }

def suspend (job : Job B E) (await : Await M B E) (s : Session M B E) : Session M B E :=
  { s with active := some (job, await) }

/-! ## Requests -/

def queue (operation : Operation B E) (s : Session M B E) : Session M B E :=
  if s.closing then s
  else
    let sequence := s.sequence + 1
    let s := { s with
      sequence := sequence
      waiting := s.waiting ++ [Job.mk sequence operation]
      log := .paused :: .requested sequence operation :: s.log }
    s.transition sequence operation.phase

def boot (images : B) (s : Session M B E) : Session M B E :=
  queue (.start images true) { s with bootImages := some images }

def restart (s : Session M B E) : Session M B E :=
  match s.bootImages with
  | none => s
  | some images => s.queue (.start images false)

def stop (s : Session M B E) : Session M B E :=
  s.queue .stop

def reset (s : Session M B E) : Session M B E :=
  s.queue .reset

def fail (error : E) (s : Session M B E) : Session M B E :=
  s.queue (.fail error)

def dispose (s : Session M B E) : Session M B E :=
  { s.queue .dispose with closing := true }

inductive Request (B E : Type)
  | boot (images : B)
  | restart
  | stop
  | reset
  | fail (error : E)
  | dispose

def request (s : Session M B E) : Request B E → Session M B E
  | .boot images => s.boot images
  | .restart => s.restart
  | .stop => s.stop
  | .reset => s.reset
  | .fail error => s.fail error
  | .dispose => s.dispose

/-! ## Which requests are accepted -/

/-- The images of the newest operation that starts a machine. -/
def lastImages (asked : List (Nat × Operation B E)) : Option B :=
  asked.findSome? fun
    | (_, .start images _) => some images
    | _ => none

def Request.closes : Request B E → Bool
  | dispose => true
  | _ => false

/-- What a request asks for; there is nothing to restart before the first boot. -/
def Request.operation (known : Option B) : Request B E → Option (Operation B E)
  | boot images => some (.start images true)
  | restart => known.map fun images => .start images false
  | stop => some .stop
  | reset => some .reset
  | fail error => some (.fail error)
  | dispose => some .dispose

/-- The operations that requests lead to, both newest first, with the numbers they take: after a
`dispose` nothing is accepted. -/
def accepted : List (Request B E) → List (Nat × Operation B E)
  | [] => []
  | r :: earlier =>
    let asked := accepted earlier
    if earlier.any Request.closes then asked
    else ((r.operation (lastImages asked)).map fun operation =>
      (asked.length + 1, operation)).toList ++ asked

/-! ## Operations -/

/-- `start` up to its await. -/
def start (job : Job B E) (images : B) (allowSnapshot : Bool) (s : Session M B E) : Session M B E :=
  (s.release.note (.creating job.sequence images allowSnapshot)).suspend job
    (.create images allowSnapshot)

/-- An operation up to its first await. -/
def operate (job : Job B E) (s : Session M B E) : Session M B E :=
  match job.operation with
  | .start images allowSnapshot => s.start job images allowSnapshot
  | .stop => (s.release.transition job.sequence .stopped).suspend job (.settled (.ok ()))
  | .reset => s.release.suspend job .diskReset
  | .fail error => (s.release.note (.error error)).suspend job (.settled (.ok ()))
  | .dispose => s.release.suspend job .diskDispose

/-- The body of `queue`'s job: a superseded operation is not started. -/
def begin (job : Job B E) (rest : List (Job B E)) (s : Session M B E) : Session M B E :=
  if job.sequence = s.sequence then operate job { s with waiting := rest }
  else suspend job (.settled (.ok ())) { s with waiting := rest }

/-- The rest of `start`, once it has its candidate. -/
def publish (job : Job B E) (candidate : M) (s : Session M B E) : Session M B E :=
  if job.sequence = s.sequence then
    let s := { s with current := some candidate }
    ((s.transition job.sequence .running).note (.started candidate)).suspend job (.settled (.ok ()))
  else (s.note (.destroyed candidate)).suspend job (.settled (.ok ()))

/-- The rest of `reset`, once the disk is reset. -/
def afterReset (job : Job B E) (s : Session M B E) : Session M B E :=
  if job.sequence = s.sequence then
    match s.bootImages with
    | none => (s.transition job.sequence .stopped).suspend job (.settled (.ok ()))
    | some images => (s.transition job.sequence .starting).start job images true
  else s.suspend job (.settled (.ok ()))

/-- The `finally` of `dispose`, which runs whatever the disk's promise settled to. -/
def afterDispose (job : Job B E) (result : Except E Unit) (s : Session M B E) : Session M B E :=
  (s.transition job.sequence .disposed).suspend job (.settled result)

def settle (job : Job B E) (result : Except E Unit) (s : Session M B E) : Session M B E :=
  let s := { s with active := none }
  match result with
  | .ok () => s
  | .error error =>
    if job.sequence = s.sequence then
      (s.release.transition job.sequence .failed).note (.error error)
    else s

/-! ## Runs -/

/-- One turn of the promise chain. -/
inductive Continues : Session M B E → Session M B E → Prop
  | begin {s : Session M B E} {job : Job B E} {rest : List (Job B E)}
      (idle : s.active = none) (next : s.waiting = job :: rest) : Continues s (s.begin job rest)
  | createResolved {s : Session M B E} {job : Job B E} {images : B} {allowSnapshot : Bool}
      (machine : M) (awaits : s.active = some (job, .create images allowSnapshot)) :
      Continues s ((s.note (.created job.sequence images allowSnapshot machine)).suspend job
        (.candidate images allowSnapshot machine))
  | createRejected {s : Session M B E} {job : Job B E} {images : B} {allowSnapshot : Bool}
      (error : E) (awaits : s.active = some (job, .create images allowSnapshot)) :
      Continues s ((s.note (.createRejected job.sequence error)).suspend job
        (.settled (.error error)))
  | publish {s : Session M B E} {job : Job B E} {images : B} {allowSnapshot : Bool} {machine : M}
      (awaits : s.active = some (job, .candidate images allowSnapshot machine)) :
      Continues s (s.publish job machine)
  | resetResolved {s : Session M B E} {job : Job B E} (awaits : s.active = some (job, .diskReset)) :
      Continues s ((s.note (.resetResolved job.sequence)).afterReset job)
  | resetRejected {s : Session M B E} {job : Job B E} (error : E)
      (awaits : s.active = some (job, .diskReset)) :
      Continues s ((s.note (.resetRejected job.sequence error)).suspend job
        (.settled (.error error)))
  | disposeResolved {s : Session M B E} {job : Job B E}
      (awaits : s.active = some (job, .diskDispose)) :
      Continues s ((s.note (.disposeResolved job.sequence)).afterDispose job (.ok ()))
  | disposeRejected {s : Session M B E} {job : Job B E} (error : E)
      (awaits : s.active = some (job, .diskDispose)) :
      Continues s ((s.note (.disposeRejected job.sequence error)).afterDispose job (.error error))
  | settle {s : Session M B E} {job : Job B E} {result : Except E Unit}
      (awaits : s.active = some (job, .settled result)) : Continues s (s.settle job result)

inductive Step : Session M B E → Session M B E → Prop
  | request (s : Session M B E) (r : Request B E) : Step s (s.request r)
  | continues {s t : Session M B E} (h : Continues s t) : Step s t

/-- The sessions that these requests, newest first, and any outcomes of the promises lead to. -/
inductive Reaches : List (Request B E) → Session M B E → Prop
  | new : Reaches [] {}
  | request {requests : List (Request B E)} {s : Session M B E} (h : Reaches requests s)
      (r : Request B E) : Reaches (r :: requests) (s.request r)
  | continues {requests : List (Request B E)} {s t : Session M B E} (h : Reaches requests s)
      (hturn : Continues s t) : Reaches requests t

/-- The sessions that any requests and any outcomes of the promises lead to. -/
def Reachable (s : Session M B E) : Prop :=
  Relation.ReflTransGen Step {} s

theorem Reaches.reachable {requests : List (Request B E)} {s : Session M B E}
    (h : Reaches requests s) : Reachable s := by
  induction h with
  | new => exact .refl
  | request _ r ih => exact ih.tail (.request _ r)
  | continues _ hturn ih => exact ih.tail (.continues hturn)

/-- Every promise has settled: no operation is suspended and none waits. -/
def Settled (s : Session M B E) : Prop :=
  s.active = none ∧ s.waiting = []

theorem Settled.not_continues {s t : Session M B E} (hs : s.Settled) : ¬ Continues s t := by
  obtain ⟨hactive, hwaiting⟩ := hs
  intro h
  cases h <;> simp_all

/-- As long as something is left, the promise chain can go on. -/
theorem settled_iff_not_continues (s : Session M B E) [Nonempty M] :
    Settled s ↔ ∀ t, ¬ Continues s t := by
  constructor
  · exact fun hs _ => hs.not_continues
  · intro h
    by_contra hne
    obtain ⟨m⟩ := ‹Nonempty M›
    cases hactive : s.active with
    | none =>
      cases hwaiting : s.waiting with
      | nil => exact hne ⟨hactive, hwaiting⟩
      | cons job rest => exact h _ (.begin hactive hwaiting)
    | some a =>
      obtain ⟨job, await⟩ := a
      cases await with
      | create images allowSnapshot => exact h _ (.createResolved m hactive)
      | candidate images allowSnapshot machine => exact h _ (.publish hactive)
      | diskReset => exact h _ (.resetResolved hactive)
      | diskDispose => exact h _ (.disposeResolved hactive)
      | settled result => exact h _ (.settle hactive)

end Session

end EmulateComputer
