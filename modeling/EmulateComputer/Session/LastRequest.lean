import EmulateComputer.Session.Lifecycle

/-!
# LastRequest — the newest request decides

The newest operation is the last of the promise chain.  `Turn` says how far it has come: it waits
behind older ones, it is suspended at an await (`Stage`), or it is over.  Operations in front of it
are superseded; their turns change neither the state nor the machine.  The sole unchecked
transition is the `finally` of `dispose`, and no request is accepted after that one.
-/

namespace EmulateComputer

namespace Session

variable {M B E : Type} {s t : Session M B E}

/-! ## What a turn leaves alone -/

/-- Events that are neither a request nor a state change. -/
def Event.IsPlain : Event M B E → Prop
  | .requested _ _ => False
  | .changed _ _ => False
  | _ => True

/-- No request is accepted, and only the newest operation changes the state. -/
structure Frame (s t : Session M B E) : Prop where
  sequence : t.sequence = s.sequence
  closing : t.closing = s.closing
  bootImages : t.bootImages = s.bootImages
  log : ∃ new, t.log = new ++ s.log ∧ (∀ e ∈ new, ¬ e.IsRequest) ∧
    ∀ n state, .changed n state ∈ new → n = s.sequence

namespace Frame

theorem of_log_eq (hsequence : t.sequence = s.sequence) (hclosing : t.closing = s.closing)
    (hboot : t.bootImages = s.bootImages) (hlog : t.log = s.log) : Frame s t :=
  ⟨hsequence, hclosing, hboot, [], hlog, by simp, by simp⟩

theorem trans {u : Session M B E} (h : Frame s t) (h' : Frame t u) : Frame s u := by
  obtain ⟨new, hnew, hrequest, hchanged⟩ := h.log
  obtain ⟨newer, hnewer, hrequest', hchanged'⟩ := h'.log
  refine ⟨h'.sequence.trans h.sequence, h'.closing.trans h.closing,
    h'.bootImages.trans h.bootImages, newer ++ new, ?_, ?_, ?_⟩
  · rw [hnewer, hnew, List.append_assoc]
  · exact List.forall_mem_append.2 ⟨hrequest', hrequest⟩
  · intro n state he
    rcases List.mem_append.1 he with he | he
    · exact (hchanged' n state he).trans h.sequence
    · exact hchanged n state he

theorem refl (s : Session M B E) : Frame s s :=
  of_log_eq rfl rfl rfl rfl

section

variable (h : Frame s t)

include h

theorem note (e : Event M B E) (hplain : e.IsPlain) : Frame s (t.note e) := by
  refine h.trans ⟨rfl, rfl, rfl, [e], rfl, ?_, ?_⟩
  · intro e' he
    rw [List.mem_singleton.1 he]
    rintro ⟨n, operation, rfl⟩
    exact hplain
  · intro n state he
    rw [← List.mem_singleton.1 he] at hplain
    exact hplain.elim

theorem transition {n : Nat} (hn : n = s.sequence) (state : SessionState) :
    Frame s (t.transition n state) := by
  refine h.trans ⟨rfl, rfl, rfl, [.changed n state], rfl, ?_, ?_⟩
  · intro e he
    rw [List.mem_singleton.1 he]
    rintro ⟨_, _, ⟨⟩⟩
  · intro k st he
    cases List.mem_singleton.1 he
    exact hn.trans h.sequence.symm

theorem release : Frame s t.release := by
  refine h.trans ⟨release_sequence, release_closing, release_bootImages, _, release_log, ?_, ?_⟩
  · intro e he
    obtain ⟨m, -, rfl⟩ := List.mem_map.1 he
    rintro ⟨_, _, ⟨⟩⟩
  · intro n state he
    obtain ⟨m, -, ⟨⟩⟩ := List.mem_map.1 he

theorem suspend (job : Job B E) (await : Await M B E) : Frame s (t.suspend job await) :=
  h.trans (of_log_eq rfl rfl rfl rfl)

theorem start (job : Job B E) (images : B) (allowSnapshot : Bool) :
    Frame s (t.start job images allowSnapshot) :=
  (h.release.note (.creating _ _ _) trivial).suspend _ _

theorem requestedIn_eq : requestedIn t.log = requestedIn s.log := by
  obtain ⟨new, hnew, hrequest, -⟩ := h.log
  rw [hnew]
  exact requestedIn_append hrequest

theorem head_eq : (requestedIn t.log).head? = (requestedIn s.log).head? :=
  congrArg List.head? h.requestedIn_eq

theorem lastImages_eq : lastImages (requestedIn t.log) = lastImages (requestedIn s.log) :=
  congrArg lastImages h.requestedIn_eq

theorem mem_log {e : Event M B E} (he : e ∈ s.log) : e ∈ t.log := by
  obtain ⟨new, hnew, -, -⟩ := h.log
  rw [hnew]
  exact List.mem_append_right _ he

end

end Frame

theorem frame_operate (h : Frame s t) (job : Job B E) (hn : job.sequence = s.sequence) :
    Frame s (t.operate job) := by
  unfold operate
  split
  · exact h.start job _ _
  · exact (h.release.transition hn _).suspend _ _
  · exact h.release.suspend _ _
  · exact (h.release.note (.error _) trivial).suspend _ _
  · exact h.release.suspend _ _

/-- The disposing operation is the newest one, whenever it runs. -/
def DisposesLast (s : Session M B E) : Prop :=
  ∀ job, s.active = some (job, .diskDispose) → job.sequence = s.sequence

theorem frame_continues (hdispose : DisposesLast s) (hstep : Continues s t) : Frame s t := by
  have hs := Frame.refl s
  cases hstep with
  | @begin job rest idle next =>
    have hrest : Frame s { s with waiting := rest } := Frame.of_log_eq rfl rfl rfl rfl
    unfold begin
    split
    · exact frame_operate hrest job ‹_›
    · exact hrest.suspend _ _
  | createResolved m awaits => exact (hs.note (.created _ _ _ m) trivial).suspend _ _
  | createRejected error awaits => exact (hs.note (.createRejected _ error) trivial).suspend _ _
  | @publish job _ _ m awaits =>
    unfold publish
    split
    · have hcurrent : Frame s { s with current := some m } := Frame.of_log_eq rfl rfl rfl rfl
      exact ((hcurrent.transition ‹_› _).note (.started m) trivial).suspend _ _
    · exact (hs.note (.destroyed m) trivial).suspend _ _
  | @resetResolved job awaits =>
    have hnoted := hs.note (.resetResolved job.sequence) trivial
    unfold afterReset
    split
    · split
      · exact (hnoted.transition ‹_› _).suspend _ _
      · exact (hnoted.transition ‹_› _).start _ _ _
    · exact hnoted.suspend _ _
  | resetRejected error awaits => exact (hs.note (.resetRejected _ error) trivial).suspend _ _
  | @disposeResolved job awaits =>
    have hnoted := hs.note (.disposeResolved job.sequence) trivial
    exact (hnoted.transition (hdispose job awaits) _).suspend _ _
  | @disposeRejected job error awaits =>
    have hnoted := hs.note (.disposeRejected job.sequence error) trivial
    exact (hnoted.transition (hdispose job awaits) _).suspend _ _
  | @settle job result awaits =>
    have hidle : Frame s { s with active := none } := Frame.of_log_eq rfl rfl rfl rfl
    unfold settle
    split
    · exact hidle
    · dsimp only
      split
      · exact (hidle.release.transition ‹_› _).note (.error _) trivial
      · exact hidle

/-! ## What the newest request asks for -/

/-- The session is in this state without a machine. -/
def Ends (s : Session M B E) (state : SessionState) : Prop :=
  s.phase = state ∧ s.current = none

/-- A `start` is over: it published its machine, or `create` rejected. -/
def Started (s : Session M B E) (n : Nat) (images : B) (allowSnapshot : Bool) : Prop :=
  (∃ m, .created n images allowSnapshot m ∈ s.log ∧ s.phase = .running ∧ s.current = some m) ∨
    ∃ error, .createRejected n error ∈ s.log ∧ s.Ends .failed

/-- The state and machine that an operation is to lead to, given the images to boot from and what
its promises settled to. -/
def DemandedBy (s : Session M B E) (known : Option B) (n : Nat) : Operation B E → Prop
  | .start images allowSnapshot => s.Started n images allowSnapshot
  | .stop => s.Ends .stopped
  | .reset =>
    (∃ error, .resetRejected n error ∈ s.log ∧ s.Ends .failed) ∨
      .resetResolved n ∈ s.log ∧
        (known = none ∧ s.Ends .stopped ∨ ∃ images, known = some images ∧ s.Started n images true)
  | .fail _ => s.Ends .failed
  | .dispose => s.Ends .disposed

/-- The newest operation decides. -/
def Demanded (s : Session M B E) (asked : List (Nat × Operation B E)) : Prop :=
  match asked.head? with
  | none => s.Ends .stopped
  | some (n, operation) => s.DemandedBy (lastImages asked) n operation

/-- What the newest request has led to: the same, but that a rejected disposal ends failed. -/
def Outcome (s : Session M B E) : Prop :=
  s.Demanded (requestedIn s.log) ∨ ∃ n error, (requestedIn s.log).head? = some (n, .dispose) ∧
    .disposeRejected n error ∈ s.log ∧ s.Ends .failed

/-- The operation has come to calling `create` with these arguments. -/
def Creates (log : List (Event M B E)) (n : Nat) (operation : Operation B E) (images : B)
    (allowSnapshot : Bool) : Prop :=
  operation = .start images allowSnapshot ∨
    operation = .reset ∧ allowSnapshot = true ∧ .resetResolved n ∈ log ∧
      lastImages (requestedIn log) = some images

/-- The promise that made the operation reject. -/
def Fails (log : List (Event M B E)) (n : Nat) (operation : Operation B E) (error : E) : Prop :=
  (∃ images allowSnapshot, Creates log n operation images allowSnapshot ∧
      .createRejected n error ∈ log) ∨
    operation = .reset ∧ .resetRejected n error ∈ log ∨
    operation = .dispose ∧ .disposeRejected n error ∈ log

/-- What is known while the newest operation is suspended. -/
def Stage (s : Session M B E) (operation : Operation B E) : Await M B E → Prop
  | .create images allowSnapshot =>
    s.phase = .starting ∧ Creates s.log s.sequence operation images allowSnapshot
  | .candidate images allowSnapshot m =>
    s.phase = .starting ∧ Creates s.log s.sequence operation images allowSnapshot ∧
      .created s.sequence images allowSnapshot m ∈ s.log
  | .diskReset => operation = .reset ∧ s.Ends .stopping
  | .diskDispose => operation = .dispose ∧ s.Ends .stopping
  | .settled (.ok ()) => s.Outcome
  | .settled (.error error) =>
    s.phase ≠ .running ∧ (s.phase = .disposed → .disposeRejected s.sequence error ∈ s.log) ∧
      Fails s.log s.sequence operation error

/-- How far the newest request has come. -/
inductive Turn (s : Session M B E) : Prop
  | ended (settled : s.Settled) (outcome : s.Outcome)
  | waits (front : List (Job B E)) (operation : Operation B E)
      (queued : s.waiting = front ++ [Job.mk s.sequence operation])
      (last : (requestedIn s.log).head? = some (s.sequence, operation))
      (phase : s.phase = operation.phase)
      (older : ∀ job ∈ (s.active.map Prod.fst).toList ++ front, job.sequence < s.sequence)
  | runs (operation : Operation B E) (await : Await M B E)
      (active : s.active = some (Job.mk s.sequence operation, await)) (alone : s.waiting = [])
      (last : (requestedIn s.log).head? = some (s.sequence, operation))
      (stage : s.Stage operation await)

variable {operation : Operation B E} {n : Nat} {allowSnapshot : Bool} {await : Await M B E}

theorem Creates.frame {images : B} (hframe : Frame s t)
    (h : Creates s.log n operation images allowSnapshot) :
    Creates t.log n operation images allowSnapshot := by
  rcases h with h | ⟨hreset, hallow, hresolved, hboot⟩
  · exact Or.inl h
  · exact Or.inr ⟨hreset, hallow, hframe.mem_log hresolved, hframe.lastImages_eq.trans hboot⟩

theorem Fails.frame {error : E} (hframe : Frame s t) (h : Fails s.log n operation error) :
    Fails t.log n operation error := by
  rcases h with ⟨images, allowSnapshot, hcreates, hrejected⟩ | ⟨hreset, hrejected⟩ |
    ⟨hdispose, hrejected⟩
  · exact Or.inl ⟨images, allowSnapshot, hcreates.frame hframe, hframe.mem_log hrejected⟩
  · exact Or.inr (Or.inl ⟨hreset, hframe.mem_log hrejected⟩)
  · exact Or.inr (Or.inr ⟨hdispose, hframe.mem_log hrejected⟩)

/-- The newest operation is still the newest after its own turn. -/
theorem Turn.of_frame (hframe : Frame s t)
    (hlast : (requestedIn s.log).head? = some (s.sequence, operation))
    (hactive : t.active = some (Job.mk s.sequence operation, await)) (halone : t.waiting = [])
    (hstage : t.Stage operation await) : Turn t := by
  have hlast' := hframe.head_eq.trans hlast
  rw [← hframe.sequence] at hlast' hactive
  exact .runs operation await hactive halone hlast' hstage

/-- A `create` that has rejected or published ends what asked for it. -/
theorem demandedBy_of_started {images : B} (h : Creates s.log n operation images allowSnapshot)
    (hstarted : s.Started n images allowSnapshot) :
    s.DemandedBy (lastImages (requestedIn s.log)) n operation := by
  rcases h with rfl | ⟨rfl, rfl, hresolved, hboot⟩
  · exact hstarted
  · exact Or.inr ⟨hresolved, Or.inr ⟨images, hboot, hstarted⟩⟩

theorem demanded_of_last (hlast : (requestedIn s.log).head? = some (n, operation))
    (h : s.DemandedBy (lastImages (requestedIn s.log)) n operation) :
    s.Demanded (requestedIn s.log) := by
  unfold Demanded
  rw [hlast]
  exact h

/-- A rejection handler that has run leaves the outcome of the rejected promise. -/
theorem outcome_of_fails {error : E} (hlast : (requestedIn s.log).head? = some (n, operation))
    (h : Fails s.log n operation error) (hends : s.Ends .failed) : s.Outcome := by
  rcases h with ⟨images, allowSnapshot, hcreates, hrejected⟩ | ⟨rfl, hrejected⟩ | ⟨rfl, hrejected⟩
  · have hstarted : s.Started n images allowSnapshot := Or.inr ⟨error, hrejected, hends⟩
    exact Or.inl (demanded_of_last hlast (demandedBy_of_started hcreates hstarted))
  · exact Or.inl (demanded_of_last hlast (Or.inl ⟨error, hrejected, hends⟩))
  · exact Or.inr ⟨n, error, hlast, hrejected, hends⟩

/-! ## Turns of superseded operations -/

/-- The first operation of the chain is superseded: its turn changes nothing that shows. -/
theorem superseded_continues (hdispose : DisposesLast s)
    (hold : ∀ job ∈ s.jobs.head?, job.sequence ≠ s.sequence) (hstep : Continues s t) :
    t.phase = s.phase ∧ t.current = s.current := by
  have hsuspended : ∀ {job await}, s.active = some (job, await) → job.sequence ≠ s.sequence :=
    fun awaits => hold _ (by simp [jobs, awaits])
  cases hstep with
  | @begin job rest idle next =>
    have hne : job.sequence ≠ s.sequence := hold job (by simp [jobs, idle, next])
    simp only [begin, if_neg hne]
    exact ⟨rfl, rfl⟩
  | createResolved | createRejected | resetRejected => exact ⟨rfl, rfl⟩
  | publish awaits =>
    simp only [publish, if_neg (hsuspended awaits)]
    exact ⟨rfl, rfl⟩
  | @resetResolved job awaits =>
    have hne : job.sequence ≠ (s.note (.resetResolved job.sequence)).sequence := hsuspended awaits
    simp only [afterReset, if_neg hne]
    exact ⟨rfl, rfl⟩
  | disposeResolved awaits | disposeRejected _ awaits =>
    exact absurd (hdispose _ awaits) (hsuspended awaits)
  | settle awaits =>
    unfold settle
    split
    · exact ⟨rfl, rfl⟩
    · rw [if_neg (by exact hsuspended awaits)]
      exact ⟨rfl, rfl⟩

/-! ## Turns of the newest operation -/

/-- The newest operation comes to its first await, or to its end. -/
theorem turn_operate (halone : s.waiting = [])
    (hlast : (requestedIn s.log).head? = some (s.sequence, operation))
    (hphase : s.phase = operation.phase) : Turn (s.operate (Job.mk s.sequence operation)) := by
  have hframe := frame_operate (.refl s) (Job.mk s.sequence operation) rfl
  have hlast' := hframe.head_eq.trans hlast
  have hwaiting : s.release.waiting = [] := release_waiting.trans halone
  have hphase' : s.release.phase = operation.phase := release_phase.trans hphase
  cases operation with
  | start images allowSnapshot =>
    exact .of_frame hframe hlast rfl hwaiting ⟨hphase', Or.inl rfl⟩
  | stop =>
    exact .of_frame hframe hlast rfl hwaiting
      (Or.inl (demanded_of_last hlast' ⟨rfl, release_current⟩))
  | reset => exact .of_frame hframe hlast rfl hwaiting ⟨rfl, hphase', release_current⟩
  | fail error =>
    exact .of_frame hframe hlast rfl hwaiting
      (Or.inl (demanded_of_last hlast' ⟨hphase', release_current⟩))
  | dispose => exact .of_frame hframe hlast rfl hwaiting ⟨rfl, hphase', release_current⟩

/-- The newest operation is a reset whose disk is ready. -/
theorem turn_afterReset (halone : s.waiting = [])
    (hlast : (requestedIn s.log).head? = some (s.sequence, .reset)) (hcurrent : s.current = none)
    (hresolved : .resetResolved s.sequence ∈ s.log)
    (hboots : s.bootImages = lastImages (requestedIn s.log)) :
    Turn (s.afterReset (Job.mk s.sequence .reset)) := by
  unfold afterReset
  rw [if_pos rfl]
  cases himages : s.bootImages with
  | none =>
    have hframe := ((Frame.refl s).transition rfl .stopped).suspend
      (Job.mk s.sequence .reset) (.settled (.ok ()))
    have hnone := hframe.lastImages_eq.trans (hboots.symm.trans himages)
    refine .of_frame hframe hlast rfl halone (Or.inl ?_)
    exact demanded_of_last (hframe.head_eq.trans hlast)
      (Or.inr ⟨hframe.mem_log hresolved, Or.inl ⟨hnone, rfl, hcurrent⟩⟩)
  | some images =>
    have hframe := ((Frame.refl s).transition rfl .starting).start
      (Job.mk s.sequence .reset) images true
    have himages' := hframe.lastImages_eq.trans (hboots.symm.trans himages)
    refine .of_frame hframe hlast rfl (release_waiting.trans halone) ⟨release_phase, Or.inr ?_⟩
    refine ⟨rfl, rfl, ?_, himages'⟩
    rw [hframe.sequence]
    exact hframe.mem_log hresolved

theorem turn_of_runs (hdispose : DisposesLast s)
    (hactive : s.active = some (Job.mk s.sequence operation, await)) (halone : s.waiting = [])
    (hlast : (requestedIn s.log).head? = some (s.sequence, operation))
    (hstage : s.Stage operation await)
    (hboots : operation = .reset → s.bootImages = lastImages (requestedIn s.log))
    (hstep : Continues s t) : Turn t := by
  have hframe := frame_continues hdispose hstep
  have hlast' := hframe.head_eq.trans hlast
  cases hstep with
  | begin idle next => simp [hactive] at idle
  | createResolved m awaits =>
    cases hactive.symm.trans awaits
    exact .runs operation _ rfl halone hlast'
      ⟨hstage.1, hstage.2.frame hframe, List.mem_cons_self⟩
  | createRejected error awaits =>
    cases hactive.symm.trans awaits
    refine .runs operation _ rfl halone hlast' ⟨?_, ?_, Or.inl ?_⟩
    · exact fun hrunning => nomatch hstage.1.symm.trans hrunning
    · exact fun hdisposed => nomatch hstage.1.symm.trans hdisposed
    · exact ⟨_, _, hstage.2.frame hframe, List.mem_cons_self⟩
  | @publish _ images allowSnapshot m awaits =>
    cases hactive.symm.trans awaits
    obtain ⟨-, hcreates, hcreated⟩ := hstage
    have hmem := hframe.mem_log hcreated
    have hcreates' := hcreates.frame hframe
    simp only [publish, if_true] at hlast' hmem hcreates' ⊢
    refine .runs operation _ rfl halone hlast' (Or.inl (demanded_of_last hlast' ?_))
    exact demandedBy_of_started hcreates' (Or.inl ⟨m, hmem, rfl, rfl⟩)
  | @resetResolved _ awaits =>
    cases hactive.symm.trans awaits
    obtain ⟨rfl, -, hcurrent⟩ := hstage
    exact turn_afterReset (s := s.note (.resetResolved s.sequence)) halone hlast hcurrent
      List.mem_cons_self (hboots rfl)
  | @resetRejected _ error awaits =>
    cases hactive.symm.trans awaits
    obtain ⟨rfl, hphase, -⟩ := hstage
    refine .runs .reset _ rfl halone hlast' ⟨?_, ?_, Or.inr (Or.inl ⟨rfl, List.mem_cons_self⟩)⟩
    · exact fun hrunning => nomatch hphase.symm.trans hrunning
    · exact fun hdisposed => nomatch hphase.symm.trans hdisposed
  | @disposeResolved _ awaits =>
    cases hactive.symm.trans awaits
    obtain ⟨rfl, -, hcurrent⟩ := hstage
    exact .runs .dispose _ rfl halone hlast' (Or.inl (demanded_of_last hlast' ⟨rfl, hcurrent⟩))
  | @disposeRejected _ error awaits =>
    cases hactive.symm.trans awaits
    obtain ⟨rfl, -, -⟩ := hstage
    have hmem : Event.disposeRejected s.sequence error ∈ Event.changed s.sequence .disposed ::
        Event.disposeRejected s.sequence error :: s.log :=
      List.mem_cons_of_mem _ List.mem_cons_self
    exact .runs .dispose _ rfl halone hlast' ⟨nofun, fun _ => hmem, Or.inr (Or.inr ⟨rfl, hmem⟩)⟩
  | @settle _ result awaits =>
    cases hactive.symm.trans awaits
    cases result with
    | ok _ => exact .ended ⟨rfl, halone⟩ hstage
    | error error =>
      have hfails := hstage.2.2.frame hframe
      simp only [settle, if_true] at hlast' hfails ⊢
      exact .ended ⟨release_active, release_waiting.trans halone⟩
        (outcome_of_fails hlast' hfails ⟨rfl, release_current⟩)

/-! ## The chain -/

/-- A turn starts the next operation or continues the suspended one. -/
theorem chain_continues (hstep : Continues s t) :
    (∃ job rest, s.active = none ∧ s.waiting = job :: rest ∧ t.waiting = rest ∧
        ∃ await, t.active = some (job, await)) ∨
      ∃ job, (∃ await, s.active = some (job, await)) ∧ t.waiting = s.waiting ∧
        (t.active = none ∨ ∃ await, t.active = some (job, await)) := by
  cases hstep with
  | @begin job rest idle next =>
    refine Or.inl ⟨job, rest, idle, next, ?_⟩
    unfold begin operate
    split
    · split <;> exact ⟨release_waiting, _, rfl⟩
    · exact ⟨rfl, _, rfl⟩
  | createResolved _ awaits | createRejected _ awaits | resetRejected _ awaits
  | disposeResolved awaits | disposeRejected _ awaits =>
    exact Or.inr ⟨_, ⟨_, awaits⟩, rfl, Or.inr ⟨_, rfl⟩⟩
  | publish awaits =>
    refine Or.inr ⟨_, ⟨_, awaits⟩, ?_⟩
    unfold publish
    split <;> exact ⟨rfl, Or.inr ⟨_, rfl⟩⟩
  | resetResolved awaits =>
    refine Or.inr ⟨_, ⟨_, awaits⟩, ?_⟩
    unfold afterReset
    split
    · split
      · exact ⟨rfl, Or.inr ⟨_, rfl⟩⟩
      · exact ⟨release_waiting, Or.inr ⟨_, rfl⟩⟩
    · exact ⟨rfl, Or.inr ⟨_, rfl⟩⟩
  | settle awaits =>
    refine Or.inr ⟨_, ⟨_, awaits⟩, ?_⟩
    unfold settle
    split
    · exact ⟨rfl, Or.inl rfl⟩
    · dsimp only
      split
      · exact ⟨release_waiting, Or.inl release_active⟩
      · exact ⟨rfl, Or.inl rfl⟩

theorem jobs_continues (hstep : Continues s t) : ∀ job ∈ t.jobs, job ∈ s.jobs := by
  intro j hj
  unfold jobs at hj ⊢
  rcases chain_continues hstep with ⟨job, rest, hidle, hnext, hrest, await, hactive⟩ |
    ⟨job, ⟨await, hactive⟩, hwaiting, hnone | ⟨await', hactive'⟩⟩
  · rw [hactive, hrest] at hj
    rw [hidle, hnext]
    exact hj
  · rw [hnone, hwaiting] at hj
    exact List.mem_append_right _ hj
  · rw [hactive', hwaiting] at hj
    rw [hactive]
    exact hj

theorem turn_of_waits {front : List (Job B E)} (hdispose : DisposesLast s)
    (hqueued : s.waiting = front ++ [Job.mk s.sequence operation])
    (hlast : (requestedIn s.log).head? = some (s.sequence, operation))
    (hphase : s.phase = operation.phase)
    (holder : ∀ job ∈ (s.active.map Prod.fst).toList ++ front, job.sequence < s.sequence)
    (hstep : Continues s t) : Turn t := by
  have hframe := frame_continues hdispose hstep
  have hlast' := hframe.head_eq.trans hlast
  -- A turn of an older operation: the newest one keeps waiting, behind fewer or as many.
  have hbehind (hold : ∀ job ∈ s.jobs.head?, job.sequence ≠ s.sequence) (front' : List (Job B E))
      (hqueued' : t.waiting = front' ++ [Job.mk s.sequence operation])
      (holder' : ∀ job ∈ (t.active.map Prod.fst).toList ++ front', job.sequence < s.sequence) :
      Turn t := by
    have hkept := superseded_continues hdispose hold hstep
    rw [← hframe.sequence] at hqueued' holder' hlast'
    exact .waits front' operation hqueued' hlast' (hkept.1.trans hphase) holder'
  rcases chain_continues hstep with ⟨job, rest, hidle, hnext, hrest, await, hactive⟩ |
    ⟨job, ⟨await, hactive⟩, hwaiting, hnext⟩
  · rw [hqueued] at hnext
    cases front with
    | nil =>
      -- Nothing is left in front: the newest operation starts.
      cases hstep with
      | @begin job' rest' idle next =>
        rw [hqueued] at next
        obtain ⟨rfl, rfl⟩ := List.cons.inj next
        simp only [begin, if_true]
        exact turn_operate (s := { s with waiting := [] }) rfl hlast hphase
      | createResolved _ awaits | createRejected _ awaits | publish awaits
      | resetResolved awaits | resetRejected _ awaits | disposeResolved awaits
      | disposeRejected _ awaits | settle awaits =>
        rw [hidle] at awaits
        cases awaits
    | cons first front =>
      obtain ⟨rfl, rfl⟩ := List.cons.inj hnext
      have hfirst : first.sequence < s.sequence := holder first (by simp)
      refine hbehind ?_ front hrest ?_
      · simp [jobs, hidle, hqueued, Nat.ne_of_lt hfirst]
      · intro j hj
        rw [hactive] at hj
        exact holder j (by rw [hidle]; exact hj)
  · have hjob : job.sequence < s.sequence := holder job (by simp [hactive])
    refine hbehind ?_ front (hwaiting.trans hqueued) ?_
    · simp [jobs, hactive, Nat.ne_of_lt hjob]
    · intro j hj
      rcases List.mem_append.1 hj with hj | hj
      · rcases hnext with hnone | ⟨await', hactive'⟩
        · simp [hnone] at hj
        · simp only [hactive', Option.map_some, Option.toList_some, List.mem_singleton] at hj
          rw [hj]
          exact hjob
      · exact holder j (List.mem_append_right _ hj)

end Session

end EmulateComputer
