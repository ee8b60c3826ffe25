import EmulateComputer.Session.LastRequest

/-!
# Runs — every session that can be reached

`Wf` collects the invariants of a session, a request and a turn of the promise chain keep it, and
the facts about whole runs are read off it: one machine at a time, no state change by a superseded
operation, the outcome of the last request once everything has settled, and what disposal leaves
behind.
-/

namespace EmulateComputer

namespace Session

variable {M B E : Type} {s t : Session M B E} {requests : List (Request B E)} {allowSnapshot : Bool}

structure Wf (s : Session M B E) : Prop where
  turn : s.Turn
  disposing : ∀ job ∈ s.jobs, job.operation = .dispose →
    s.closing = true ∧ job.sequence = s.sequence
  awaits : ∀ job, s.active = some (job, .diskDispose) → job.operation = .dispose
  closing : s.closing = true ↔ ∃ n, (requestedIn s.log).head? = some (n, .dispose)
  boots : s.closing = false → s.bootImages = lastImages (requestedIn s.log)
  numbered : s.sequence = (requestedIn s.log).length
  requests : ∀ n operation, .requested n operation ∈ s.log → n ≤ s.sequence
  superseded : s.log.Pairwise Respects
  owns : s.Owns

theorem Turn.sequence_le (h : s.Turn) : ∀ job ∈ s.jobs, job.sequence ≤ s.sequence := by
  intro job hjob
  unfold jobs at hjob
  cases h with
  | ended settled outcome =>
    rw [settled.1, settled.2] at hjob
    cases hjob
  | waits front operation queued last phase older =>
    rw [queued, ← List.append_assoc] at hjob
    rcases List.mem_append.1 hjob with hjob | hjob
    · exact Nat.le_of_lt (older job hjob)
    · exact Nat.le_of_eq (congrArg Job.sequence (List.mem_singleton.1 hjob))
  | runs operation await active alone last stage =>
    rw [active, alone] at hjob
    exact Nat.le_of_eq (congrArg Job.sequence (List.mem_singleton.1 hjob))

theorem Wf.disposesLast (h : s.Wf) : DisposesLast s := by
  intro job hactive
  have hjob : job ∈ s.jobs := by simp [jobs, hactive]
  exact (h.disposing job hjob (h.awaits job hactive)).2

theorem wf_new : Wf ({} : Session M B E) where
  turn := .ended ⟨rfl, rfl⟩ (Or.inl ⟨rfl, rfl⟩)
  disposing := by rintro _ ⟨⟩
  awaits := by rintro _ ⟨⟩
  closing := ⟨by rintro ⟨⟩, by rintro ⟨_, ⟨⟩⟩⟩
  boots _ := rfl
  numbered := rfl
  requests := by rintro _ _ ⟨⟩
  superseded := .nil
  owns := Owns.of_vacant .nil rfl rfl

/-! ## Requests -/

/-- A request that is accepted, with the flag and the images it leaves. -/
theorem wf_accept (h : s.Wf) (hopen : s.closing = false) (operation : Operation B E)
    (images : Option B) (closes : Bool) (hcloses : closes = true ↔ operation = .dispose)
    (hboots : images = lastImages ((s.sequence + 1, operation) :: requestedIn s.log)) :
    Wf { s with
      bootImages := images
      phase := operation.phase
      sequence := s.sequence + 1
      closing := closes
      waiting := s.waiting ++ [Job.mk (s.sequence + 1) operation]
      log := .changed (s.sequence + 1) operation.phase :: .paused ::
        .requested (s.sequence + 1) operation :: s.log } where
  turn := .waits s.waiting operation rfl rfl rfl fun job hjob =>
    Nat.lt_succ_of_le (h.turn.sequence_le job hjob)
  disposing := by
    intro job hjob hdispose
    change job ∈ _ ++ (s.waiting ++ _) at hjob
    rw [← List.append_assoc] at hjob
    rcases List.mem_append.1 hjob with hold | hnew
    · -- A disposing operation already on the chain would have closed the session.
      have hclosing := (h.disposing job hold hdispose).1
      rw [hopen] at hclosing
      cases hclosing
    · cases List.mem_singleton.1 hnew
      exact ⟨hcloses.2 hdispose, rfl⟩
  awaits := h.awaits
  closing := by
    refine hcloses.trans ⟨?_, ?_⟩
    · rintro rfl
      exact ⟨s.sequence + 1, rfl⟩
    · rintro ⟨n, hlast⟩
      cases hlast
      rfl
  boots _ := hboots
  numbered := congrArg (· + 1) h.numbered
  requests := by
    intro n op hmem
    simp only [List.mem_cons, reduceCtorEq, false_or] at hmem
    rcases hmem with heq | hmem
    · cases heq
      exact Nat.le_refl _
    · exact Nat.le_succ_of_le (h.requests n op hmem)
  superseded := by
    refine .cons ?_ (.cons (fun _ _ => trivial) (.cons (fun _ _ => trivial) h.superseded))
    intro e he
    cases e with
    | requested k op =>
      simp only [List.mem_cons, reduceCtorEq, false_or] at he
      rcases he with heq | he
      · cases heq
        exact Nat.le_refl _
      · exact Nat.le_succ_of_le (h.requests k op he)
    | _ => trivial
  owns := ⟨((h.owns.balanced.quiet (.requested _ _) trivial).quiet .paused trivial).quiet
    (.changed _ _) trivial, h.owns.vacant⟩

/-- A closed session only takes note of images. -/
theorem wf_closed (h : s.Wf) (hclosed : s.closing = true) (images : Option B) :
    Wf { s with bootImages := images } :=
  { h with
    turn := by
      cases h.turn with
      | ended settled outcome => exact .ended settled outcome
      | waits front operation queued last phase older =>
        exact .waits front operation queued last phase older
      | runs operation await active alone last stage =>
        refine .runs operation await active alone last ?_
        cases await with
        | settled result => cases result <;> exact stage
        | _ => exact stage
    boots hopen := by
      rw [hclosed] at hopen
      cases hopen
    owns := ⟨h.owns.balanced, h.owns.vacant⟩ }

theorem wf_queue (h : s.Wf) {operation : Operation B E} (hother : operation ≠ .dispose)
    (hboots : s.closing = false →
      s.bootImages = lastImages ((s.sequence + 1, operation) :: requestedIn s.log)) :
    Wf (s.queue operation) := by
  unfold queue
  split
  · exact h
  · rename_i hopen
    have hclosing : s.closing = false := by simpa using hopen
    have hcloses : s.closing = true ↔ operation = .dispose := by simp [hclosing, hother]
    exact wf_accept h hclosing operation s.bootImages s.closing hcloses (hboots hclosing)

theorem wf_boot (h : s.Wf) (images : B) : Wf (s.boot images) := by
  unfold boot queue
  split
  · rename_i hclosed
    exact wf_closed h hclosed (some images)
  · rename_i hopen
    have hclosing : s.closing = false := by simpa using hopen
    exact wf_accept h hclosing (.start images true) (some images) s.closing (by simp [hclosing]) rfl

theorem wf_dispose (h : s.Wf) : Wf s.dispose := by
  unfold dispose queue
  split
  · rename_i hclosed
    have hsame := wf_closed h hclosed s.bootImages
    rw [hclosed] at hsame
    exact hsame
  · rename_i hopen
    have hclosing : s.closing = false := by simpa using hopen
    exact wf_accept h hclosing .dispose s.bootImages true (by simp) (h.boots hclosing)

theorem wf_request (h : s.Wf) (r : Request B E) : Wf (s.request r) := by
  cases r with
  | boot images => exact wf_boot h images
  | restart =>
    simp only [request, restart]
    split
    · exact h
    · rename_i images himages
      exact wf_queue h (by rintro ⟨⟩) fun _ => himages
  | stop | reset | fail error => exact wf_queue h (by rintro ⟨⟩) h.boots
  | dispose => exact wf_dispose h

/-! ## Turns -/

theorem awaits_continues (hstep : Continues s t) :
    ∀ job, t.active = some (job, .diskDispose) → job.operation = .dispose := by
  intro job hactive
  cases hstep with
  | @begin job' rest idle next =>
    unfold begin operate at hactive
    split at hactive
    · split at hactive
      · cases hactive
      · cases hactive
      · cases hactive
      · cases hactive
      · cases hactive
        assumption
    · cases hactive
  | createResolved | createRejected | resetRejected | disposeResolved | disposeRejected =>
    cases hactive
  | publish awaits =>
    unfold publish at hactive
    split at hactive <;> cases hactive
  | resetResolved awaits =>
    unfold afterReset at hactive
    split at hactive
    · split at hactive <;> cases hactive
    · cases hactive
  | @settle job' result awaits =>
    have hnone : (s.settle job' result).active = none := by
      unfold settle
      split
      · rfl
      · dsimp only
        split
        · exact release_active
        · rfl
    rw [hnone] at hactive
    cases hactive

theorem wf_continues (h : s.Wf) (hstep : Continues s t) : t.Wf := by
  have hdispose := h.disposesLast
  have hframe := frame_continues hdispose hstep
  obtain ⟨new, hnew, hrequest, hchanged⟩ := hframe.log
  have hturn : t.Turn := by
    cases h.turn with
    | ended settled outcome => exact absurd hstep settled.not_continues
    | waits front operation queued last phase older =>
      exact turn_of_waits hdispose queued last phase older hstep
    | runs operation await active alone last stage =>
      refine turn_of_runs hdispose active alone last stage ?_ hstep
      rintro rfl
      refine h.boots ?_
      -- A closed session's newest request is the disposal.
      cases hclosing : s.closing with
      | false => rfl
      | true =>
        obtain ⟨n, hn⟩ := h.closing.1 hclosing
        cases last.symm.trans hn
  exact
    { turn := hturn
      disposing := by
        intro job hjob hoperation
        rw [hframe.closing, hframe.sequence]
        exact h.disposing job (jobs_continues hstep job hjob) hoperation
      awaits := awaits_continues hstep
      closing := by
        rw [hframe.closing, hframe.head_eq]
        exact h.closing
      boots := by
        intro hopen
        rw [hframe.closing] at hopen
        rw [hframe.bootImages, hframe.lastImages_eq]
        exact h.boots hopen
      numbered := by
        rw [hframe.sequence, hframe.requestedIn_eq]
        exact h.numbered
      requests := by
        intro n operation hmem
        rw [hnew] at hmem
        rw [hframe.sequence]
        rcases List.mem_append.1 hmem with hmem | hmem
        · exact absurd ⟨n, operation, rfl⟩ (hrequest _ hmem)
        · exact h.requests n operation hmem
      superseded := by
        rw [hnew]
        refine List.pairwise_append.2 ⟨?_, h.superseded, ?_⟩
        · refine List.pairwise_of_forall_mem_list fun a _ b hb => ?_
          cases b with
          | requested k operation => exact absurd ⟨k, operation, rfl⟩ (hrequest _ hb)
          | _ => cases a <;> trivial
        · intro a ha b hb
          cases a with
          | changed n state =>
            cases b with
            | requested k operation =>
              rw [hchanged n state ha]
              exact h.requests k operation hb
            | _ => trivial
          | _ => trivial
      owns := owns_continues h.owns hstep }

theorem wf_of_reachable (h : Reachable s) : s.Wf := by
  induction h with
  | refl => exact wf_new
  | tail _ hstep ih =>
    cases hstep with
    | request r => exact wf_request ih r
    | continues hturn => exact wf_continues ih hturn

/-! ## Whole runs -/

theorem Ends.not {state other : SessionState} (h : s.Ends state) (hne : state ≠ other) :
    s.phase ≠ other :=
  fun hphase => hne (h.1.symm.trans hphase)

theorem Started.running {n : Nat} {images : B}
    (h : s.Started n images allowSnapshot) (hrunning : s.phase = .running) : s.current.isSome := by
  rcases h with ⟨m, -, -, hcurrent⟩ | ⟨error, -, hends⟩
  · rw [hcurrent]
    rfl
  · exact absurd hrunning (hends.not nofun)

theorem Started.not_disposed {n : Nat} {images : B}
    (h : s.Started n images allowSnapshot) : s.phase ≠ .disposed := by
  rcases h with ⟨m, -, hphase, -⟩ | ⟨error, -, hends⟩
  · rw [hphase]
    nofun
  · exact hends.not nofun

/-- What the newest request led to runs only with a machine, and is disposed only by `dispose`. -/
theorem Demanded.sound (h : s.Demanded (requestedIn s.log)) :
    (s.phase = .running → s.current.isSome) ∧
      (s.phase = .disposed → ∃ n, (requestedIn s.log).head? = some (n, .dispose)) := by
  have hidle {state : SessionState} (hends : s.Ends state) (hrun : state ≠ .running)
      (hdisposed : state ≠ .disposed) :
      (s.phase = .running → s.current.isSome) ∧
        (s.phase = .disposed → ∃ n, (requestedIn s.log).head? = some (n, .dispose)) :=
    ⟨fun h => absurd h (hends.not hrun), fun h => absurd h (hends.not hdisposed)⟩
  unfold Demanded at h
  cases hlast : (requestedIn s.log).head? with
  | none =>
    rw [hlast] at h hidle
    exact hidle h nofun nofun
  | some request =>
    obtain ⟨n, operation⟩ := request
    rw [hlast] at h hidle
    cases operation with
    | start images allowSnapshot =>
      exact ⟨h.running, fun hdisposed => absurd hdisposed h.not_disposed⟩
    | stop => exact hidle h nofun nofun
    | reset =>
      rcases h with ⟨error, -, hends⟩ | ⟨-, ⟨-, hends⟩ | ⟨images, -, hstarted⟩⟩
      · exact hidle hends nofun nofun
      · exact hidle hends nofun nofun
      · exact ⟨hstarted.running, fun hdisposed => absurd hdisposed hstarted.not_disposed⟩
    | fail error => exact hidle h nofun nofun
    | dispose => exact ⟨fun hrunning => absurd hrunning (h.not nofun), fun _ => ⟨n, rfl⟩⟩

theorem Outcome.sound (h : s.Outcome) :
    (s.phase = .running → s.current.isSome) ∧
      (s.phase = .disposed → ∃ n, (requestedIn s.log).head? = some (n, .dispose)) := by
  rcases h with h | ⟨n, error, -, -, hends⟩
  · exact h.sound
  · exact ⟨fun hrunning => absurd hrunning (hends.not nofun),
      fun hdisposed => absurd hdisposed (hends.not nofun)⟩

theorem Operation.phase_sound (operation : Operation B E) :
    operation.phase ≠ .running ∧ operation.phase ≠ .disposed := by
  cases operation <;> exact ⟨nofun, nofun⟩

theorem Turn.running (h : s.Turn) (hrunning : s.phase = .running) : s.current.isSome := by
  cases h with
  | ended settled outcome => exact outcome.sound.1 hrunning
  | waits front operation queued last phase older =>
    exact absurd (phase.symm.trans hrunning) operation.phase_sound.1
  | runs operation await active alone last stage =>
    cases await with
    | create images allowSnapshot | candidate images allowSnapshot m =>
      exact nomatch stage.1.symm.trans hrunning
    | diskReset | diskDispose => exact absurd hrunning (stage.2.not nofun)
    | settled result =>
      cases result with
      | ok _ => exact Outcome.sound stage |>.1 hrunning
      | error error => exact absurd hrunning stage.1

/-- A disposed session whose disk did not refuse is over, up to the end of its last job. -/
theorem Turn.disposed (h : s.Turn) (hdisposed : s.phase = .disposed)
    (hkept : ∀ n error, .disposeRejected n error ∉ s.log) :
    (∃ n, (requestedIn s.log).head? = some (n, .dispose)) ∧ s.waiting = [] ∧
      (s.active = none ∨ ∃ job, s.active = some (job, .settled (.ok ()))) := by
  cases h with
  | ended settled outcome =>
    exact ⟨outcome.sound.2 hdisposed, settled.2, Or.inl settled.1⟩
  | waits front operation queued last phase older =>
    exact absurd (phase.symm.trans hdisposed) operation.phase_sound.2
  | runs operation await active alone last stage =>
    cases await with
    | create images allowSnapshot | candidate images allowSnapshot m =>
      exact nomatch stage.1.symm.trans hdisposed
    | diskReset | diskDispose => exact absurd hdisposed (stage.2.not nofun)
    | settled result =>
      cases result with
      | ok _ => exact ⟨(Outcome.sound stage).2 hdisposed, alone, Or.inr ⟨_, active⟩⟩
      | error error => exact absurd (stage.2.1 hdisposed) (hkept _ error)

theorem Turn.outcome (h : s.Turn) (hsettled : s.Settled) : s.Outcome := by
  cases h with
  | ended settled outcome => exact outcome
  | waits front operation queued last phase older =>
    rw [hsettled.2] at queued
    simp at queued
  | runs operation await active alone last stage =>
    rw [hsettled.1] at active
    cases active

/-- A closed session refuses every request. -/
theorem closed_request (hclosing : s.closing = true) (r : Request B E) :
    ∃ images, s.request r = { s with bootImages := images } := by
  have hqueue (operation : Operation B E) : s.queue operation = s := by
    unfold queue
    rw [if_pos hclosing]
  cases r with
  | boot images =>
    refine ⟨some images, ?_⟩
    simp only [request, boot, queue, hclosing, if_true]
  | restart =>
    refine ⟨s.bootImages, ?_⟩
    simp only [request, restart]
    split
    · rfl
    · exact hqueue _
  | stop | reset | fail error => exact ⟨s.bootImages, hqueue _⟩
  | dispose =>
    refine ⟨s.bootImages, ?_⟩
    simp only [request, dispose, hqueue, hclosing]

/-- After disposal only requests arrive. -/
theorem closed_steps (hsettled : s.Settled) (hclosing : s.closing = true)
    (hsteps : Relation.ReflTransGen Step s t) :
    t.Settled ∧ t.closing = true ∧ t.log = s.log ∧ t.current = s.current := by
  induction hsteps with
  | refl => exact ⟨hsettled, hclosing, rfl, rfl⟩
  | tail _ hstep ih =>
    obtain ⟨hsettled', hclosing', hlog, hcurrent⟩ := ih
    cases hstep with
    | request r =>
      obtain ⟨images, heq⟩ := closed_request hclosing' r
      rw [heq]
      exact ⟨hsettled', hclosing', hlog, hcurrent⟩
    | continues hturn => exact absurd hturn hsettled'.not_continues

theorem Request.closes_iff (r : Request B E) : r.closes = true ↔ r = .dispose := by
  cases r <;> simp [Request.closes]

theorem any_closes_iff : requests.any Request.closes = true ↔ .dispose ∈ requests := by
  simp [Request.closes_iff]

/-- An open session takes a request as `Request.operation` says. -/
theorem open_request (h : s.Wf) (hopen : s.closing = false) (r : Request B E) :
    (s.request r).closing = r.closes ∧
      requestedIn (s.request r).log =
        ((r.operation (lastImages (requestedIn s.log))).map fun operation =>
          ((requestedIn s.log).length + 1, operation)).toList ++ requestedIn s.log := by
  rw [← h.boots hopen, ← h.numbered]
  cases r with
  | restart =>
    cases himages : s.bootImages <;>
      simp [request, restart, queue, transition, requestedIn, Request.closes, Request.operation,
        himages, hopen]
  | _ =>
    simp [request, boot, stop, reset, fail, dispose, queue, transition, requestedIn,
      Request.closes, Request.operation, hopen]

/-- The requests that were made decide which operations the session takes, and when it closes. -/
theorem accepted_of_reaches (h : Reaches requests s) :
    s.closing = requests.any Request.closes ∧ requestedIn s.log = accepted requests := by
  induction h with
  | new => exact ⟨rfl, rfl⟩
  | @request requests s h r ih =>
    obtain ⟨hclosing, hasked⟩ := ih
    rw [accepted, List.any_cons, ← hclosing, ← hasked]
    cases hclosed : s.closing with
    | true =>
      obtain ⟨images, heq⟩ := closed_request hclosed r
      rw [heq, Bool.or_true]
      exact ⟨hclosed, rfl⟩
    | false =>
      rw [Bool.or_false]
      exact open_request (wf_of_reachable h.reachable) hclosed r
  | continues h hturn ih =>
    have hframe := frame_continues (wf_of_reachable h.reachable).disposesLast hturn
    rw [hframe.closing, hframe.requestedIn_eq]
    exact ih

/-- Whatever is requested and whatever the promises settle to: at most one machine is alive at any
point; every machine is destroyed once, but for the one held; the session runs only with a machine;
the operations are those that the requests lead to, and no superseded one changes the state; once
everything has settled the last of them has been met; and nothing is alive or created after a
disposal.  `Demanded` asks a disposed session of a disposal, which needs the disk's own promise not
to reject. -/
theorem lifecycle_of_reaches {requests : List (Request B E)} (h : Reaches requests s) :
    (∀ past, past <:+ s.log → (createdIn past).length ≤ (destroyedIn past).length + 1) ∧
      ((createdIn s.log).Perm (destroyedIn s.log ++ (s.current.toList ++ s.candidate.toList)) ∧
        (s.current = none ∨ s.candidate = none)) ∧
      (s.phase = .running → s.current.isSome) ∧
      (requestedIn s.log = accepted requests ∧ s.log.Pairwise Respects) ∧
      (s.Settled → (∀ n error, .disposeRejected n error ∉ s.log) →
        s.Demanded (accepted requests)) ∧
      (s.Settled → .dispose ∈ requests → ∀ t, Relation.ReflTransGen Step s t →
        t.current = none ∧ (createdIn t.log).Perm (destroyedIn t.log) ∧
          createdIn t.log = createdIn s.log) := by
  have hwf := wf_of_reachable h.reachable
  obtain ⟨hany, hasked⟩ := accepted_of_reaches h
  have hone : s.current = none ∨ s.candidate = none := by
    cases hactive : s.active with
    | none =>
      right
      unfold candidate
      rw [hactive]
      rfl
    | some a =>
      obtain ⟨job, await⟩ := a
      cases await with
      | candidate images allowSnapshot m => exact Or.inl (hwf.owns.vacant _ _ hactive trivial)
      | _ => exact Or.inr (candidate_of_active hactive)
  refine ⟨hwf.owns.balanced.single, ⟨hwf.owns.balanced.perm, hone⟩, hwf.turn.running,
    ⟨hasked, hwf.superseded⟩, ?_, ?_⟩
  · intro hsettled hkept
    rw [← hasked]
    rcases hwf.turn.outcome hsettled with hdemanded | ⟨n, error, -, hrejected, -⟩
    · exact hdemanded
    · exact absurd hrejected (hkept n error)
  · intro hsettled hdispose t hsteps
    have hclosing : s.closing = true := hany.trans (any_closes_iff.2 hdispose)
    obtain ⟨-, -, hlog, hcurrent⟩ := closed_steps hsettled hclosing hsteps
    have hnone : s.current = none := by
      obtain ⟨n, hlast⟩ := hwf.closing.1 hclosing
      rcases hwf.turn.outcome hsettled with hdemanded | ⟨n, error, -, -, hends⟩
      · unfold Demanded at hdemanded
        rw [hlast] at hdemanded
        exact hdemanded.2
      · exact hends.2
    have hperm := hwf.owns.balanced.perm
    have hcandidate : s.candidate = none := by
      unfold candidate
      rw [hsettled.1]
      rfl
    rw [hnone, hcandidate] at hperm
    rw [hlog, hcurrent]
    exact ⟨hnone, by simpa using hperm, rfl⟩

/-- A `restart` comes before anything has booted and is ignored.  A `stop` supersedes the boot after
it, whose machine is destroyed.  Then the session is disposed and ignores one more `boot`. -/
theorem lifecycle_stop_dispose :
    ∃ s : Session Nat Nat Nat, Reaches [.boot 20, .dispose, .stop, .boot 10, .restart] s ∧
      s.Settled ∧ destroyedIn s.log = [1] ∧
      requestedIn s.log = [(3, .dispose), (2, .stop), (1, .start 10 true)] ∧
      s.phase = .disposed ∧ ∀ t, Relation.ReflTransGen Step s t →
        t.current = none ∧ createdIn t.log = [1] := by
  have hrun : Reaches (M := Nat) (B := Nat) (E := Nat)
      [.boot 20, .dispose, .stop, .boot 10, .restart] _ :=
    ((((((((((((Reaches.new.request .restart).request (.boot 10)).continues
      (.begin rfl rfl)).request .stop).continues
      (.createResolved 1 rfl)).continues
      (.publish rfl)).continues
      (.settle rfl)).continues
      (.begin rfl rfl)).continues
      (.settle rfl)).request .dispose).request (.boot 20)).continues
      (.begin rfl rfl)).continues
      (.disposeResolved rfl) |>.continues (.settle rfl)
  obtain ⟨-, -, -, ⟨hasked, -⟩, hdemanded, hdisposed⟩ := lifecycle_of_reaches hrun
  refine ⟨_, hrun, ⟨rfl, rfl⟩, rfl, hasked, ?_, ?_⟩
  · refine (hdemanded ⟨rfl, rfl⟩ ?_).1
    intro n error hmem
    simp [request, boot, restart, stop, dispose, queue, transition, begin, operate, start, publish,
      settle, release, note, suspend, afterDispose] at hmem
  · intro t hsteps
    obtain ⟨hcurrent, -, hcreated⟩ := hdisposed ⟨rfl, rfl⟩ (by simp) t hsteps
    exact ⟨hcurrent, hcreated⟩

/-! ## Progress -/

/-- How many turns an operation at this await still has at most. -/
def Await.work : Await M B E → Nat
  | .settled _ => 1
  | .candidate _ _ _ => 2
  | .diskDispose => 2
  | .create _ _ => 3
  | .diskReset => 4

def work (s : Session M B E) : Nat :=
  5 * s.waiting.length + s.active.elim 0 fun a => a.2.work

theorem work_lt_of_continues (hstep : Continues s t) : t.work < s.work := by
  cases hstep with
  | @begin job rest idle next =>
    unfold work begin operate
    rw [idle, next, List.length_cons]
    split
    · split <;> simp [start, suspend, note, transition, Await.work] <;> omega
    · simp [suspend, Await.work]
      omega
  | createResolved _ awaits | createRejected _ awaits | resetRejected _ awaits =>
    simp [work, suspend, note, awaits, Await.work]
  | publish awaits =>
    unfold publish
    split <;> simp [work, suspend, note, transition, awaits, Await.work]
  | resetResolved awaits =>
    unfold afterReset
    split
    · split <;> simp [work, start, suspend, note, transition, awaits, Await.work]
    · simp [work, suspend, note, awaits, Await.work]
  | disposeResolved awaits | disposeRejected _ awaits =>
    simp [work, afterDispose, transition, suspend, note, awaits, Await.work]
  | settle awaits =>
    unfold settle
    split
    · simp [work, awaits, Await.work]
    · dsimp only
      split <;> simp [work, transition, note, awaits, Await.work]

/-- However the promises settle, a session without further requests takes at most five turns for
every operation that waits and four for the one under way, and it can go on until it has settled. -/
theorem turns_le [Nonempty M] {turns : List (Session M B E)}
    (hturns : List.IsChain Continues (s :: turns)) :
    turns.length ≤ 5 * s.waiting.length + 4 ∧
      ((turns.getLast?.getD s).Settled ∨ ∃ t, Continues (turns.getLast?.getD s) t) := by
  have hwork : turns.length ≤ s.work := by
    induction turns generalizing s with
    | nil => exact Nat.zero_le _
    | cons t turns ih =>
      obtain ⟨hstep, hrest⟩ := List.isChain_cons_cons.1 hturns
      exact Nat.lt_of_le_of_lt (ih hrest) (work_lt_of_continues hstep)
  have hactive : (s.active.elim 0 fun a => a.2.work) ≤ 4 := by
    rcases s.active with _ | ⟨_, await⟩
    · exact Nat.zero_le 4
    · cases await <;> simp [Await.work]
  refine ⟨Nat.le_trans hwork (Nat.add_le_add_left hactive _), ?_⟩
  rw [settled_iff_not_continues, or_comm, ← not_exists]
  exact Classical.em _

/-- A boot whose promise resolves has settled after four turns. -/
theorem turns_le_boot :
    ∃ turns, List.IsChain Continues (({} : Session Nat Nat Nat).boot 1 :: turns) ∧
      turns.length = 4 ∧ 4 ≤ 5 * (({} : Session Nat Nat Nat).boot 1).waiting.length + 4 ∧
      ∃ s ∈ turns.getLast?, s.Settled ∧ s.current = some 7 := by
  have hturns : List.IsChain Continues (({} : Session Nat Nat Nat).boot 1 :: _) :=
    .cons_cons (.begin rfl rfl) (.cons_cons (.createResolved 7 rfl) (.cons_cons (.publish rfl)
      (.cons_cons (.settle rfl) (.singleton _))))
  obtain ⟨hlength, hlast⟩ := turns_le hturns
  refine ⟨_, hturns, rfl, hlength, _, rfl, ?_, rfl⟩
  exact hlast.resolve_right fun ⟨_, hnext⟩ => Settled.not_continues ⟨rfl, rfl⟩ hnext

/-! ## Disposal -/

theorem log_step (h : s.Wf) (hstep : Step s t) : ∀ e ∈ s.log, e ∈ t.log := by
  intro e he
  cases hstep with
  | continues hturn => exact (frame_continues h.disposesLast hturn).mem_log he
  | request r =>
    have hqueue (u : Session M B E) (hu : u.log = s.log) (operation : Operation B E) :
        e ∈ (u.queue operation).log := by
      unfold queue
      split
      · rwa [hu]
      · change e ∈ _ :: _ :: _ :: u.log
        rw [hu]
        simp [he]
    cases r with
    | boot images => exact hqueue { s with bootImages := some images } rfl _
    | restart =>
      simp only [request, restart]
      split
      · exact he
      · exact hqueue s rfl _
    | stop | reset | fail error | dispose => exact hqueue s rfl _

theorem disposed_step (h : s.Wf) (hkept : ∀ n error, .disposeRejected n error ∉ s.log)
    (hdisposed : s.phase = .disposed) (hstep : Step s t) : t.phase = .disposed := by
  obtain ⟨hlast, hwaiting, hactive⟩ := h.turn.disposed hdisposed hkept
  cases hstep with
  | request r =>
    obtain ⟨images, heq⟩ := closed_request (h.closing.2 hlast) r
    rw [heq]
    exact hdisposed
  | continues hturn =>
    -- All that is left is the end of the disposing operation.
    rcases hactive with hnone | ⟨job, hactive⟩
    · exact absurd hturn (Settled.not_continues ⟨hnone, hwaiting⟩)
    · cases hturn with
      | begin idle next =>
        rw [hactive] at idle
        cases idle
      | settle awaits =>
        cases hactive.symm.trans awaits
        exact hdisposed
      | createResolved _ awaits | createRejected _ awaits | publish awaits
      | resetResolved awaits | resetRejected _ awaits | disposeResolved awaits
      | disposeRejected _ awaits =>
        cases hactive.symm.trans awaits

theorem reachable_steps (h : Reachable s) (hsteps : Relation.ReflTransGen Step s t) : Reachable t :=
  Relation.ReflTransGen.trans h hsteps

/-- As long as the disk's `dispose` promise does not reject, a disposed session stays disposed, and
it is disposed by the time the promise of `dispose` has settled. -/
theorem disposed_final_of_kept (hs : Reachable s) (hsteps : Relation.ReflTransGen Step s t)
    (hkept : ∀ n error, .disposeRejected n error ∉ t.log) :
    (s.phase = .disposed → t.phase = .disposed) ∧
      (t.closing = true → t.Settled → t.phase = .disposed) := by
  constructor
  · intro hdisposed
    induction hsteps with
    | refl => exact hdisposed
    | @tail u v hsteps hstep ih =>
      have hwf := wf_of_reachable (reachable_steps hs hsteps)
      have hkept' (n : Nat) (error : E) : .disposeRejected n error ∉ u.log :=
        fun hmem => hkept n error (log_step hwf hstep _ hmem)
      exact disposed_step hwf hkept' (ih hkept') hstep
  · intro hclosing hsettled
    have hwf := wf_of_reachable (reachable_steps hs hsteps)
    obtain ⟨n, hlast⟩ := hwf.closing.1 hclosing
    rcases hwf.turn.outcome hsettled with hdemanded | ⟨n, error, -, hrejected, -⟩
    · unfold Demanded at hdemanded
      rw [hlast] at hdemanded
      exact hdemanded.1
    · exact absurd hrejected (hkept n error)

/-- A disposal whose disk promise resolves. -/
theorem disposed_final_resolved :
    ∃ s t : Session Nat Nat Nat, Reachable s ∧ Relation.ReflTransGen Step s t ∧
      s.phase = .disposed ∧ t.closing = true ∧ t.Settled ∧ t.phase = .disposed := by
  have hrun : Reachable (M := Nat) (B := Nat) (E := Nat) _ :=
    ((Relation.ReflTransGen.refl.tail (.request _ .dispose)).tail
      (.continues (.begin rfl rfl))).tail (.continues (.disposeResolved rfl))
  refine ⟨_, _, hrun, .single (.continues (.settle rfl)), rfl, rfl, ⟨rfl, rfl⟩, ?_⟩
  refine (disposed_final_of_kept hrun (.single (.continues (.settle rfl))) ?_).2 rfl ⟨rfl, rfl⟩
  intro n error hmem
  simp [request, dispose, queue, transition, begin, operate, settle, release, note, suspend,
    afterDispose] at hmem

/-- When the disk's promise rejects, the `finally` of `dispose` enters the disposed state and the
rejection handler of `queue`, which is still current, leaves it for the failed one. -/
theorem rejected_disposal_fails :
    ∃ s t : Session Nat Nat Nat, Reachable s ∧ Relation.ReflTransGen Step s t ∧
      s.phase = .disposed ∧ t.closing = true ∧ t.Settled ∧ t.phase = .failed := by
  have hrun : Reachable (M := Nat) (B := Nat) (E := Nat) _ :=
    ((Relation.ReflTransGen.refl.tail (.request _ .dispose)).tail
      (.continues (.begin rfl rfl))).tail (.continues (.disposeRejected 5 rfl))
  exact ⟨_, _, hrun, .single (.continues (.settle rfl)), rfl, rfl, ⟨rfl, rfl⟩, rfl⟩

end Session

end EmulateComputer
