import TaskRelay.Demo
import TaskRelay.Proofs.Parallel.Course
import TaskRelay.Proofs.Run.Session

/-!
# The demonstration pipelines complete

A run of the geocoder goes through its phases one after the other, and waits for the replicas in the
end; one of the export starts a job and asks for it.  Neither depends on which headers are carried
from task to task, since a step hands on what it writes to the task that follows.

What a run leaves behind is fit for the next one.  The replicas are counted from zero on by every
rollout: the first one finds no deployment and no replicas, and all later ones update the
deployment, which starts the replicas anew.
-/

namespace TaskRelay.Demo

/-! ## Loading -/

namespace Loading

open Parallel

/-- How a branch stands that loads its units and has not been told to stop. -/
def IsAtWork : Stage → Prop
  | .running _ program => ∃ units, program = load units ∨ program = .work unitDuration (load units)
  | .ended ending => ending = .ok
  | .joined ending => ending = .ok

/-- Nobody has raised the flag, or has a reason to. -/
structure Peaceful (run : Run) : Prop where
  flag_eq : run.flag = .building
  atWork : ∀ b ∈ run.branches, IsAtWork b.stage

variable {run next : Run} {i : Nat}

theorem peaceful_start (now : Nat) {branches : List Branch}
    (h : ∀ b ∈ branches, ∃ units, b.program = load units) : Peaceful (.start now branches) where
  flag_eq := rfl
  atWork := by
    intro s hs
    obtain ⟨b, hb, rfl⟩ := List.mem_map.1 hs
    obtain ⟨units, hunits⟩ := h b hb
    exact ⟨units, .inl hunits⟩

theorem Peaceful.moveOn? (h : Peaceful run) (hmove : run.moveOn? i = some next) :
    Peaceful next := by
  have hset : ∀ {s : BranchState}, IsAtWork s.stage → ∀ b ∈ run.branches.set i s,
      IsAtWork b.stage := by
    intro s hs b hb
    rcases List.mem_or_eq_of_mem_set hb with hb | rfl
    · exact h.atWork b hb
    · exact hs
  rcases Run.moveOn?_cases hmove with ⟨s, since, program, hs, hstage, rfl⟩ |
    ⟨s, ending, hs, hstage, rfl⟩
  · have hatWork := h.atWork s (List.mem_of_getElem? hs)
    rw [hstage] at hatWork
    obtain ⟨units, rfl | rfl⟩ := hatWork
    · cases units with
      | zero => exact ⟨h.flag_eq, hset rfl⟩
      | succ units =>
        refine ⟨h.flag_eq, hset ?_⟩
        simp only [BranchState.act, Checkpoint.proceed, h.flag_eq]
        exact ⟨units, .inr rfl⟩
    · exact ⟨h.flag_eq, hset ⟨units, .inl rfl⟩⟩
  · have hatWork := h.atWork s (List.mem_of_getElem? hs)
    rw [hstage] at hatWork
    cases hatWork
    exact ⟨h.flag_eq, hset rfl⟩

theorem Peaceful.course {history : History} (h : Peaceful run) (hcourse : Parallel.Course run history next) :
    Peaceful next := by
  induction hcourse with
  | start => exact h
  | @move history mid next i t _ hmove ih =>
    have hmid : Peaceful { mid with now := t } := ⟨ih.flag_eq, ih.atWork⟩
    exact hmid.moveOn? hmove

/-- Branches that only load are done in the end. -/
theorem reply_attempt {branches : List Branch} (h : ∀ b ∈ branches, ∃ units, b.program = load units)
    (context : Context) : (attempt branches context).reply = .outcome .done := by
  obtain ⟨history, hcourse, -⟩ := course_finish (.start 0 branches)
  have hflag := ((peaceful_start 0 h).course hcourse).flag_eq
  show reply _ (Run.report _) = _
  rw [reply, Run.report, Run.ofBranches, hflag]
  rfl

end Loading

/-! ## The calls of a run -/

/-- A step that asks for a job is told which one. -/
def FindsJob (context : Context) : Prop :=
  context.task.destination = exportPoll → (context.header? exportJobHeader).isSome = true

namespace Kind

/-- The tasks that are called once, in their order. -/
def errands : Kind → List Task
  | .geocoder =>
    [{ phase := "DOWNLOAD", destination := download },
      { phase := "CONVERT", destination := convert },
      { phase := "CONVERT", subStep := 1, destination := convert },
      { phase := "CONVERT", subStep := 2, destination := convert },
      { phase := "INDEX", destination := index },
      { phase := "DEPLOY", destination := rollout }]
  | .exporting => [{ phase := "EXPORT", destination := exportStart }]

/-- The task that waits for something, whose step wants to see it twice more. -/
def waiting : Kind → Task
  | .geocoder => { phase := "DEPLOY", subStep := 1, destination := rollout }
  | .exporting => { phase := "EXPORT", destination := exportPoll }

/-- What is seen of a run after its trigger. -/
def glimpses (k : Kind) (p : Pipeline) : List Glimpse :=
  k.errands.flatMap Task.errand ++ (k.waiting.opening ++ k.waiting.polling p 2 0)

def iterations (k : Kind) (p : Pipeline) : Nat :=
  k.errands.length + Task.polls p 2 0

/-- A state with which a run can start. -/
def Fit : Kind → State → Prop
  | .geocoder, state => state.deployments.contains deployment = true ∨ state.ready = 0
  | .exporting, _ => True

end Kind

/-! ## Single steps -/

section Steps

variable {k : Kind} {d : Destination} {step : Step State} {p : Pipeline} {r : PlainRun State}
  {t first following : Task} {edits : List Context.Edit} {n : Nat} {glimpses : List Glimpse}
  {Left : State → Prop}

theorem invoke_of_get? (h : k.registry.get? d = some step) {context : Context}
    (hcontext : context.task.destination = d) (state : State) :
    k.registry.service.invoke context state = step context state := by
  simp only [Registry.service, hcontext, h]

theorem errand_eq (h : first.IsFollowUp edits t) (hfirst : first.loopCounter = 0) :
    t.errand = first.errand := by
  rw [Task.errand, Task.errand, h.opening_eq hfirst, h.destination_eq, h.subStep_eq]

/-- A registered step that lets another task follow. -/
theorem completes_errand (following : Task) (h : r.HasOnly t) (ht : first.IsFollowUp edits t)
    (hfirst : first.loopCounter = 0) (hget : k.registry.get? first.destination = some step)
    (hpoll : first.destination ≠ exportPoll)
    (hreply : ∀ context : Context, context.task = t →
      (step context r.state).1.reply = .outcome .done)
    (hfollowing : ∀ context : Context, context.task = t →
      Context.scheduled? (step context r.state).1.edits = some following)
    (hlater : ∀ (context : Context) (next : PlainRun State) (t' : Task), context.task = t →
      next.HasOnly t' → following.IsFollowUp (step context r.state).1.edits t' →
      next.state = (step context r.state).2 →
      next.Completes p k.registry.service n glimpses FindsJob Left) :
    r.Completes p k.registry.service (n + 1) (first.errand ++ glimpses) FindsJob Left := by
  have hdestination : (r.callFor p k.registry.service t).context.task.destination =
      first.destination := ht.destination_eq
  have hinvoke := invoke_of_get? hget hdestination r.state
  have hattempt : (r.callFor p k.registry.service t).attempt =
      (step (r.callFor p k.registry.service t).context r.state).1 := congrArg Prod.fst hinvoke
  have hleaves : r.leaves p k.registry.service =
      (step (r.callFor p k.registry.service t).context r.state).2 :=
    (h.leaves_eq p _).trans (congrArg Prod.snd hinvoke)
  rw [← errand_eq ht hfirst]
  refine PlainRun.Completes.errand following h ht.loopCounter_eq ?_ ?_ ?_ ?_
  · rw [hattempt]
    exact hreply _ rfl
  · rw [hattempt]
    exact hfollowing _ rfl
  · intro hasks
    exact absurd (hdestination.symm.trans hasks) hpoll
  · rw [hattempt, hleaves]
    exact fun next t' => hlater _ next t' rfl

/-! ## The geocoder -/

/-- Some more replicas are to become ready, one after the other. -/
structure AwaitsReplicas (again : Nat) (t : Task) (state : State) : Prop where
  destination_eq : t.destination = rollout
  subStep_eq : t.subStep = 1
  deployed : state.deployments.contains deployment = true
  ready_eq : state.ready + again = 2

theorem invoke_rollout {again : Nat} {state : State} (h : AwaitsReplicas again t state)
    (attributes : Headers) (id : String) :
    Kind.geocoder.registry.service.invoke (Context.rehydrate t attributes id) state =
      ({ edits := [.setHeader replicasHeader
            ((state.ready + 1).repr ++ "/" ++ targetReplicas.repr)]
         reply := .outcome (if again = 0 then .done else .reschedule) },
        { state with ready := state.ready + 1 }) := by
  have hsubStep : (Context.rehydrate t attributes id).task.subStep ≠ 0 := by
    show t.subStep ≠ 0
    rw [h.subStep_eq]
    decide
  have hready := h.ready_eq
  have htarget : (state.ready + 1 < targetReplicas) ↔ ¬ again = 0 := by
    rw [targetReplicas]
    omega
  have hget : Kind.geocoder.registry.get? rollout = some rolloutStep := rfl
  rw [invoke_of_get? hget h.destination_eq, rolloutStep, if_neg hsubStep]
  simp only [htarget, ite_not]

theorem waits_rollout : PlainRun.Waits Kind.geocoder.registry.service AwaitsReplicas FindsJob
    (Kind.Fit .geocoder) where
  reply h attributes id := by rw [invoke_rollout h]
  followUp h attributes id := by
    rw [invoke_rollout h]
    rfl
  again h attributes id hback := by
    rw [invoke_rollout h]
    have hready := h.ready_eq
    exact ⟨hback.destination_eq.trans h.destination_eq, hback.subStep_eq.trans h.subStep_eq,
      h.deployed, by simp only; omega⟩
  sees h attributes id hdestination := by
    have hrollout : (Context.rehydrate _ attributes id).task.destination = rollout :=
      h.destination_eq
    rw [hrollout] at hdestination
    exact absurd hdestination (by decide)
  left h attributes id := by
    rw [invoke_rollout h]
    exact .inl h.deployed

/-- The deployment is there in the end, and no replica is ready yet. -/
theorem upsert_deployment {state : State} (h : Kind.Fit .geocoder state) :
    ∃ done after, cluster.upsert deployment state = (.ok done, after) ∧
      after.deployments.contains deployment = true ∧ after.ready = 0 := by
  rw [UpsertTarget.upsert, cluster]
  cases hcontains : state.deployments.contains deployment with
  | true =>
    simp only [hcontains, if_true]
    exact ⟨_, _, rfl, hcontains, rfl⟩
  | false =>
    rcases h with hdeployed | hready
    · rw [hcontains] at hdeployed
      cases hdeployed
    · simp only [hcontains, Bool.false_eq_true, if_false]
      exact ⟨_, _, rfl, by simp, hready⟩

theorem completes_deploying (p : Pipeline) (h : r.HasOnly t)
    (ht : Task.IsFollowUp edits { phase := "DEPLOY", destination := rollout } t)
    (hfit : Kind.Fit .geocoder r.state) :
    r.Completes p Kind.geocoder.registry.service (Task.polls p 2 0 + 1)
      (Task.errand { phase := "DEPLOY", destination := rollout } ++
        Kind.geocoder.waiting.polling p 2 0) FindsJob (Kind.Fit .geocoder) := by
  obtain ⟨done, after, hupsert, hdeployed, hready⟩ := upsert_deployment hfit
  have hstep : ∀ context : Context, context.task = t → rolloutStep context r.state =
      ({ edits := [.scheduleFollowUp t.nextSubStep], reply := .outcome .done }, after) := by
    intro context hcontext
    rw [rolloutStep, hcontext, if_pos ht.subStep_eq, hupsert]
  have hnext : t.nextSubStep = Kind.geocoder.waiting := by
    rw [Task.nextSubStep, ht.phase_eq, ht.destination_eq, ht.subStep_eq]
    rfl
  have hget : Kind.geocoder.registry.get? rollout = some rolloutStep := rfl
  refine completes_errand Kind.geocoder.waiting h ht rfl hget (by decide) ?_ ?_ ?_
  · intro context hcontext
    rw [hstep context hcontext]
  · intro context hcontext
    rw [hstep context hcontext, ← hnext]
    rfl
  · intro context next t' hcontext hone hwaiting hstate
    rw [hstep context hcontext] at hstate
    have hat : AwaitsReplicas 2 t' next.state :=
      ⟨hwaiting.destination_eq, hwaiting.subStep_eq, by rw [hstate]; exact hdeployed,
        by rw [hstate]; exact congrArg (· + 2) hready⟩
    have hcompletes := waits_rollout.completes (p := p) hone hat
      (by rw [hwaiting.loopCounter_eq]; decide)
    rw [hwaiting.loopCounter_eq, hwaiting.opening_eq rfl,
      Task.polling_congr hwaiting.destination_eq hwaiting.subStep_eq] at hcompletes
    exact hcompletes

theorem completes_indexing (p : Pipeline) (h : r.HasOnly t)
    (ht : Task.IsFollowUp edits { phase := "INDEX", destination := index } t)
    (hfit : Kind.Fit .geocoder r.state) :
    r.Completes p Kind.geocoder.registry.service (Task.polls p 2 0 + 2)
      (Task.errand { phase := "INDEX", destination := index } ++
        (Task.errand { phase := "DEPLOY", destination := rollout } ++
          Kind.geocoder.waiting.polling p 2 0)) FindsJob (Kind.Fit .geocoder) := by
  have hreply : ∀ context : Context, (indexStep context r.state).1.reply = .outcome .done := by
    intro context
    refine Loading.reply_attempt (fun b hb => ?_) context
    obtain ⟨⟨name, units⟩, -, rfl⟩ := List.mem_map.1 hb
    exact ⟨units, rfl⟩
  have hget : Kind.geocoder.registry.get? index = some indexStep := rfl
  refine completes_errand { phase := "DEPLOY", destination := rollout } h ht rfl hget (by decide)
    (fun context _ => hreply context) ?_ ?_
  · intro context _
    have hedits : (indexStep context r.state).1.edits =
        [.scheduleFollowUp { phase := "DEPLOY", destination := rollout }] :=
      if_pos (hreply context)
    rw [hedits]
    rfl
  · intro context next t' _ hone hdeploy hstate
    exact completes_deploying p hone hdeploy (by rw [hstate]; exact hfit)

theorem completes_converting {subStep : UInt32} (h : r.HasOnly t)
    (ht : Task.IsFollowUp edits { phase := "CONVERT", subStep, destination := convert } t)
    (hfollowing : following = if subStep + 1 < convertSubSteps then
      { phase := "CONVERT", subStep := subStep + 1, destination := convert }
      else { phase := "INDEX", destination := index })
    (hlater : ∀ (edits : List Context.Edit) (next : PlainRun State) (t' : Task), next.HasOnly t' →
      following.IsFollowUp edits t' → next.state = r.state →
      next.Completes p Kind.geocoder.registry.service n glimpses FindsJob Left) :
    r.Completes p Kind.geocoder.registry.service (n + 1)
      (Task.errand { phase := "CONVERT", subStep, destination := convert } ++ glimpses)
      FindsJob Left := by
  have hnext : t.nextSubStep =
      { phase := "CONVERT", subStep := subStep + 1, destination := convert } := by
    rw [Task.nextSubStep, ht.phase_eq, ht.destination_eq, ht.subStep_eq]
  have hpoll : convert ≠ exportPoll := by decide
  have hget : Kind.geocoder.registry.get? convert = some convertStep := rfl
  refine completes_errand following h ht rfl hget hpoll (fun _ _ => rfl) ?_
    fun context next t' _ hone hfollows hstate => hlater _ next t' hone hfollows hstate
  intro context hcontext
  have hsubStep : t.subStep = subStep := ht.subStep_eq
  rw [hfollowing, ← hnext, ← hsubStep, ← hcontext]
  rfl

theorem completes_geocoder (p : Pipeline) (hr : r.IsSound)
    (htasks : r.tasks = .ofList Kind.geocoder.trigger.tasks) (hfit : Kind.Fit .geocoder r.state) :
    r.Completes p Kind.geocoder.registry.service (Kind.geocoder.iterations p)
      (Kind.geocoder.glimpses p) FindsJob (Kind.Fit .geocoder) := by
  have hiterations : Kind.geocoder.iterations p = Task.polls p 2 0 + 2 + 1 + 1 + 1 + 1 :=
    Nat.add_comm _ _
  have hopening : Kind.geocoder.waiting.opening = [] := rfl
  simp only [Kind.glimpses, hopening, Kind.errands, List.flatMap_cons, List.flatMap_nil,
    List.append_assoc, List.nil_append, hiterations]
  have hget : Kind.geocoder.registry.get? download = some downloadStep := rfl
  refine completes_errand { phase := "CONVERT", destination := convert } ⟨hr, htasks⟩
    (Task.isFollowUp_self "DOWNLOAD" download) rfl hget (by decide) (fun _ _ => rfl)
    (fun _ _ => rfl) ?_
  intro _ r₁ t₁ _ h₁ ht₁ hstate₁
  refine completes_converting h₁ ht₁ rfl ?_
  intro _ r₂ t₂ h₂ ht₂ hstate₂
  refine completes_converting h₂ ht₂ rfl ?_
  intro _ r₃ t₃ h₃ ht₃ hstate₃
  refine completes_converting h₃ ht₃ rfl ?_
  intro _ r₄ t₄ h₄ ht₄ hstate₄
  have hfit₄ : Kind.Fit .geocoder r₄.state := by
    rw [hstate₄, hstate₃, hstate₂, hstate₁]
    exact hfit
  exact completes_indexing p h₄ ht₄ hfit₄

/-! ## The export -/

/-- A job that the task names is to be asked for some more times. -/
structure AwaitsJob (again : Nat) (t : Task) (state : State) (job : String) (polls : Nat) : Prop where
  destination_eq : t.destination = exportPoll
  header?_eq : t.header? exportJobHeader = some job
  lookup_eq : state.polls.lookup job = some polls
  polls_eq : polls + again = 2

theorem header?_exportJob {job : String} (h : t.header? exportJobHeader = some job)
    (attributes : Headers) (id : String) :
    (Context.rehydrate t attributes id).header? exportJobHeader = some job := by
  rw [Context.header?_rehydrate (by decide), h]
  rfl

theorem invoke_poll {again polls : Nat} {state : State} {job : String}
    (h : AwaitsJob again t state job polls) (attributes : Headers) (id : String) :
    Kind.exporting.registry.service.invoke (Context.rehydrate t attributes id) state =
      ({ reply := .outcome (if again = 0 then .done else .reschedule) },
        { state with polls := (job, polls + 1) :: state.polls.filter (·.1 != job) }) := by
  have hpolls := h.polls_eq
  have hdone : (polls + 1 < pollsUntilDone) ↔ ¬ again = 0 := by
    rw [pollsUntilDone]
    omega
  have hget : Kind.exporting.registry.get? exportPoll = some exportPollStep := rfl
  rw [invoke_of_get? hget h.destination_eq, exportPollStep]
  simp only [header?_exportJob h.header?_eq, h.lookup_eq, hdone, ite_not]

theorem waits_poll : PlainRun.Waits Kind.exporting.registry.service
    (fun again t state => ∃ job polls, AwaitsJob again t state job polls) FindsJob
    (Kind.Fit .exporting) where
  reply := by
    rintro n t state ⟨job, polls, h⟩ attributes id
    rw [invoke_poll h]
  followUp := by
    rintro n t state ⟨job, polls, h⟩ attributes id
    rw [invoke_poll h]
    rfl
  again := by
    rintro n t state back ⟨job, polls, h⟩ attributes id hback
    rw [invoke_poll h] at hback ⊢
    have hpolls := h.polls_eq
    have hheader : back.header? exportJobHeader = some job := by
      rw [hback.header?_eq, if_neg (by decide), h.header?_eq]
      rfl
    exact ⟨job, polls + 1, hback.destination_eq.trans h.destination_eq, hheader,
      List.lookup_cons_self, by omega⟩
  sees := by
    rintro n t state ⟨job, polls, h⟩ attributes id -
    rw [header?_exportJob h.header?_eq]
    rfl
  left _ _ _ := trivial

theorem completes_exporting (p : Pipeline) (hr : r.IsSound)
    (htasks : r.tasks = .ofList Kind.exporting.trigger.tasks) :
    r.Completes p Kind.exporting.registry.service (Kind.exporting.iterations p)
      (Kind.exporting.glimpses p) FindsJob (Kind.Fit .exporting) := by
  have hiterations : Kind.exporting.iterations p = Task.polls p 2 0 + 1 := Nat.add_comm _ _
  simp only [Kind.glimpses, Kind.errands, List.flatMap_cons, List.flatMap_nil, List.append_nil,
    hiterations]
  have hget : Kind.exporting.registry.get? exportStart = some exportStartStep := rfl
  refine completes_errand Kind.exporting.waiting ⟨hr, htasks⟩
    (Task.isFollowUp_self "EXPORT" exportStart) rfl hget (by decide) (fun _ _ => rfl)
    (fun _ _ => rfl) ?_
  intro context r' t' _ hone hwaiting hstate
  have hheader : t'.header? exportJobHeader = some ("export-" ++ context.correlationId) := by
    rw [hwaiting.header?_eq, if_neg (by decide)]
    rfl
  have hat : ∃ job polls, AwaitsJob 2 t' r'.state job polls :=
    ⟨_, 0, hwaiting.destination_eq, hheader, by rw [hstate]; exact List.lookup_cons_self, rfl⟩
  have hcompletes := waits_poll.completes (p := p) hone hat
    (by rw [hwaiting.loopCounter_eq]; decide)
  rw [hwaiting.loopCounter_eq, hwaiting.opening_eq rfl,
    Task.polling_congr hwaiting.destination_eq hwaiting.subStep_eq] at hcompletes
  exact hcompletes

end Steps

/-! ## Sessions -/

/-- Every run of a demonstration pipeline that starts with a fit state completes. -/
theorem Kind.routine (k : Kind) (p : Pipeline) : PlainRun.Routine p k.registry.service k.trigger
    (k.iterations p) (k.glimpses p) FindsJob k.Fit where
  completes := by
    intro r hr htasks hfit
    cases k with
    | geocoder => exact completes_geocoder p hr htasks hfit
    | exporting => exact completes_exporting p hr htasks
  last := by rw [glimpses, List.getLast?_append, List.getLast?_append, Task.getLast?_polling]; rfl

namespace Kind

/-- The steps that a run calls, each with a sub-step. -/
def calls (k : Kind) (p : Pipeline) : List (Destination × Nat) :=
  (k.errands ++ List.replicate (Task.polls p 2 0) k.waiting).map
    fun t => (t.destination, t.subStep.toNat)

/-- A run has come to its end as it should: no step has failed, and one of them has been given up if
the retries do not suffice. -/
structure Completed (k : Kind) (p : Pipeline) (run : RunRecord) : Prop where
  iterations_eq : run.iterations = k.iterations p
  calls_eq : (run.shown.filterMap Observation.context?).map
    (fun c => (c.task.destination, c.task.subStep.toNat)) = k.calls p
  findsJob : ∀ context ∈ run.shown.filterMap Observation.context?, FindsJob context
  states_eq : ∃ starts, (∀ state ∈ starts, state = .started) ∧
    run.shown.filterMap Observation.state? = .pending ::
      (starts ++ if p.retry.maxRetries < 2 then [.timeout, .ok] else [.ok])
  last : run.shown.getLast? = some (.continued .complete)

/-- With two retries or more, the waiting ends by itself. -/
theorem iterations_eq {p : Pipeline} (h : 2 ≤ p.retry.maxRetries) (k : Kind) :
    k.iterations p = match k with
      | .geocoder => 9
      | .exporting => 4 := by
  have hlimit : 2 ≤ p.retry.maxRetries.toNat := UInt32.le_iff_toNat_le.1 h
  have hpolls : Task.polls p 2 0 = 3 := by
    rw [Task.polls]
    omega
  rw [iterations, hpolls]
  cases k <;> rfl

theorem completed_of_isRoutine {k : Kind} {p : Pipeline} {run : RunRecord}
    (h : run.IsRoutine p (k.iterations p) (k.glimpses p) FindsJob) : k.Completed p run where
  iterations_eq := h.iterations_eq
  calls_eq := by
    have hpolls := Task.call?_polling p k.waiting 2 0
    rw [← filterMap_call?_glimpse, h.glimpses_eq, calls, List.map_append, List.map_replicate,
      ← hpolls, ← Task.call?_errands]
    simp only [glimpses, List.filterMap_cons, Glimpse.call?, List.filterMap_append,
      Task.call?_opening, List.nil_append]
  findsJob := h.sees
  states_eq := by
    have hpolling := Task.state?_polling p k.waiting 2 0
    have hlimit : p.retry.maxRetries.toNat - 0 < 2 ↔ p.retry.maxRetries < 2 := by
      rw [UInt32.lt_iff_toNat_lt]
      rfl
    simp only [hlimit] at hpolling
    refine ⟨(k.errands.flatMap Task.errand).filterMap Glimpse.state? ++
      k.waiting.opening.filterMap Glimpse.state?, ?_, ?_⟩
    · intro state hmem
      rcases List.mem_append.1 hmem with hmem | hmem
      · exact Task.state?_errands _ state hmem
      · exact Task.state?_opening _ state hmem
    · rw [← filterMap_state?_glimpse, h.glimpses_eq, ← hpolling, List.append_assoc]
      simp only [glimpses, List.filterMap_cons, Glimpse.state?, List.filterMap_append]
  last := by
    have hlast := congrArg List.getLast? h.glimpses_eq
    rw [List.getLast?_map, List.getLast?_cons, (k.routine p).last] at hlast
    obtain ⟨o, ho, hcomplete⟩ := Option.map_eq_some_iff.1 hlast
    rw [ho, Observation.eq_of_glimpse hcomplete]

end Kind

open Site

/-- **The demonstration pipelines complete.**  On a reliable site the engine of a post has the
registered steps of a demonstration pipeline, any order of phases, any carried headers and any number
of retries.  Then runs can be triggered and driven to their end one after the other, however many and
with whatever attributes, and each of them completes: its steps are called as often as `Kind.calls`
says, none fails, and only the last task is given up if there are less than two retries.  A run that
has been triggered goes on until then, however it is driven, and no longer. -/
theorem Kind.every_run_completes (k : Kind) {p : Post} {pl : Pipeline} {s : Site State}
    (hreliable : s.IsReliable)
    (hengine : s.engines[p.engine]? =
      some { pipeline := pl, service := k.registry.service, state := {} })
    (htopic : pl.topic = p.topic) (hempty : s.channel.messages p.topic = []) :
    (∀ given : List Headers, ∃ runs t, Session p k.trigger runs s t ∧
      runs.map RunRecord.attributes = given) ∧
    ∀ runs t, Session p k.trigger runs s t →
      (∀ run ∈ runs, k.Completed pl run) ∧
      ∀ e attributes n instant u,
        Driven p e k.trigger attributes n { t with now := instant } u →
          n ≤ k.iterations pl ∧ ((∃ w, Round p u w) ↔ n < k.iterations pl) ∧
            (u.IsOver ↔ n = k.iterations pl) := by
  have hfit : k.Fit {} := by
    cases k with
    | geocoder => exact .inr rfl
    | exporting => trivial
  have hawaits : Awaits p pl k.registry.service k.Fit s := ⟨{}, hfit, hreliable, hengine, hempty⟩
  refine ⟨(k.routine pl).exists_session htopic hawaits, fun runs t hsession => ?_⟩
  obtain ⟨⟨state, hlater, hserves⟩, hruns⟩ := (k.routine pl).session hawaits hsession
  refine ⟨fun run hmem => Kind.completed_of_isRoutine (hruns run hmem), ?_⟩
  intro e attributes n instant u hdriven
  obtain ⟨hle, hround, hover, -⟩ :=
    (k.routine pl).driven ⟨state, hlater, hserves.pass instant⟩ hdriven
  exact ⟨hle, hround, hover⟩

def geocoderSite : Site State :=
  { leases := { ttl := 10 }, ids := Nat.repr, clock := .fixed 0
    engines := [{ pipeline := Sample.pipeline, service := Kind.geocoder.registry.service, state := {} }] }

/-- Two runs of the geocoder.  The second one comes upon the deployment of the first. -/
theorem Kind.completes_twice :
    ∃ runs t, Session (Sample.post "a" {}) Kind.geocoder.trigger runs geocoderSite t ∧
      runs.length = 2 ∧ ∀ run ∈ runs, run.iterations = 9 ∧
        (run.shown.filterMap Observation.context?).map
            (fun c => (c.task.destination, c.task.subStep.toNat)) =
          [("osm.download", 0), ("osm.convert", 0), ("osm.convert", 1), ("osm.convert", 2),
            ("es.build", 0), ("k8s.rollout", 0), ("k8s.rollout", 1), ("k8s.rollout", 1),
            ("k8s.rollout", 1)] := by
  have hengine : geocoderSite.engines[(Sample.post "a" {}).engine]? = some
      { pipeline := Sample.pipeline, service := Kind.geocoder.registry.service, state := {} } := rfl
  obtain ⟨hexists, hall⟩ := Kind.every_run_completes .geocoder (fun _ => rfl) hengine rfl rfl
  obtain ⟨runs, t, hsession, hgiven⟩ := hexists [∅, ∅]
  obtain ⟨hruns, -⟩ := hall runs t hsession
  refine ⟨runs, t, hsession, ?_, fun run hmem => ?_⟩
  · rw [← List.length_map RunRecord.attributes, hgiven]
    rfl
  · refine ⟨(hruns run hmem).iterations_eq.trans (iterations_eq (by decide) _), ?_⟩
    rw [(hruns run hmem).calls_eq]
    decide

end TaskRelay.Demo
