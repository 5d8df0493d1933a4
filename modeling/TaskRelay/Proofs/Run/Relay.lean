import TaskRelay.Proofs.Run.FollowUp
import TaskRelay.Proofs.Run.Iteration

/-!
# Runs with one task at a time

Many runs have a single task all the time: each step lets one other task follow, until the last one
is done.  Such a run is told from its end: a run that goes on as another one shows an iteration more
(`PlainRun.Completes.goesOn`), and what an iteration does with a single task depends on the answer of
its step alone.  A step that wants to see its task again, some number of times, is told by one
induction on that number (`PlainRun.Waits.completes`).

The state that the steps leave behind in the end is the one with which the engine of the site goes on
(`Site.Rounds.leaves`), so that what is known of one run can be used for the next.
-/

namespace TaskRelay

variable {σ : Type}

/-! ## What is seen -/

/-- What is told of an observation: who was called, and in which sub-step, but not with what. -/
inductive Glimpse where
  | told (action : String) (state : JobState)
  | called (destination : Destination) (subStep loopCounter : Nat)
  | continued (c : Continuation)
deriving DecidableEq, Repr

def Observation.glimpse : Observation → Glimpse
  | .report _ _ n => .told n.action n.state
  | .dispatch context =>
    .called context.task.destination context.task.subStep.toNat context.loopCounter.toNat
  | .continued c => .continued c

namespace Glimpse

def call? : Glimpse → Option (Destination × Nat)
  | .called destination subStep _ => some (destination, subStep)
  | .told _ _ | .continued _ => none

def state? : Glimpse → Option JobState
  | .told _ state => some state
  | .called _ _ _ | .continued _ => none

end Glimpse

theorem filterMap_call?_glimpse (shown : List Observation) :
    (shown.map Observation.glimpse).filterMap Glimpse.call? =
      (shown.filterMap Observation.context?).map
        fun c => (c.task.destination, c.task.subStep.toNat) := by
  rw [List.filterMap_map, List.map_filterMap]
  congr 1
  funext o
  cases o <;> rfl

theorem filterMap_state?_glimpse (shown : List Observation) :
    (shown.map Observation.glimpse).filterMap Glimpse.state? =
      shown.filterMap Observation.state? := by
  rw [List.filterMap_map]
  congr 1
  funext o
  cases o <;> rfl

namespace Task

/-- What is seen of a task before it is called. -/
def opening (t : Task) : List Glimpse :=
  if t.subStep = 0 ∧ t.loopCounter = 0 then [.told t.destination .started] else []

/-- What is seen of a task that lets another one follow. -/
def errand (t : Task) : List Glimpse :=
  t.opening ++ [.called t.destination t.subStep.toNat 0, .continued (.requeued 1 0)]

/-- What is seen from a call on, of the last task of a run, whose step wants to see it again. -/
def polling (p : Pipeline) (t : Task) : (again loopCounter : Nat) → List Glimpse
  | 0, loopCounter =>
    [.called t.destination t.subStep.toNat loopCounter, .told p.action .ok, .continued .complete]
  | again + 1, loopCounter =>
    .called t.destination t.subStep.toNat loopCounter ::
      if loopCounter < p.retry.maxRetries.toNat then
        .continued (.requeued 1 p.retry.delay) :: t.polling p again (loopCounter + 1)
      else [.told t.destination .timeout, .told p.action .ok, .continued .complete]

/-- The number of its calls. -/
def polls (p : Pipeline) (again loopCounter : Nat) : Nat :=
  min again (p.retry.maxRetries.toNat - loopCounter) + 1

theorem call?_opening (t : Task) : t.opening.filterMap Glimpse.call? = [] := by
  rw [opening]
  split <;> rfl

theorem state?_opening (t : Task) :
    ∀ state ∈ t.opening.filterMap Glimpse.state?, state = .started := by
  rw [opening]
  split
  · exact fun state hmem => List.mem_singleton.1 hmem
  · exact nofun

theorem call?_errands (tasks : List Task) :
    (tasks.flatMap errand).filterMap Glimpse.call? =
      tasks.map fun t => (t.destination, t.subStep.toNat) := by
  induction tasks with
  | nil => rfl
  | cons t tasks ih =>
    rw [List.flatMap_cons, List.filterMap_append, ih, errand, List.filterMap_append, call?_opening]
    rfl

theorem state?_errands (tasks : List Task) :
    ∀ state ∈ (tasks.flatMap errand).filterMap Glimpse.state?, state = .started := by
  induction tasks with
  | nil => exact nofun
  | cons t tasks ih =>
    intro state hmem
    rw [List.flatMap_cons, List.filterMap_append, errand, List.filterMap_append] at hmem
    rcases List.mem_append.1 hmem with hmem | hmem
    · rcases List.mem_append.1 hmem with hmem | hmem
      · exact t.state?_opening state hmem
      · cases hmem
    · exact ih state hmem

/-- Its step is called as often as it wants to see the task and the retries allow. -/
theorem call?_polling (p : Pipeline) (t : Task) (again loopCounter : Nat) :
    (t.polling p again loopCounter).filterMap Glimpse.call? =
      List.replicate (polls p again loopCounter) (t.destination, t.subStep.toNat) := by
  induction again generalizing loopCounter with
  | zero => rw [polls, Nat.zero_min]; rfl
  | succ again ih =>
    rw [polling]
    split
    · next hlt =>
      have hpolls : polls p (again + 1) loopCounter = polls p again (loopCounter + 1) + 1 := by
        rw [polls, polls]
        omega
      rw [hpolls, List.replicate_succ, ← ih]
      rfl
    · next hle =>
      have hpolls : polls p (again + 1) loopCounter = 1 := by
        rw [polls]
        omega
      rw [hpolls]
      rfl

/-- The task is given up if its step wants to see it more often. -/
theorem state?_polling (p : Pipeline) (t : Task) (again loopCounter : Nat) :
    (t.polling p again loopCounter).filterMap Glimpse.state? =
      if p.retry.maxRetries.toNat - loopCounter < again then [.timeout, .ok] else [.ok] := by
  induction again generalizing loopCounter with
  | zero => rfl
  | succ again ih =>
    rw [polling]
    split
    · next hlt =>
      have hiff : p.retry.maxRetries.toNat - loopCounter < again + 1 ↔
          p.retry.maxRetries.toNat - (loopCounter + 1) < again := by omega
      simp only [hiff]
      rw [← ih]
      rfl
    · next hle =>
      rw [if_pos (by omega)]
      rfl

theorem getLast?_polling (p : Pipeline) (t : Task) (again loopCounter : Nat) :
    (t.polling p again loopCounter).getLast? = some (.continued .complete) := by
  induction again generalizing loopCounter with
  | zero => rfl
  | succ again ih =>
    rw [polling, List.getLast?_cons]
    split
    · rw [List.getLast?_cons, ih]
      rfl
    · rfl

theorem polling_congr {p : Pipeline} {t u : Task} (hdestination : t.destination = u.destination)
    (hsubStep : t.subStep = u.subStep) : t.polling p = u.polling p := by
  funext again loopCounter
  induction again generalizing loopCounter with
  | zero => rw [polling, polling, hdestination, hsubStep]
  | succ again ih => rw [polling, polling, hdestination, hsubStep, ih]

theorem IsFollowUp.loopCounter_eq {edits : List Context.Edit} {next t : Task}
    (h : next.IsFollowUp edits t) : t.loopCounter = 0 := by
  rw [loopCounter, h.header?_eq, if_pos rfl]
  rfl

theorem IsFollowUp.opening_eq {edits : List Context.Edit} {next t : Task}
    (h : next.IsFollowUp edits t) (hnext : next.loopCounter = 0) : t.opening = next.opening := by
  rw [opening, opening, h.subStep_eq, h.loopCounter_eq, h.destination_eq, hnext]

/-- A task without headers is as it would follow a step that has written nothing. -/
theorem isFollowUp_self (phase : Phase) (destination : Destination) :
    IsFollowUp [] { phase, destination } { phase, destination } where
  phase_eq := rfl
  subStep_eq := rfl
  destination_eq := rfl
  header?_eq name := by
    have hnothing : Context.writes? [] name = none := ite_self _
    rw [hnothing]
    split <;> rfl

end Task

/-! ## The state that is left -/

namespace PlainRun

variable {p : Pipeline} {v : Service σ} {r next : PlainRun σ} {t : Task}

/-- The state of the steps after an iteration. -/
def leaves (p : Pipeline) (service : Service σ) (r : PlainRun σ) : σ :=
  match r.tasks.popNext? p.order with
  | none => r.state
  | some (task, _) =>
    (service.invoke (Context.rehydrate task r.attributes r.correlationId) r.state).2

/-- The state after a number of iterations, or at the end of the run. -/
def stateAfter (p : Pipeline) (service : Service σ) : Nat → PlainRun σ → σ
  | 0, r => r.state
  | n + 1, r =>
    match (r.iterate p service).2 with
    | none => r.leaves p service
    | some next => next.stateAfter p service n

end PlainRun

namespace Site

variable {p : Post} {pl : Pipeline} {v : Service σ} {r : PlainRun σ} {s t : Site σ}

theorem engines_publish (s : Site σ) (topic : String) (m : Message) (delay : Option Nat) :
    (s.publish topic m delay).2.engines = s.engines := by
  cases delay with
  | none =>
    rw [publish, call]
    cases s.faults .publish <;> rfl
  | some delay =>
    rw [publish, call]
    cases s.faults .publishDelayed <;> rfl

theorem engines_carryOut (s : Site σ) (i : Nat) (p : Pipeline) (id : String) (c : Conclusion) :
    (s.carryOut i p id c).2.engines = s.engines := by
  have hreported := engines_reportAll s id p.domain c.notices
  rw [carryOut]
  cases c.requeue with
  | none => exact hreported
  | some requeue =>
    obtain ⟨m, delay⟩ := requeue
    have hpublished := engines_publish (s.reportAll id p.domain c.notices) p.topic m
      (if delay = 0 then none else some delay)
    simp only
    generalize (s.reportAll id p.domain c.notices).publish p.topic m
      (if delay = 0 then none else some delay) = published at hpublished ⊢
    obtain ⟨_ | _, t⟩ := published
    · exact hpublished.trans hreported
    · exact hpublished.trans hreported

theorem engines_noted (s : Site σ) (d : Dispatch) : (s.noted d).engines = s.engines := by
  unfold noted
  split <;> rfl

theorem engines_endIteration (s : Site σ) (d : Dispatch) :
    (s.endIteration d).2.engines = s.engines := by
  rw [endIteration_eq]
  split
  · exact engines_noted s d
  · exact (engines_carryOut _ _ _ _ _).trans (engines_noted s d)

/-- An iteration leaves the engine with the state that its step has left. -/
theorem Iterates.engine_eq (h : Iterates p r.batch s t) (hr : r.IsSound)
    (hs : Serves p pl v r.state [] s) :
    t.engines[p.engine]? = some { pipeline := pl, service := v, state := r.leaves pl v } := by
  obtain ⟨id, hcorrelation, hid⟩ := idFor_of_isSound hr pl.order s
  obtain ⟨hlt, -⟩ := List.getElem?_eq_some_iff.1 hs.engine
  have hbegun := beginIteration_eq s p.engine { pipeline := pl, service := v, state := r.state } r.batch
  rw [hid] at hbegun
  cases hpop : r.tasks.popNext? pl.order with
  | none =>
    have hchoose : pl.choose r.batch id = .nothing := by
      rw [Pipeline.choose, PlainRun.batch, hpop]
    simp only [hchoose] at hbegun
    rw [PlainRun.leaves, hpop]
    cases h with
    | atOnce hengine hbegin =>
      cases hs.engine.symm.trans hengine
      cases hbegun.symm.trans hbegin
      exact (congrArg (·[p.engine]?) (engines_carryOut _ _ _ _ _)).trans hs.engine
    | called hengine hbegin =>
      cases hs.engine.symm.trans hengine
      cases hbegun.symm.trans hbegin
  | some popped =>
    obtain ⟨task, rest⟩ := popped
    have hchoose : pl.choose r.batch id = .dispatch (Context.rehydrate task r.attributes id) rest := by
      rw [Pipeline.choose, PlainRun.batch, hpop]
    simp only [hchoose, Context.rehydrate_eq hr.correlated task id r.correlationId] at hbegun
    rw [PlainRun.leaves, hpop]
    cases h with
    | atOnce hengine hbegin =>
      cases hs.engine.symm.trans hengine
      cases hbegun.symm.trans hbegin
    | @called _ d _ _ u instant hengine hbegin hle hends hend =>
      cases hs.engine.symm.trans hengine
      have hengines := engines_endIteration ({ u with now := instant } : Site σ) d
      rw [hend] at hengines
      cases hbegun.symm.trans hbegin
      refine (congrArg (·[p.engine]?) (hengines.trans (engines_calling _ _ _ _ _))).trans ?_
      exact List.getElem?_set_self hlt

/-- Iterations bring no faults. -/
theorem Iterates.isReliable {b : Batch} (h : Iterates p b s t) (hs : s.IsReliable) :
    t.IsReliable := by
  cases h with
  | atOnce hengine hbegin =>
    have hkeeps := keeps_beginIteration hengine b
    rw [hbegin] at hkeeps
    exact hkeeps.isReliable hs
  | @called _ d _ _ u instant hengine hbegin hle hends hend =>
    have hkeeps := keeps_beginIteration hengine b
    rw [hbegin] at hkeeps
    have hu : ({ u with now := instant } : Site σ).IsReliable := hkeeps.isReliable hs
    exact (keeps_of_endIteration hend).isReliable hu

theorem Round.leaves {m : Message} (h : Round p s t) (hr : r.IsSound) (hm : r.IsIn m)
    (hs : Serves p pl v r.state [m] s) :
    t.IsReliable ∧
      t.engines[p.engine]? = some { pipeline := pl, service := v, state := r.leaves pl v } := by
  induction h with
  | pass hle hrest ih => exact ih (hs.pass _)
  | skip hcollect hpolls hrest ih =>
    rw [hs.collect] at hcollect
    cases hcollect
    rcases hpolls.of_message hm rfl hs with ⟨-, hu⟩ | ⟨hb, -⟩
    · rw [hu] at ih
      exact ih (hs.pass _)
    · cases hb
  | work hcollect hpolls hiterates =>
    rw [hs.collect] at hcollect
    cases hcollect
    rcases hpolls.of_message hm rfl hs with ⟨hb, -⟩ | ⟨hb, -, hserves⟩
    · cases hb
    · cases hb
      exact ⟨hiterates.isReliable hserves.reliable, hiterates.engine_eq hr hserves⟩

/-- The engine goes on with the state that the run has left. -/
theorem Rounds.leaves {n : Nat} (h : Rounds p n s t) (hs : PlainRun.Follows p pl v s (some r))
    (htopic : pl.topic = p.topic) :
    t.IsReliable ∧
      t.engines[p.engine]? = some { pipeline := pl, service := v, state := r.stateAfter pl v n } := by
  induction h generalizing r with
  | none =>
    obtain ⟨hr, m, hm, hserves⟩ := hs
    exact ⟨hserves.reliable, hserves.engine⟩
  | @more n s t u hround hrest ih =>
    obtain ⟨hr, m, hm, hserves⟩ := hs
    obtain ⟨-, hfollows⟩ := hround.follows hr hm hserves htopic
    rw [PlainRun.stateAfter]
    cases hnext : (r.iterate pl v).2 with
    | none =>
      rw [hnext] at hfollows
      cases hrest with
      | none => exact hround.leaves hr hm hserves
      | more hround _ => exact absurd hround (not_round_of_empty hfollows)
    | some next =>
      rw [hnext] at hfollows
      exact ih hfollows

end Site

/-! ## A run and its end -/

namespace PlainRun

variable {p : Pipeline} {v : Service σ} {r next : PlainRun σ} {t : Task} {n : Nat}
  {glimpses : List Glimpse} {Sees : Context → Prop} {Left : σ → Prop}

/-- A run is over after exactly so many iterations.  This is what is seen of it; `Sees` holds of the
contexts that its steps are given, and `Left` of the state that they leave in the end. -/
structure Completes (p : Pipeline) (v : Service σ) (r : PlainRun σ) (n : Nat)
    (glimpses : List Glimpse) (Sees : Context → Prop) (Left : σ → Prop) : Prop where
  goesOn : ∀ k < n, (r.iterations p v k).2.isSome = true
  ended : (r.iterations p v n).2 = none
  glimpses_eq : (r.iterations p v n).1.map Observation.glimpse = glimpses
  sees : ∀ context ∈ (r.iterations p v n).1.filterMap Observation.context?, Sees context
  left : Left (r.stateAfter p v n)

theorem completes_one {shown : List Observation} (h : r.iterate p v = (shown, none))
    (hsees : ∀ context ∈ shown.filterMap Observation.context?, Sees context) (hleft : Left (r.leaves p v)) :
    r.Completes p v 1 (shown.map Observation.glimpse) Sees Left where
  goesOn := by
    intro k hk
    rw [Nat.lt_one_iff.1 hk]
    rfl
  ended := by rw [iterations_of_over 0 h]
  glimpses_eq := by rw [iterations_of_over 0 h]
  sees := by rwa [iterations_of_over 0 h]
  left := by
    rw [stateAfter, h]
    exact hleft

theorem Completes.goesOn_from {shown : List Observation}
    (hnext : next.Completes p v n glimpses Sees Left) (h : r.iterate p v = (shown, some next))
    (hsees : ∀ context ∈ shown.filterMap Observation.context?, Sees context) :
    r.Completes p v (n + 1) (shown.map Observation.glimpse ++ glimpses) Sees Left where
  goesOn := by
    intro k hk
    cases k with
    | zero => rfl
    | succ k =>
      rw [iterations_of_goesOn k h]
      exact hnext.goesOn k (Nat.lt_of_succ_lt_succ hk)
  ended := by
    rw [iterations_of_goesOn n h]
    exact hnext.ended
  glimpses_eq := by rw [iterations_of_goesOn n h, List.map_append, hnext.glimpses_eq]
  sees := by
    rw [iterations_of_goesOn n h, List.filterMap_append]
    intro context hmem
    rcases List.mem_append.1 hmem with hmem | hmem
    · exact hsees context hmem
    · exact hnext.sees context hmem
  left := by
    rw [stateAfter, h]
    exact hnext.left

/-! ## Iterations on a single task -/

/-- A run has a single task. -/
structure HasOnly (r : PlainRun σ) (t : Task) : Prop where
  sound : r.IsSound
  tasks_eq : r.tasks = ⟨[t]⟩

theorem HasOnly.popNext? (h : r.HasOnly t) (order : PhaseOrder) :
    r.tasks.popNext? order = some (t, ⟨[]⟩) := by
  rw [h.tasks_eq]
  rfl

theorem HasOnly.leaves_eq (h : r.HasOnly t) (p : Pipeline) (v : Service σ) :
    r.leaves p v = (v.invoke (Context.rehydrate t r.attributes r.correlationId) r.state).2 := by
  rw [leaves, h.popNext?]

/-- What is seen of a run that goes on with some tasks after a pause. -/
def goingOn (p : Pipeline) (tasks : List Task) (delay : Nat) : List Glimpse :=
  if tasks = [] then [.told p.action .ok, .continued .complete]
  else [.continued (.requeued tasks.length delay)]

theorem proceed_eq (p : Pipeline) (id : String) (tasks : List Task) (attributes : Headers)
    (state : σ) (delay : Nat) :
    let r : PlainRun σ := { tasks := ⟨tasks⟩, attributes, state }
    (proceed p id r delay).1.filterMap Observation.context? = [] ∧
      (proceed p id r delay).1.map Observation.glimpse = goingOn p tasks delay ∧
      (proceed p id r delay).2 = if tasks = [] then none else some r := by
  cases tasks with
  | nil => exact ⟨rfl, rfl, rfl⟩
  | cons t tasks => exact ⟨rfl, rfl, rfl⟩

theorem glimpses_opening (c : Call σ) (p : Pipeline) (hloop : c.context.loopCounter =
    c.context.task.loopCounter) : (c.opening p).map Observation.glimpse = c.context.task.opening := by
  have hfirst : (Observation.dispatch c.context).isFirst = true ↔
      c.context.task.subStep = 0 ∧ c.context.task.loopCounter = 0 := by
    show (c.context.task.subStep == 0 && c.context.loopCounter == 0) = true ↔ _
    rw [hloop, Bool.and_eq_true, beq_iff_eq, beq_iff_eq]
  rw [Call.opening_eq, Task.opening]
  simp only [hfirst]
  split <;> rfl

/-- An iteration calls the step of the task, and goes on with what its answer adds. -/
theorem HasOnly.exists_iterate (h : r.HasOnly t) (p : Pipeline) {o : Outcome}
    (hreply : (r.callFor p v t).attempt.reply = .outcome o) :
    ∃ shown added delay notices,
      p.Adds t [] (r.callFor p v t).attempt.edits o added delay notices ∧
      shown.filterMap Observation.context? = [(r.callFor p v t).context] ∧
      shown.map Observation.glimpse =
        t.opening ++ .called t.destination t.subStep.toNat t.loopCounter.toNat ::
          (notices.map (fun n => .told n.action n.state) ++ goingOn p added delay) ∧
      r.iterate p v = (shown, if added = [] then none else some
        { tasks := ⟨added⟩
          attributes := (r.editedContext p v t).carriedAttributes p.carry
          state := r.leaves p v }) := by
  have hc : (r.callFor p v t).context.IsFor t r.attributes (r.callFor p v t).context.correlationId :=
    { Context.isFor_rehydrate t r.attributes r.correlationId with correlationId_eq := rfl }
  have hnew : t.key ∉ ([] : List Task).map Task.key := List.not_mem_nil
  obtain ⟨added, hadds, htasks⟩ := exists_adds p hc hnew
    (r.callFor p v t).attempt.edits o
  have hafter : r.after p v t ⟨[]⟩ o =
      { tasks := ⟨added⟩
        attributes := (r.editedContext p v t).carriedAttributes p.carry
        state := r.leaves p v } := by
    rw [h.leaves_eq, after]
    congr 1
    exact congrArg TaskList.mk htasks
  have hiterate := iterate_of_outcome (h.popNext? p.order) hreply
  rw [hafter] at hiterate
  obtain ⟨hcontexts, hglimpses, hnext⟩ := proceed_eq p (r.callFor p v t).context.correlationId added
    ((r.editedContext p v t).carriedAttributes p.carry) (r.leaves p v)
    (p.delayAfter (r.editedContext p v t) o)
  rw [hnext] at hiterate
  refine ⟨_, added, _, _, hadds, ?_, ?_, hiterate⟩
  · have hnone : ∀ notices : List Notice, (notices.map ((r.callFor p v t).report p)).filterMap
        Observation.context? = [] := by
      intro notices
      rw [List.filterMap_map, List.filterMap_eq_nil_iff]
      exact fun _ _ => rfl
    rw [List.filterMap_append, Call.opening, hnone, List.nil_append, List.filterMap_cons]
    simp only [Observation.context?, List.filterMap_append, hnone, hcontexts]
    rfl
  · rw [List.map_append, glimpses_opening _ _ rfl, List.map_cons, List.map_append, hglimpses,
      List.map_map]
    rfl

theorem hasOnly_of_carried (t : Task) (c : Context) (carry : CarryOver) (state : σ) :
    HasOnly { tasks := ⟨[t]⟩, attributes := c.carriedAttributes carry, state } t where
  sound := ⟨List.pairwise_singleton _ _, by rw [Context.get?_carriedAttributes]; rfl⟩
  tasks_eq := rfl

/-- A step that lets another task follow is one iteration, before those of a run with that task. -/
theorem Completes.errand (following : Task) (h : r.HasOnly t) (hloop : t.loopCounter = 0)
    (hreply : (r.callFor p v t).attempt.reply = .outcome .done)
    (hfollowing : Context.scheduled? (r.callFor p v t).attempt.edits = some following)
    (hsees : Sees (r.callFor p v t).context)
    (hlater : ∀ (next : PlainRun σ) (t' : Task), next.HasOnly t' →
      following.IsFollowUp (r.callFor p v t).attempt.edits t' → next.state = r.leaves p v →
      next.Completes p v n glimpses Sees Left) :
    r.Completes p v (n + 1) (t.errand ++ glimpses) Sees Left := by
  obtain ⟨shown, added, delay, notices, hadds, hcontexts, hglimpses, hiterate⟩ :=
    h.exists_iterate p hreply
  have hshown : ∀ context ∈ shown.filterMap Observation.context?, Sees context := by
    rw [hcontexts]
    intro context hmem
    rw [List.mem_singleton.1 hmem]
    exact hsees
  cases hadds with
  | nothing hnone => cases hfollowing.symm.trans hnone
  | waiting _ hwaits => cases hwaits
  | following hnext hnew hfollows =>
    cases hfollowing.symm.trans hnext
    rw [if_neg (List.cons_ne_nil _ _)] at hiterate
    have hcompletes := (hlater _ _ (hasOnly_of_carried _ _ _ _) hfollows rfl).goesOn_from hiterate
      hshown
    rw [hglimpses, hloop] at hcompletes
    exact hcompletes

/-- A step that wants to see its task some more times, and is done then: `At` tells how often, by the
task and the state of the steps. -/
structure Waits (v : Service σ) (At : Nat → Task → σ → Prop) (Sees : Context → Prop)
    (Left : σ → Prop) : Prop where
  reply : ∀ {n t state}, At n t state → ∀ attributes id,
    (v.invoke (Context.rehydrate t attributes id) state).1.reply =
      .outcome (if n = 0 then .done else .reschedule)
  followUp : ∀ {n t state}, At n t state → ∀ attributes id,
    Context.scheduled? (v.invoke (Context.rehydrate t attributes id) state).1.edits = none
  again : ∀ {n t state back}, At (n + 1) t state → ∀ attributes id,
    t.IsPutBack (v.invoke (Context.rehydrate t attributes id) state).1.edits back →
      At n back (v.invoke (Context.rehydrate t attributes id) state).2
  sees : ∀ {n t state}, At n t state → ∀ attributes id,
    Sees (Context.rehydrate t attributes id)
  left : ∀ {n t state}, At n t state → ∀ attributes id,
    Left (v.invoke (Context.rehydrate t attributes id) state).2

theorem Waits.sees_of_eq {At : Nat → Task → σ → Prop} (hv : Waits v At Sees Left)
    (hat : At n t r.state) {shown : List Observation}
    (h : shown.filterMap Observation.context? = [(r.callFor p v t).context]) :
    ∀ context ∈ shown.filterMap Observation.context?, Sees context := by
  rw [h]
  intro context hmem
  rw [List.mem_singleton.1 hmem]
  exact hv.sees hat _ _

/-- Such a step is called as often as it wants to see its task and the retries allow. -/
theorem Waits.completes {At : Nat → Task → σ → Prop} (hv : Waits v At Sees Left) (h : r.HasOnly t)
    (hat : At n t r.state) (hcounter : t.loopCounter.toNat + n ≤ 4294967295) :
    r.Completes p v (Task.polls p n t.loopCounter.toNat)
      (t.opening ++ t.polling p n t.loopCounter.toNat) Sees Left := by
  induction n generalizing r t with
  | zero =>
    obtain ⟨shown, added, delay, notices, hadds, hcontexts, hglimpses, hiterate⟩ :=
      h.exists_iterate (o := .done) p (hv.reply hat _ _)
    cases hadds with
    | nothing hnone =>
      have hone := completes_one hiterate (hv.sees_of_eq hat hcontexts)
        (h.leaves_eq p v ▸ hv.left hat _ _)
      rw [hglimpses] at hone
      rw [Task.polls, Nat.zero_min]
      exact hone
    | waiting _ hwaits => cases hwaits
    | following hnext => cases hnext.symm.trans (hv.followUp hat _ _)
  | succ n ih =>
    obtain ⟨shown, added, delay, notices, hadds, hcontexts, hglimpses, hiterate⟩ :=
      h.exists_iterate (o := .reschedule) p (hv.reply hat _ _)
    have hnext : t.nextLoopCounter = t.loopCounter.toNat + 1 := Nat.min_eq_left (by omega)
    cases hadds with
    | @puttingBack back hlimit hback =>
      rw [if_neg (List.cons_ne_nil _ _)] at hiterate
      rw [hnext] at hlimit
      have hloop : back.loopCounter.toNat = t.loopCounter.toNat + 1 := hback.loopCounter_eq.trans hnext
      have hone := hasOnly_of_carried back (r.editedContext p v t) p.carry (r.leaves p v)
      have hlater := ih hone (h.leaves_eq p v ▸ hv.again hat _ _ hback) (by omega)
      have hopening : back.opening = [] := by
        rw [Task.opening, if_neg]
        rintro ⟨-, hzero⟩
        rw [hzero] at hloop
        exact Nat.succ_ne_zero _ hloop.symm
      have hpolls : Task.polls p (n + 1) t.loopCounter.toNat =
          Task.polls p n (t.loopCounter.toNat + 1) + 1 := by
        rw [Task.polls, Task.polls]
        omega
      have hall := hlater.goesOn_from hiterate (hv.sees_of_eq hat hcontexts)
      rw [hglimpses, hopening, hloop, Task.polling_congr hback.destination_eq hback.subStep_eq,
        List.append_assoc] at hall
      rw [hpolls, Task.polling, if_pos (Nat.lt_of_succ_le hlimit)]
      exact hall
    | givingUp hlimit =>
      rw [hnext] at hlimit
      have hpolls : Task.polls p (n + 1) t.loopCounter.toNat = 1 := by
        rw [Task.polls]
        omega
      have hone := completes_one hiterate (hv.sees_of_eq hat hcontexts)
        (h.leaves_eq p v ▸ hv.left hat _ _)
      rw [hglimpses] at hone
      rw [hpolls, Task.polling, if_neg (Nat.not_lt_of_le (Nat.le_of_lt_succ hlimit))]
      exact hone

end PlainRun

end TaskRelay
