import TaskRelay.Proofs.Run.Wire

/-!
# The calls of a run

A run calls a step in each of its iterations, unless no task is left.  `PlainRun.calls` lists the
calls of a number of iterations, each with the answer of the step and with the run that goes on
afterwards.

What is seen of an iteration after the call is one of four things (`Call.Shows`): nothing, if the
step has broken off, a failure, the end of the run, or that the run goes on.  If the task has been
given up, that is seen before (`PlainRun.iterate_of_call?`).
-/

namespace TaskRelay

variable {σ : Type}

/-- One call of a step in a run. -/
structure Call (σ : Type) where
  /-- The context as the step was given it. -/
  context : Context
  attempt : Attempt
  /-- The run that goes on after the call, if it does. -/
  next : Option (PlainRun σ)

namespace Call

def key (c : Call σ) : TaskKey :=
  c.context.task.key

/-- The context as the step has left it. -/
def edited (c : Call σ) : Context :=
  c.context.editAll c.attempt.edits

/-- The task that the step has let follow. -/
def followUp? (c : Call σ) : Option Task :=
  (c.context.editAll c.attempt.edits).followUp

/-- The units of work that are left after the call. -/
def remaining (c : Call σ) : List TaskKey :=
  match c.next with
  | none => []
  | some r => r.tasks.keys

/-- Whether the task has been given up: its step wants to see it again, but will not. -/
def isDropped (c : Call σ) : Bool :=
  decide (c.attempt.reply = .outcome .reschedule ∧ c.key ∉ c.remaining)

def report (p : Pipeline) (c : Call σ) (n : Notice) : Observation :=
  .report c.context.correlationId p.domain n

/-- That the step sees the task for the first time is reported before the call. -/
def opening (p : Pipeline) (c : Call σ) : List Observation :=
  (Pipeline.startNotices c.context).map (c.report p)

def timeout (p : Pipeline) (c : Call σ) : List Observation :=
  if c.isDropped then
    [c.report p
      { action := c.context.task.destination, state := .timeout
        detail := some (Pipeline.timeoutDetail (RetryPolicy.succCounter c.context.loopCounter)) }]
  else []

/-- What is seen of an iteration after a call. -/
inductive Shows (p : Pipeline) (c : Call σ) : List Observation → Prop
  | breaksOff (hreply : c.attempt.reply = .panic) (hnext : c.next = none) : Shows p c []
  | fails {e : StepError} (hreply : c.attempt.reply = .error e) (hnext : c.next = none) :
    Shows p c
      [c.report p { action := c.context.task.destination, state := .failed, detail := e.message },
        .continued .aborted]
  | completes {o : Outcome} (hreply : c.attempt.reply = .outcome o) (hnext : c.next = none) :
    Shows p c (c.timeout p ++ [c.report p { action := p.action, state := .ok }, .continued .complete])
  | goesOn {o : Outcome} {r : PlainRun σ} {delay : Nat} (hreply : c.attempt.reply = .outcome o)
      (hnext : c.next = some r) :
    Shows p c (c.timeout p ++ [.continued (.requeued r.tasks.size delay)])

end Call

namespace PlainRun

variable {p : Pipeline} {v : Service σ} {r : PlainRun σ} {c : Call σ}

/-- The call of an iteration in which a task is taken. -/
def callFor (p : Pipeline) (service : Service σ) (r : PlainRun σ) (task : Task) : Call σ :=
  let context := Context.rehydrate task r.attributes r.correlationId
  { context, attempt := (service.invoke context r.state).1, next := (r.iterate p service).2 }

def call? (p : Pipeline) (service : Service σ) (r : PlainRun σ) : Option (Call σ) :=
  (r.tasks.popNext? p.order).map fun (task, _) => r.callFor p service task

/-- The calls of a number of iterations. -/
def calls (p : Pipeline) (service : Service σ) : Nat → PlainRun σ → List (Call σ)
  | 0, _ => []
  | n + 1, r =>
    match r.call? p service with
    | none => []
    | some c =>
      match c.next with
      | none => [c]
      | some next => c :: calls p service n next

/-- The run after a call that has come to an outcome. -/
def after (p : Pipeline) (service : Service σ) (r : PlainRun σ) (task : Task) (rest : TaskList)
    (outcome : Outcome) : PlainRun σ :=
  let context := Context.rehydrate task r.attributes r.correlationId
  let called := service.invoke context r.state
  { tasks := p.tasksAfter rest (context.editAll called.1.edits) outcome
    attributes := (context.editAll called.1.edits).carriedAttributes p.carry, state := called.2 }

/-! ## Single iterations -/

theorem call?_of_popNext? {task : Task} {rest : TaskList}
    (h : r.tasks.popNext? p.order = some (task, rest)) :
    r.call? p v = some (r.callFor p v task) := by
  rw [call?, h]
  rfl

theorem popNext?_of_call? (h : r.call? p v = some c) :
    ∃ task rest, r.tasks.popNext? p.order = some (task, rest) ∧ c = r.callFor p v task := by
  obtain ⟨⟨task, rest⟩, hpop, rfl⟩ := Option.map_eq_some_iff.1 h
  exact ⟨task, rest, hpop, rfl⟩

theorem isSound_after {task : Task} {rest : TaskList} (hr : r.IsSound)
    (h : r.tasks.popNext? p.order = some (task, rest)) (outcome : Outcome) :
    (r.after p v task rest outcome).IsSound :=
  ⟨Pipeline.distinct_tasksAfter (TaskList.distinct_popNext? h hr.distinct).2,
    by rw [after, Context.get?_carriedAttributes]; rfl⟩

section Iterations

variable {task : Task} {rest : TaskList}

/-- The context of a call as the step has left it. -/
def editedContext (p : Pipeline) (service : Service σ) (r : PlainRun σ) (task : Task) : Context :=
  (r.callFor p service task).context.editAll (r.callFor p service task).attempt.edits

theorem iterate_of_outcome {outcome : Outcome}
    (h : r.tasks.popNext? p.order = some (task, rest))
    (hreply : (r.callFor p v task).attempt.reply = .outcome outcome) :
    r.iterate p v = ((r.callFor p v task).opening p ++ .dispatch (r.callFor p v task).context ::
        ((p.noticesAfter (r.editedContext p v task) outcome).map ((r.callFor p v task).report p) ++
          (proceed p (r.callFor p v task).context.correlationId (r.after p v task rest outcome)
            (p.delayAfter (r.editedContext p v task) outcome)).1),
      (proceed p (r.callFor p v task).context.correlationId (r.after p v task rest outcome)
        (p.delayAfter (r.editedContext p v task) outcome)).2) := by
  have hcalled : (v.invoke (Context.rehydrate task r.attributes r.correlationId) r.state).1.reply =
    .outcome outcome := hreply
  rw [iterate_of_popNext? h]
  simp only [hcalled, conclude_outcome, Context.editAll_correlationId]
  rfl

/-- After an outcome the run goes on unless no task is left. -/
theorem next_callFor {outcome : Outcome} (h : r.tasks.popNext? p.order = some (task, rest))
    (hreply : (r.callFor p v task).attempt.reply = .outcome outcome) :
    (r.callFor p v task).next =
      if (r.after p v task rest outcome).tasks.tasks = [] then none
      else some (r.after p v task rest outcome) := by
  show (r.iterate p v).2 = _
  rw [iterate_of_outcome h hreply]
  simp only [proceed, TaskList.isComplete, List.isEmpty_iff]
  split
  · next hempty => rfl
  · next hne => rfl

theorem remaining_callFor {outcome : Outcome} (h : r.tasks.popNext? p.order = some (task, rest))
    (hreply : (r.callFor p v task).attempt.reply = .outcome outcome) :
    (r.callFor p v task).remaining =
      (p.tasksAfter rest (r.editedContext p v task) outcome).keys := by
  rw [Call.remaining, next_callFor h hreply]
  by_cases hempty : (r.after p v task rest outcome).tasks.tasks = []
  · have hkeys : (p.tasksAfter rest (r.editedContext p v task) outcome).keys = [] := by
      rw [TaskList.keys]
      exact congrArg (List.map Task.key) hempty
    rw [if_pos hempty, hkeys]
  · rw [if_neg hempty]
    rfl

/-- A task is given up exactly if its retries are exhausted. -/
theorem isDropped_callFor {outcome : Outcome} (hr : r.IsSound)
    (h : r.tasks.popNext? p.order = some (task, rest))
    (hreply : (r.callFor p v task).attempt.reply = .outcome outcome) :
    (r.callFor p v task).isDropped = true ↔ outcome = .reschedule ∧
      p.retry.isExhausted (RetryPolicy.succCounter task.loopCounter) = true := by
  have hcounter : (r.editedContext p v task).loopCounter = task.loopCounter :=
    Context.editAll_loopCounter _ _
  have htask : (r.editedContext p v task).task = task := Context.editAll_task _ _
  rw [Call.isDropped, decide_eq_true_iff, hreply, remaining_callFor h hreply]
  cases outcome with
  | done => simp
  | reschedule =>
    rw [Pipeline.tasksAfter, hcounter]
    cases hexhausted : p.retry.isExhausted (RetryPolicy.succCounter task.loopCounter) with
    | true =>
      rw [RetryPolicy.decide_reschedule_of_exhausted hexhausted]
      have hgone := (TaskList.distinct_popNext? h hr.distinct).1
      exact ⟨fun _ => ⟨rfl, rfl⟩, fun _ => ⟨rfl, hgone⟩⟩
    | false =>
      rw [RetryPolicy.decide_reschedule_of_not_exhausted hexhausted]
      have hback : task.key ∈ (rest.add ((r.editedContext p v task).retryTask
          (RetryPolicy.succCounter task.loopCounter))).keys := by
        rw [TaskList.mem_keys_add, Context.key_retryTask, htask]
        exact .inr rfl
      exact ⟨fun hdropped => absurd hback hdropped.2, fun hfalse => Bool.noConfusion hfalse.2⟩

/-- What is reported about the task itself is that it has been given up, if it has. -/
theorem noticesAfter_callFor {outcome : Outcome} (hr : r.IsSound)
    (h : r.tasks.popNext? p.order = some (task, rest))
    (hreply : (r.callFor p v task).attempt.reply = .outcome outcome) :
    (p.noticesAfter (r.editedContext p v task) outcome).map ((r.callFor p v task).report p) =
      (r.callFor p v task).timeout p := by
  have hcounter : (r.editedContext p v task).loopCounter = task.loopCounter :=
    Context.editAll_loopCounter _ _
  have htask : (r.editedContext p v task).task = task := Context.editAll_task _ _
  have hdropped := isDropped_callFor hr h hreply
  rw [Call.timeout, Pipeline.noticesAfter, hcounter]
  cases outcome with
  | done =>
    rw [if_neg fun hgone => Outcome.noConfusion (hdropped.1 hgone).1]
    rfl
  | reschedule =>
    cases hexhausted : p.retry.isExhausted (RetryPolicy.succCounter task.loopCounter) with
    | true =>
      rw [RetryPolicy.decide_reschedule_of_exhausted hexhausted,
        if_pos (hdropped.2 ⟨rfl, hexhausted⟩)]
      simp only [htask]
      rfl
    | false =>
      rw [RetryPolicy.decide_reschedule_of_not_exhausted hexhausted,
        if_neg fun hgone => Bool.noConfusion (hexhausted.symm.trans (hdropped.1 hgone).2)]
      rfl

end Iterations

/-- **What an iteration shows.** -/
theorem iterate_of_call? (hr : r.IsSound) (h : r.call? p v = some c) :
    ∃ tail, r.iterate p v = (c.opening p ++ .dispatch c.context :: tail, c.next) ∧
      c.Shows p tail := by
  obtain ⟨task, rest, hpop, rfl⟩ := popNext?_of_call? h
  cases hreply : (r.callFor p v task).attempt.reply with
  | panic =>
    have hcalled : (v.invoke (Context.rehydrate task r.attributes r.correlationId) r.state).1.reply =
      .panic := hreply
    have hiterate := iterate_of_popNext? hpop v
    simp only [hcalled, conclude] at hiterate
    refine ⟨[], ?_, .breaksOff hreply (congrArg Prod.snd hiterate)⟩
    exact Prod.ext (by rw [hiterate]; rfl) rfl
  | error e =>
    have hcalled : (v.invoke (Context.rehydrate task r.attributes r.correlationId) r.state).1.reply =
      .error e := hreply
    have hiterate := iterate_of_popNext? hpop v
    simp only [hcalled, conclude, Context.editAll_correlationId, Context.editAll_task] at hiterate
    refine ⟨_, ?_, .fails hreply (congrArg Prod.snd hiterate)⟩
    exact Prod.ext (by rw [hiterate]; rfl) rfl
  | outcome o =>
    have hiterate := iterate_of_outcome hpop hreply
    have hnext := next_callFor hpop hreply
    rw [noticesAfter_callFor hr hpop hreply] at hiterate
    by_cases hempty : (r.after p v task rest o).tasks.tasks = []
    · rw [if_pos hempty] at hnext
      simp only [proceed, TaskList.isComplete, List.isEmpty_iff, if_pos hempty] at hiterate
      refine ⟨_, ?_, .completes hreply hnext⟩
      exact Prod.ext (by rw [hiterate]; rfl) rfl
    · rw [if_neg hempty] at hnext
      simp only [proceed, TaskList.isComplete, List.isEmpty_iff, if_neg hempty] at hiterate
      refine ⟨(r.callFor p v task).timeout p ++ [.continued (.requeued
        (r.after p v task rest o).tasks.size (p.delayAfter (r.editedContext p v task) o))],
        ?_, .goesOn hreply hnext⟩
      exact Prod.ext (by rw [hiterate]) rfl

/-- Without a task an iteration is the end of the run. -/
theorem iterate_of_call?_eq_none (h : r.call? p v = none) :
    r.iterate p v =
      ([.report r.correlationId p.domain { action := p.action, state := .ok },
        .continued .complete], none) := by
  have hpop : r.tasks.popNext? p.order = none := Option.map_eq_none_iff.1 h
  have hempty : r.tasks.tasks = [] := TaskList.popNext?_eq_none_iff.1 hpop
  rw [iterate, hpop]
  simp only [proceed, TaskList.isComplete, hempty]
  rfl

/-- A run goes on after an outcome only, with the tasks that are left. -/
theorem exists_after {next : PlainRun σ} (hr : r.IsSound) (h : r.call? p v = some c)
    (hnext : c.next = some next) :
    ∃ task rest outcome, r.tasks.popNext? p.order = some (task, rest) ∧ c = r.callFor p v task ∧
      c.attempt.reply = .outcome outcome ∧ next = r.after p v task rest outcome := by
  obtain ⟨task, rest, hpop, rfl⟩ := popNext?_of_call? h
  obtain ⟨tail, -, hshows⟩ := iterate_of_call? hr h
  cases hshows with
  | breaksOff hreply hnone => cases hnext.symm.trans hnone
  | fails hreply hnone => cases hnext.symm.trans hnone
  | completes hreply hnone => cases hnext.symm.trans hnone
  | goesOn hreply hsome =>
    refine ⟨task, rest, _, hpop, rfl, hreply, ?_⟩
    rw [next_callFor hpop hreply] at hnext
    split at hnext
    · cases hnext
    · exact (Option.some.inj hnext).symm

theorem isSound_next {next : PlainRun σ} (hr : r.IsSound) (h : r.call? p v = some c)
    (hnext : c.next = some next) : next.IsSound := by
  obtain ⟨task, rest, outcome, hpop, -, -, rfl⟩ := exists_after hr h hnext
  exact isSound_after hr hpop outcome

/-! ## Many iterations -/

theorem calls_of_call?_eq_none (n : Nat) (h : r.call? p v = none) : r.calls p v n = [] := by
  cases n with
  | zero => rfl
  | succ n => rw [calls, h]

theorem calls_of_over (n : Nat) (h : r.call? p v = some c) (hnext : c.next = none) :
    r.calls p v (n + 1) = [c] := by
  rw [calls, h]
  simp only [hnext]

theorem calls_of_goesOn {next : PlainRun σ} (n : Nat) (h : r.call? p v = some c)
    (hnext : c.next = some next) : r.calls p v (n + 1) = c :: next.calls p v n := by
  rw [calls, h]
  simp only [hnext]

theorem iterations_of_over {shown : List Observation} (n : Nat)
    (h : r.iterate p v = (shown, none)) : r.iterations p v (n + 1) = (shown, none) := by
  rw [iterations, h]

theorem iterations_of_goesOn {shown : List Observation} {next : PlainRun σ} (n : Nat)
    (h : r.iterate p v = (shown, some next)) :
    r.iterations p v (n + 1) =
      (shown ++ (next.iterations p v n).1, (next.iterations p v n).2) := by
  rw [iterations, h]

/-- The calls of some iterations, what is seen of them and what is left after them, by what the first
one comes to. -/
inductive Unfolds (p : Pipeline) (v : Service σ) (r : PlainRun σ) (n : Nat) :
    List (Call σ) → List Observation × Option (PlainRun σ) → Prop
  /-- No task is left. -/
  | idle (hcall : r.call? p v = none) :
    Unfolds p v r n []
      ([.report r.correlationId p.domain { action := p.action, state := .ok },
        .continued .complete], none)
  | last {c : Call σ} {tail : List Observation} (hcall : r.call? p v = some c)
      (hnext : c.next = none) (hshows : c.Shows p tail) :
    Unfolds p v r n [c] (c.opening p ++ .dispatch c.context :: tail, none)
  | more {c : Call σ} {next : PlainRun σ} {tail : List Observation} (hcall : r.call? p v = some c)
      (hnext : c.next = some next) (hsound : next.IsSound) (hshows : c.Shows p tail) :
    Unfolds p v r n (c :: next.calls p v n)
      (c.opening p ++ .dispatch c.context :: tail ++ (next.iterations p v n).1,
        (next.iterations p v n).2)

theorem unfolds (p : Pipeline) (v : Service σ) (n : Nat) (hr : r.IsSound) :
    Unfolds p v r n (r.calls p v (n + 1)) (r.iterations p v (n + 1)) := by
  cases hcall : r.call? p v with
  | none =>
    rw [calls_of_call?_eq_none _ hcall, iterations_of_over n (iterate_of_call?_eq_none hcall)]
    exact .idle hcall
  | some c =>
    obtain ⟨tail, hiterate, hshows⟩ := iterate_of_call? hr hcall
    cases hnext : c.next with
    | none =>
      rw [hnext] at hiterate
      rw [calls_of_over n hcall hnext, iterations_of_over n hiterate]
      exact .last hcall hnext hshows
    | some next =>
      rw [hnext] at hiterate
      rw [calls_of_goesOn n hcall hnext, iterations_of_goesOn n hiterate]
      exact .more hcall hnext (isSound_next hr hcall hnext) hshows

/-- The first call of several is the one of the next iteration, and the others are those of the run
that goes on. -/
theorem calls_eq_cons {n : Nat} {rest : List (Call σ)} (hr : r.IsSound)
    (h : r.calls p v n = c :: rest) :
    r.call? p v = some c ∧
      (rest = [] ∨ ∃ m next, c.next = some next ∧ next.IsSound ∧ rest = next.calls p v m) := by
  cases n with
  | zero => cases h
  | succ n =>
    have hunfolds := unfolds p v n hr
    rw [h] at hunfolds
    generalize r.iterations p v (n + 1) = shown at hunfolds
    cases hunfolds with
    | last hcall hnext hshows => exact ⟨hcall, .inl rfl⟩
    | more hcall hnext hsound hshows => exact ⟨hcall, .inr ⟨n, _, hnext, hsound, rfl⟩⟩

/-- A run that has gone on is what a call has left. -/
theorem exists_call_of_iterations {last : PlainRun σ} (n : Nat) (hr : r.IsSound)
    (h : (r.iterations p v (n + 1)).2 = some last) :
    ∃ (before : PlainRun σ) (c : Call σ), before.IsSound ∧ before.call? p v = some c ∧
      c.next = some last := by
  induction n generalizing r with
  | zero =>
    have hunfolds := unfolds p v 0 hr
    generalize r.calls p v 1 = calls, r.iterations p v 1 = shown at h hunfolds
    cases hunfolds with
    | idle hcall => cases h
    | last hcall hnext hshows => cases h
    | more hcall hnext hsound hshows =>
      cases h
      exact ⟨r, _, hr, hcall, hnext⟩
  | succ n ih =>
    have hunfolds := unfolds p v (n + 1) hr
    generalize r.calls p v (n + 2) = calls, r.iterations p v (n + 2) = shown at h hunfolds
    cases hunfolds with
    | idle hcall => cases h
    | last hcall hnext hshows => cases h
    | more hcall hnext hsound hshows => exact ih hsound h

/-! ## Attributes -/

/-- The attributes of a run after some calls. -/
def attributesAfter (carry : CarryOver) (attributes : Headers) (calls : List (Call σ)) : Headers :=
  match calls.getLast? with
  | none => attributes
  | some c => c.edited.carriedAttributes carry

theorem attributesAfter_cons (carry : CarryOver) (attributes : Headers) (c : Call σ)
    (calls : List (Call σ)) :
    attributesAfter carry attributes (c :: calls) =
      attributesAfter carry (c.edited.carriedAttributes carry) calls := by
  rw [attributesAfter, attributesAfter, List.getLast?_cons]
  cases calls.getLast? <;> rfl

theorem attributes_of_next {next : PlainRun σ} (hr : r.IsSound) (hcall : r.call? p v = some c)
    (hnext : c.next = some next) : next.attributes = c.edited.carriedAttributes p.carry := by
  obtain ⟨task, rest, outcome, -, rfl, -, rfl⟩ := exists_after hr hcall hnext
  rfl

/-- In each call a step is shown its task with the attributes that the call before has left. -/
theorem exists_rehydrate_of_calls {before later : List (Call σ)} (n : Nat) (hr : r.IsSound)
    (hcalls : r.calls p v n = before ++ c :: later) :
    ∃ fresh, c.context = Context.rehydrate c.context.task
      (attributesAfter p.carry r.attributes before) fresh := by
  induction before generalizing r n with
  | nil =>
    obtain ⟨hcall, -⟩ := calls_eq_cons hr hcalls
    obtain ⟨task, rest, -, rfl⟩ := popNext?_of_call? hcall
    exact ⟨_, rfl⟩
  | cons first before ih =>
    obtain ⟨hcall, hnil | ⟨m, next, hnext, hsound, hrest⟩⟩ := calls_eq_cons hr hcalls
    · exact absurd hnil (List.append_ne_nil_of_right_ne_nil _ (List.cons_ne_nil _ _))
    · rw [attributesAfter_cons, ← attributes_of_next hr hcall hnext]
      exact ih m hsound hrest.symm

theorem attributes_of_iterations {last : PlainRun σ} (n : Nat) (hr : r.IsSound)
    (h : (r.iterations p v n).2 = some last) :
    last.attributes = attributesAfter p.carry r.attributes (r.calls p v n) := by
  induction n generalizing r with
  | zero =>
    cases h
    rfl
  | succ n ih =>
    have hunfolds := unfolds p v n hr
    generalize r.calls p v (n + 1) = calls, r.iterations p v (n + 1) = shown at h hunfolds ⊢
    cases hunfolds with
    | idle hcall => cases h
    | last hcall hnext hshows => cases h
    | more hcall hnext hsound hshows =>
      rw [attributesAfter_cons, ← attributes_of_next hr hcall hnext]
      exact ih hsound h

end PlainRun

end TaskRelay
