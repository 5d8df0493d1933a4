import TaskRelay.Proofs.Engine.Iteration

/-!
# Runs as values

A run without a channel: its tasks and attributes are values, and each iteration hands them to the
next one.  Nothing is written or read, collected or merged.

What can be seen of a run, the reports, the calls of steps and the continuations, is a list of
observations, in their order.
-/

namespace TaskRelay

/-- Something that can be seen of a run. -/
inductive Observation where
  | report (correlationId domain : String) (n : Notice)
  | dispatch (context : Context)
  | continued (c : Continuation)
deriving DecidableEq, Repr

/-- A run between two iterations, with the state of its steps. -/
structure PlainRun (σ : Type) where
  tasks : TaskList
  attributes : Headers
  state : σ

namespace PlainRun

variable {σ : Type}

/-- The id under which the end of a run is reported when no task is left. -/
def correlationId (r : PlainRun σ) : String :=
  (r.attributes.get? correlationHeader).getD ""

/-- Goes on after a pause, unless no task is left. -/
def proceed (p : Pipeline) (id : String) (r : PlainRun σ) (delay : Nat) :
    List Observation × Option (PlainRun σ) :=
  if r.tasks.isComplete then
    ([.report id p.domain { action := p.action, state := .ok }, .continued .complete], none)
  else ([.continued (.requeued r.tasks.size delay)], some r)

/-- Goes on after the reply of a step, with the context as the step has left it. -/
def conclude (p : Pipeline) (rest : TaskList) (state : σ) (context : Context) :
    Reply → List Observation × Option (PlainRun σ)
  | .panic => ([], none)
  | .error e =>
    ([.report context.correlationId p.domain
        { action := context.task.destination, state := .failed, detail := e.message },
      .continued .aborted], none)
  | .outcome outcome =>
    let attributes := context.carriedAttributes p.carry
    let go tasks delay := proceed p context.correlationId { tasks, attributes, state } delay
    match p.retry.decide outcome context.loopCounter with
    | .finished => go (Pipeline.withFollowUp rest context.preparedFollowUp) 0
    | .retry loopCounter delay => go (rest.add (context.retryTask loopCounter)) delay
    | .timedOut loopCounter =>
      let (observations, next) := go rest 0
      (.report context.correlationId p.domain
        { action := context.task.destination, state := .timeout
          detail := some (Pipeline.timeoutDetail loopCounter) } :: observations, next)

/-- Has the next task done. -/
def iterate (p : Pipeline) (service : Service σ) (r : PlainRun σ) :
    List Observation × Option (PlainRun σ) :=
  match r.tasks.popNext? p.order with
  | none => proceed p r.correlationId r 0
  | some (task, rest) =>
    let context := Context.rehydrate task r.attributes r.correlationId
    let (attempt, state) := service.invoke context r.state
    let (observations, next) :=
      conclude p rest state (context.editAll attempt.edits) attempt.reply
    ((Pipeline.startNotices context).map (.report context.correlationId p.domain) ++
      .dispatch context :: observations, next)

theorem iterate_of_popNext? {p : Pipeline} {r : PlainRun σ} {task : Task} {rest : TaskList}
    (h : r.tasks.popNext? p.order = some (task, rest)) (service : Service σ) :
    r.iterate p service =
      let context := Context.rehydrate task r.attributes r.correlationId
      let called := service.invoke context r.state
      let next := conclude p rest called.2 (context.editAll called.1.edits) called.1.reply
      ((Pipeline.startNotices context).map (.report context.correlationId p.domain) ++
        .dispatch context :: next.1, next.2) := by
  rw [iterate, h]

/-- The observations of a number of iterations, and the run after them unless it is over. -/
def iterations (p : Pipeline) (service : Service σ) :
    Nat → PlainRun σ → List Observation × Option (PlainRun σ)
  | 0, r => ([], some r)
  | n + 1, r =>
    match r.iterate p service with
    | (observations, none) => (observations, none)
    | (observations, some next) =>
      let (later, last) := iterations p service n next
      (observations ++ later, last)

end PlainRun

end TaskRelay
