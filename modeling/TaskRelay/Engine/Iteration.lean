import TaskRelay.Batch
import TaskRelay.JobEvent
import TaskRelay.Pipeline
import TaskRelay.Step.Basic

/-!
# Iterations

An iteration takes the next task out of a batch, has it done, and says how the
run goes on: it is complete, it is aborted, or the tasks that are left are
published again.  An iteration has two halves.  `Pipeline.choose` finds the task and
its context; `Pipeline.conclude` turns the reply into events and, unless the run
ends, into the message that continues it.  Neither publishes or reports anything
by itself.
-/

namespace TaskRelay

/-- How a run goes on after an iteration. -/
inductive Continuation where
  | complete
  /-- `remaining` tasks have been published again, after a pause of `delay`
  milliseconds. -/
  | requeued (remaining delay : Nat)
  | aborted
deriving DecidableEq, Repr

def Continuation.isTerminal : Continuation → Bool
  | .requeued _ _ => false
  | .complete | .aborted => true

structure Notice where
  action : String
  state : JobState
  detail : Option String := none
deriving DecidableEq, Repr

structure Conclusion where
  notices : List Notice := []
  /-- The message that is published, and how long it is held back. -/
  requeue : Option (Message × Nat) := none
  continuation : Continuation
deriving DecidableEq, Repr

inductive Choice where
  | nothing
  /-- A task with its context, and the tasks that are left. -/
  | dispatch (context : Context) (rest : TaskList)
deriving DecidableEq, Repr

namespace Batch

/-- The correlation id that comes with a batch, when its tasks are done in the
given order. -/
def correlationOf? (b : Batch) (order : PhaseOrder) : Option String :=
  match b.tasks.popNext? order with
  | none => b.attributes.get? correlationHeader
  | some (task, _) => Context.correlationOf? task b.attributes

end Batch

namespace Pipeline

/-- Finds the task of an iteration.  The id `fresh` is for a run that has none
yet. -/
def choose (p : Pipeline) (b : Batch) (fresh : String) : Choice :=
  match b.tasks.popNext? p.order with
  | none => .nothing
  | some (task, rest) => .dispatch (Context.rehydrate task b.attributes fresh) rest

/-- What is reported before a step is called: the start of a task, when the step
sees it for the first time. -/
def startNotices (context : Context) : List Notice :=
  if context.isFirstInvocation then [{ action := context.task.destination, state := .started }]
  else []

/-- Goes on with the tasks that are left.  The run is complete without any. -/
def advance (p : Pipeline) (tasks : TaskList) (attributes : Headers) (delay : Nat) :
    Conclusion :=
  if tasks.isComplete then
    { notices := [{ action := p.action, state := .ok }], continuation := .complete }
  else
    { requeue := some ({ attributes, payload := tasks.encode }, delay)
      continuation := .requeued tasks.size delay }

/-- The detail of the event that a task has been given up. -/
def timeoutDetail (loopCounter : UInt32) : String :=
  "gave up after " ++ loopCounter.toNat.repr ++ " reschedules"

def withFollowUp (rest : TaskList) : Option Task → TaskList
  | some next => rest.add next
  | none => rest

/-- Goes on after an outcome, with the context as the step has left it. -/
def concludeOutcome (p : Pipeline) (rest : TaskList) (context : Context) (outcome : Outcome) :
    Conclusion :=
  let attributes := context.carriedAttributes p.carry
  match p.retry.decide outcome context.loopCounter with
  | .finished => p.advance (withFollowUp rest context.preparedFollowUp) attributes 0
  | .retry loopCounter delay =>
    p.advance (rest.add (context.retryTask loopCounter)) attributes delay
  | .timedOut loopCounter =>
    let next := p.advance rest attributes 0
    let notice : Notice :=
      { action := context.task.destination, state := .timeout
        detail := some (timeoutDetail loopCounter) }
    { next with notices := notice :: next.notices }

/-- Goes on after the reply of a step, or breaks off with it. -/
def conclude? (p : Pipeline) (rest : TaskList) (context : Context) : Reply → Option Conclusion
  | .outcome outcome => some (p.concludeOutcome rest context outcome)
  | .error e =>
    some {
      notices := [{ action := context.task.destination, state := .failed, detail := e.message }]
      continuation := .aborted }
  | .panic => none

end Pipeline

end TaskRelay
