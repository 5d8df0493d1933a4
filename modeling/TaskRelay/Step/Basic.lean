import TaskRelay.Context
import TaskRelay.Parallel.Branch
import TaskRelay.Retry
import TaskRelay.Step.Error

/-!
# Steps

A step does the work of a task.  It is given the context of the task and answers
with an outcome or an error, or it breaks off without any answer.  What it does
in between takes time, may edit the context in the ways that contexts allow, and
may leave something behind in a state that the steps of a pipeline share.
-/

namespace TaskRelay

inductive Reply where
  | outcome (o : Outcome)
  | error (e : StepError)
  /-- The step breaks off, and whoever called it with it. -/
  | panic
deriving DecidableEq, Repr

/-- One call of a step, from its start to its end. -/
structure Attempt where
  duration : Nat := 0
  /-- What the step does to its context, one thing after the other. -/
  edits : List Context.Edit := []
  reply : Reply
  /-- What branches noted on the way, with instants counted from the start of
  the call. -/
  notes : List Parallel.Note := []

/-- A step: what a call comes to when the steps' shared state is `σ`. -/
abbrev Step (σ : Type) := Context → σ → Attempt × σ

/-- What does the work of a pipeline: the destinations it knows, and the calls of
its steps. -/
structure Service (σ : Type) where
  supports : Destination → Bool
  invoke : Step σ

namespace Service

variable {σ τ : Type}

def onFirst (v : Service σ) : Service (σ × τ) where
  supports := v.supports
  invoke context state :=
    let (attempt, first) := v.invoke context state.1
    (attempt, (first, state.2))

def onSecond (v : Service τ) : Service (σ × τ) where
  supports := v.supports
  invoke context state :=
    let (attempt, second) := v.invoke context state.2
    (attempt, (state.1, second))

end Service

end TaskRelay
