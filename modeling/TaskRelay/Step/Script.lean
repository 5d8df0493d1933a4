import TaskRelay.Parallel.Run
import TaskRelay.Registry

/-!
# Scripted steps

A scripted step follows a list of behaviours, one for each call, and stays with
the last one.  It serves to try out pipelines without anything behind them.
-/

namespace TaskRelay.Script

inductive FollowUp where
  | task (t : Task)
  /-- The next sub-step of the task at hand. -/
  | nextSubStep
deriving DecidableEq, Repr

inductive Finish where
  | reply (r : Reply)
  /-- As the branches of a parallel step make it end. -/
  | parallel (branches : List Parallel.Branch)

structure Behaviour where
  /-- How long it waits before it does anything. -/
  pause : Nat := 0
  headers : List (String × String) := []
  followUps : List FollowUp := []
  finish : Finish := .reply (.outcome .done)

def Behaviour.edits (b : Behaviour) (context : Context) : List Context.Edit :=
  b.headers.map (fun (name, value) => .setHeader name value) ++
    b.followUps.map fun
      | .task t => .scheduleFollowUp t
      | .nextSubStep => .scheduleFollowUp context.task.nextSubStep

def Behaviour.attempt (b : Behaviour) (context : Context) : Attempt :=
  let edits := b.edits context
  match b.finish with
  | .reply reply => { duration := b.pause, edits, reply }
  | .parallel branches =>
    let a := Parallel.attempt branches context
    { a with
      duration := b.pause + a.duration
      edits
      notes := a.notes.map fun n => { n with instant := b.pause + n.instant } }

abbrev Calls := List (Destination × Nat)

def Calls.add (calls : Calls) (destination : Destination) : Calls :=
  (destination, (calls.lookup destination).getD 0 + 1) :: calls.filter (·.1 != destination)

/-- The behaviour for the call with a number, counted from zero. -/
def behaviour (behaviours : List Behaviour) (call : Nat) : Behaviour :=
  (behaviours[call]?).getD (behaviours.getLast?.getD {})

/-- The step of a destination that follows a list of behaviours. -/
def step (destination : Destination) (behaviours : List Behaviour) : Step Calls :=
  fun context calls =>
    let b := behaviour behaviours ((calls.lookup destination).getD 0)
    (b.attempt context, calls.add destination)

end TaskRelay.Script
