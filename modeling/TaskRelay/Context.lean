import TaskRelay.CarryOver
import TaskRelay.Task

/-!
# The context of a dispatch

A step sees a task through its context: the headers of the task laid over the
attributes of the message it came with, and the correlation id of the run.  What
the step writes goes into the context, and from there into the task that follows
or into the retry of the same task.  Loop counter and correlation id are out of
the step's reach.
-/

namespace TaskRelay

/-- What a step sees and may change while it handles a task. -/
structure Context where
  task : Task
  loopCounter : UInt32
  correlationId : String
  headers : Headers
  /-- The names of the headers that the step has written. -/
  written : List String := []
  /-- The task that is to follow once this one is done. -/
  followUp : Option Task := none
deriving DecidableEq, Repr

namespace Context

def shownHeaders (task : Task) (attributes : Headers) : Headers :=
  (attributes.overlay task.headers).erase loopCounterHeader

def correlationOf? (task : Task) (attributes : Headers) : Option String :=
  (shownHeaders task attributes).get? correlationHeader

/-- The context of a task that came with the given attributes.  The id `fresh`
is for a run that has none yet. -/
def rehydrate (task : Task) (attributes : Headers) (fresh : String) : Context :=
  let correlationId := (correlationOf? task attributes).getD fresh
  { task
    loopCounter := task.loopCounter
    correlationId
    headers := (shownHeaders task attributes).insert correlationHeader correlationId }

def isFirstInvocation (c : Context) : Bool :=
  !c.task.isStarted && c.loopCounter == 0

def header? (c : Context) (name : String) : Option String :=
  c.headers.get? name

/-- Writes a header; loop counter and correlation id cannot be written. -/
def setHeader (c : Context) (name value : String) : Context :=
  if name = loopCounterHeader ∨ name = correlationHeader then c
  else { c with headers := c.headers.insert name value, written := name :: c.written }

/-- Says which task is to follow, in place of one named before. -/
def scheduleFollowUp (c : Context) (next : Task) : Context :=
  { c with followUp := some next }

inductive Edit where
  | setHeader (name value : String)
  | scheduleFollowUp (next : Task)
deriving DecidableEq, Repr

def edit (c : Context) : Edit → Context
  | .setHeader name value => c.setHeader name value
  | .scheduleFollowUp next => c.scheduleFollowUp next

def editAll (c : Context) (edits : List Edit) : Context :=
  edits.foldl edit c

def writtenHeaders (c : Context) : Headers :=
  c.headers.filter fun name _ => c.written.contains name

/-- The attributes for the message that continues the run. -/
def carriedAttributes (c : Context) (carry : CarryOver) : Headers :=
  (carry.select c.headers).insert correlationHeader c.correlationId

/-- The task to follow, with the written headers that it lacks and without a loop
counter. -/
def preparedFollowUp (c : Context) : Option Task :=
  c.followUp.map fun next =>
    let missing := c.writtenHeaders.filter fun name _ => (next.header? name).isNone
    (next.withHeaders missing).withoutHeader loopCounterHeader

/-- The task put back with a new loop counter and everything its step has
written. -/
def retryTask (c : Context) (loopCounter : UInt32) : Task :=
  (c.task.withHeaders c.writtenHeaders).withHeader loopCounterHeader loopCounter.toNat.repr

end Context

end TaskRelay
