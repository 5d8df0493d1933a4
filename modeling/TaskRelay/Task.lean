import TaskRelay.Headers
import TaskRelay.Phase
import TaskRelay.Text.Decimal

/-!
# Tasks

A task is one unit of work of a run: a phase and a destination say what is to be
done and by whom, the sub-step says how far it has come, and the headers carry
everything else, such as how often it has been put back.
-/

namespace TaskRelay

abbrev Destination := String

/-- What makes two tasks the same unit of work. -/
structure TaskKey where
  phase : Phase
  destination : Destination
deriving DecidableEq, Repr

structure Task where
  phase : Phase
  subStep : UInt32 := 0
  destination : Destination
  headers : Headers := ∅
deriving DecidableEq, Repr

namespace TaskKey

def compare (a b : TaskKey) : Ordering :=
  (Ord.compare a.phase b.phase).then (Ord.compare a.destination b.destination)

end TaskKey

namespace Task

def key (t : Task) : TaskKey :=
  ⟨t.phase, t.destination⟩

def header? (t : Task) (name : String) : Option String :=
  t.headers.get? name

/-- How often the task has been put back; a header that is no number counts as
never. -/
def loopCounter (t : Task) : UInt32 :=
  ((t.header? loopCounterHeader).bind Text.word32?).getD 0

/-- Whether a sub-step of the task has been completed. -/
def isStarted (t : Task) : Bool :=
  0 < t.subStep

/-- Whether work on the task has begun, be it that it was only put back. -/
def isInFlight (t : Task) : Bool :=
  t.isStarted || 0 < t.loopCounter

structure Progress where
  subStep : UInt32
  loopCounter : UInt32
deriving DecidableEq, Repr

def progress (t : Task) : Progress :=
  ⟨t.subStep, t.loopCounter⟩

/-- Whether a task has come further than another: in the sub-step, or in the
loop counter where the sub-steps are equal. -/
def Progress.isAheadOf (a b : Progress) : Bool :=
  b.subStep < a.subStep || (a.subStep == b.subStep && b.loopCounter < a.loopCounter)

def withHeader (t : Task) (name value : String) : Task :=
  { t with headers := t.headers.insert name value }

def withHeaders (t : Task) (upper : Headers) : Task :=
  { t with headers := t.headers.overlay upper }

def withoutHeader (t : Task) (name : String) : Task :=
  { t with headers := t.headers.erase name }

/-- The next sub-step of the same unit of work, with no headers yet. -/
def nextSubStep (t : Task) : Task :=
  { phase := t.phase, subStep := t.subStep + 1, destination := t.destination }

/-- The task as it is shown to people. -/
def display (t : Task) : String :=
  t.phase ++ "/" ++ t.destination ++ "#" ++ t.subStep.toNat.repr

end Task

end TaskRelay
