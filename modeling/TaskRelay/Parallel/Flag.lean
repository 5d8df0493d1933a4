/-!
# The abort flag and its checkpoints

The branches of a parallel step share a flag, which goes from building to abort
once and for all.  Each branch has a checkpoint of its own, which it asks
before a piece of work: the checkpoint counts the answers that let the branch
proceed, and remembers whether the branch has ever been told to stop.
-/

namespace TaskRelay.Parallel

inductive Flag where
  | building
  | abort
deriving DecidableEq, Repr

namespace Flag

def isAborted : Flag → Bool
  | .building => false
  | .abort => true

/-- Sets the flag to abort, and tells whether it was not there yet. -/
def raise (flag : Flag) : Bool × Flag :=
  (!flag.isAborted, .abort)

def name : Flag → String
  | .building => "Building"
  | .abort => "Abort"

end Flag

/-- What a branch has been told so far. -/
structure Checkpoint where
  passed : Nat := 0
  /-- Whether the branch has been told to stop. -/
  observedAbort : Bool := false
deriving DecidableEq, Repr

/-- Asks whether to proceed under the given flag. -/
def Checkpoint.proceed (c : Checkpoint) (flag : Flag) : Bool × Checkpoint :=
  if flag.isAborted then (false, { c with observedAbort := true })
  else (true, { c with passed := c.passed + 1 })

end TaskRelay.Parallel
