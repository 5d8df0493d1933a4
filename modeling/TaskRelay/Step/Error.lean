import TaskRelay.Task

/-!
# Step errors

Why a step could not do its work.  The text of the error goes into the event
that reports the end of the run.
-/

namespace TaskRelay

inductive StepError where
  | unknownDestination (destination : Destination)
  | failed (destination : Destination) (reason : String)
  | invalid (destination : Destination) (reason : String)
deriving DecidableEq, Repr

def StepError.message : StepError → String
  | .unknownDestination d => "no step registered for destination=" ++ d
  | .failed d reason => "step " ++ d ++ " failed: " ++ reason
  | .invalid d reason => "validation failed in " ++ d ++ ": " ++ reason

end TaskRelay
