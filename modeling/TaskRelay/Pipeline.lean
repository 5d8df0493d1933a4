import TaskRelay.CarryOver
import TaskRelay.Phase
import TaskRelay.Retry
import TaskRelay.Text.UpperCase

/-!
# Pipelines

A pipeline is what the runs of one kind have in common: the topic that their task
lists travel on, the names under which their events are reported, how often and
after which pause a task is put back, in which order phases are worked off, and
which headers are carried from task to task.
-/

namespace TaskRelay

structure Pipeline where
  name : String
  /-- The topic that the task lists travel on, which is also the queue whose
  lease a worker has to hold. -/
  topic : String
  domain : String
  /-- The action that events about whole runs name. -/
  action : String
  retry : RetryPolicy := .geocoder
  order : PhaseOrder := .standard
  carry : CarryOver := .standard
deriving DecidableEq, Repr

namespace Pipeline

def named (name topic : String) : Pipeline :=
  { name, topic, domain := Text.upperCase name, action := name ++ ".run" }

end Pipeline

end TaskRelay
