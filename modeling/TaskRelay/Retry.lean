/-!
# Retries

A step is done with a task or wants to see it again.  How often it may see it
again, and how long it has to wait, is the retry policy; the verdict on one
answer follows from the policy and the loop counter of the task.
-/

namespace TaskRelay

inductive Outcome where
  | done
  | reschedule
deriving DecidableEq, Repr

def Outcome.ofName? : String → Option Outcome
  | "DONE" => some .done
  | "RESCHEDULE" => some .reschedule
  | _ => none

def Outcome.name : Outcome → String
  | .done => "DONE"
  | .reschedule => "RESCHEDULE"

/-- How often a task may be put back, and for how many milliseconds. -/
structure RetryPolicy where
  maxRetries : UInt32
  delay : Nat
deriving DecidableEq, Repr

/-- What becomes of a task after its step has answered. -/
inductive Verdict where
  | finished
  | retry (loopCounter : UInt32) (delay : Nat)
  | timedOut (loopCounter : UInt32)
deriving DecidableEq, Repr

namespace RetryPolicy

def geocoder : RetryPolicy := ⟨600, 15000⟩

def exporting : RetryPolicy := ⟨480, 15000⟩

def isExhausted (p : RetryPolicy) (loopCounter : UInt32) : Bool :=
  p.maxRetries < loopCounter

/-- The next loop counter, which stays at the largest number there is. -/
def succCounter (loopCounter : UInt32) : UInt32 :=
  if loopCounter = 4294967295 then loopCounter else loopCounter + 1

/-- The verdict on an answer to a task with the given loop counter. -/
def decide (p : RetryPolicy) (outcome : Outcome) (loopCounter : UInt32) : Verdict :=
  match outcome with
  | .done => .finished
  | .reschedule =>
    let next := succCounter loopCounter
    if p.isExhausted next then .timedOut next else .retry next p.delay

end RetryPolicy

end TaskRelay
