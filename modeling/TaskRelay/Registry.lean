import TaskRelay.Step.Basic

/-!
# Registered steps

A registry says which step does the work of which destination.  A destination
is registered once; a second step for it is refused, and the first one stays.
-/

namespace TaskRelay

/-- Steps by destination, in the order in which they were registered. -/
structure Registry (α : Type) where
  entries : List (Destination × α) := []

structure DuplicateStep where
  destination : Destination
deriving DecidableEq, Repr

def DuplicateStep.message (e : DuplicateStep) : String :=
  "duplicate step for destination=" ++ e.destination

namespace Registry

variable {α σ : Type}

instance : EmptyCollection (Registry α) := ⟨⟨[]⟩⟩

def get? (r : Registry α) (destination : Destination) : Option α :=
  r.entries.lookup destination

def contains (r : Registry α) (destination : Destination) : Bool :=
  (r.get? destination).isSome

def register (r : Registry α) (destination : Destination) (step : α) :
    Except DuplicateStep (Registry α) :=
  if r.contains destination then .error ⟨destination⟩
  else .ok ⟨r.entries ++ [(destination, step)]⟩

def ofList (steps : List (Destination × α)) : Except DuplicateStep (Registry α) :=
  steps.foldlM (fun r (destination, step) => r.register destination step) ∅

def size (r : Registry α) : Nat :=
  r.entries.length

/-- The destinations that have a step, in the order of their names. -/
def destinations (r : Registry α) : List Destination :=
  (r.entries.map (·.1)).mergeSort fun a b => !(b < a)

/-- The service that calls the registered steps.  For a destination without one
it answers with an error and leaves everything as it is. -/
def service (r : Registry (Step σ)) : Service σ where
  supports := r.contains
  invoke context state :=
    match r.get? context.task.destination with
    | some step => step context state
    | none => ({ reply := .error (.unknownDestination context.task.destination) }, state)

end Registry

end TaskRelay
