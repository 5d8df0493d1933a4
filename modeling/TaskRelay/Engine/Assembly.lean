import TaskRelay.Pipeline
import TaskRelay.Step.Basic
import TaskRelay.Text.Blank
import TaskRelay.Text.Quoted

/-!
# Engines and how they are put together

An engine is a pipeline with the service that does its work.  It is put together
from parts, and only if nothing is missing, the topic is no blank text and the
service knows every destination that it is expected to know.
-/

namespace TaskRelay

/-- A pipeline with the service that does its work, and the state of that
service. -/
structure Engine (σ : Type) where
  pipeline : Pipeline
  service : Service σ
  state : σ

inductive EnginePart where
  | pipeline
  | dispatcher
  | channel
deriving DecidableEq, Repr

def EnginePart.name : EnginePart → String
  | .pipeline => "pipeline"
  | .dispatcher => "dispatcher"
  | .channel => "channel"

inductive AssemblyError where
  | missing (part : EnginePart)
  | emptyTopic (pipeline : String)
  | unsupported (destinations : List Destination)
deriving DecidableEq, Repr

namespace AssemblyError

/-- A destination as messages list it. -/
def quotedDestination (d : Destination) : String :=
  "Destination(" ++ Text.quoted d ++ ")"

def message : AssemblyError → String
  | .missing part => "missing collaborator: " ++ part.name
  | .emptyTopic pipeline => "invalid pipeline " ++ pipeline ++ ": empty topic"
  | .unsupported destinations =>
    "unresolved destinations: [" ++ ", ".intercalate (destinations.map quotedDestination) ++
      "]. These destinations were expected but the dispatcher does not support them."

end AssemblyError

structure EngineParts (σ : Type) where
  pipeline : Option Pipeline := none
  service : Option (Service σ × σ) := none
  hasChannel : Bool := false
  /-- The destinations that the service is expected to know. -/
  expected : List Destination := []

def EngineParts.assemble {σ : Type} (parts : EngineParts σ) :
    Except AssemblyError (Engine σ) := do
  let some pipeline := parts.pipeline | throw (.missing .pipeline)
  let some (service, state) := parts.service | throw (.missing .dispatcher)
  unless parts.hasChannel do throw (.missing .channel)
  if Text.isBlankText pipeline.topic then throw (.emptyTopic pipeline.name)
  let unsupported := parts.expected.filter fun d => !service.supports d
  unless unsupported.isEmpty do throw (.unsupported unsupported)
  return { pipeline, service, state }

end TaskRelay
