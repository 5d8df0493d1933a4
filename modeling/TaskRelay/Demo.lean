import TaskRelay.Engine.Iteration
import TaskRelay.Parallel.Run
import TaskRelay.Registry
import TaskRelay.Upsert

/-!
# Demonstration pipelines

Two pipelines with steps that only pretend to work.  The geocoder downloads a data
set, converts it in three sub-steps, builds an index from five sources at once,
and rolls out a deployment, which it looks after until all replicas are ready.
The export starts a job and asks for it until it is done.
-/

namespace TaskRelay.Demo

/-- What the steps leave behind for one another. -/
structure State where
  deployments : List String := []
  ready : Nat := 0
  polls : List (String × Nat) := []
deriving DecidableEq, Repr

/-! ### Destinations and headers -/

def download : Destination := "osm.download"

def convert : Destination := "osm.convert"

def index : Destination := "es.build"

def rollout : Destination := "k8s.rollout"

def exportStart : Destination := "export.start"

def exportPoll : Destination := "export.poll"

def datasetHeader : String := "geoflow.dataset"

def exportJobHeader : String := "geoflow.export-job"

def replicasHeader : String := "replicas"

/-! ### The geocoder -/

/-- Names the data set after the run, and goes on to convert it. -/
def downloadStep : Step State := fun context state =>
  ({ edits := [.setHeader datasetHeader ("osm-" ++ context.correlationId),
       .scheduleFollowUp { phase := "CONVERT", destination := convert }]
     reply := .outcome .done }, state)

def convertSubSteps : UInt32 := 3

/-- Goes on to the next sub-step, or to the index after the last one. -/
def convertStep : Step State := fun context state =>
  let next : Task :=
    if context.task.subStep + 1 < convertSubSteps then context.task.nextSubStep
    else { phase := "INDEX", destination := index }
  ({ edits := [.scheduleFollowUp next], reply := .outcome .done }, state)

/-- The sources of the index, and how many units each has. -/
def sources : List (String × Nat) :=
  [("admin-units", 4), ("addresses", 8), ("place-names", 6), ("geodata-export", 3),
    ("transit-stops", 5)]

def unitDuration : Nat := 50

def load : (units : Nat) → Parallel.Program
  | 0 => .finish .ok
  | units + 1 =>
    .proceed fun go => if go then .work unitDuration (load units) else .finish .ok

/-- Loads all sources at once, and goes on to the rollout when all went well. -/
def indexStep : Step State := fun context state =>
  let branches := sources.map fun (name, units) =>
    ({ name, program := load units } : Parallel.Branch)
  let a := Parallel.attempt branches context
  let next : Task := { phase := "DEPLOY", destination := rollout }
  ({ duration := a.duration
     edits := if a.reply = .outcome .done then [.scheduleFollowUp next] else []
     reply := a.reply }, state)

/-- The place where deployments are put.  Updating one starts its replicas
anew. -/
def cluster : UpsertTarget String State where
  create name state :=
    if state.deployments.contains name then (.ok .alreadyExists, state)
    else (.ok .created, { state with deployments := name :: state.deployments })
  update _ state := (.ok (), { state with ready := 0 })

def deployment : String := "pelias-api"

def targetReplicas : Nat := 3

/-- Puts the deployment into place, and then waits for one replica after the
other. -/
def rolloutStep : Step State := fun context state =>
  if context.task.subStep = 0 then
    match cluster.upsert deployment state with
    | (.error e, state) => ({ reply := .error e }, state)
    | (.ok _, state) =>
      ({ edits := [.scheduleFollowUp context.task.nextSubStep], reply := .outcome .done }, state)
  else
    let ready := state.ready + 1
    let shown := ready.repr ++ "/" ++ targetReplicas.repr
    ({ edits := [.setHeader replicasHeader shown]
       reply := .outcome (if ready < targetReplicas then .reschedule else .done) },
      { state with ready })

/-! ### The export -/

def pollsUntilDone : Nat := 3

/-- Starts a job named after the run, and goes on to ask for it. -/
def exportStartStep : Step State := fun context state =>
  let job := "export-" ++ context.correlationId
  ({ edits := [.setHeader exportJobHeader job,
       .scheduleFollowUp { phase := "EXPORT", destination := exportPoll }]
     reply := .outcome .done },
    { state with polls := (job, 0) :: state.polls.filter (·.1 != job) })

def exportPollStep : Step State := fun context state =>
  let destination := context.task.destination
  match context.header? exportJobHeader with
  | none => ({ reply := .error (.failed destination "no export job header") }, state)
  | some job =>
    match state.polls.lookup job with
    | none => ({ reply := .error (.failed destination ("unknown export job " ++ job)) }, state)
    | some polls =>
      ({ reply := .outcome (if polls + 1 < pollsUntilDone then .reschedule else .done) },
        { state with polls := (job, polls + 1) :: state.polls.filter (·.1 != job) })

/-! ### The pipelines -/

inductive Kind where
  | geocoder
  | exporting
deriving DecidableEq, Repr

namespace Kind

def name : Kind → String
  | .geocoder => "geocoder"
  | .exporting => "export"

def all : List Kind := [.geocoder, .exporting]

def ofName? (name : String) : Option Kind :=
  all.find? fun k => k.name = name

def steps : Kind → List (Destination × Step State)
  | .geocoder =>
    [(download, downloadStep), (convert, convertStep), (index, indexStep), (rollout, rolloutStep)]
  | .exporting => [(exportStart, exportStartStep), (exportPoll, exportPollStep)]

def expected (k : Kind) : List Destination :=
  k.steps.map (·.1)

def registry (k : Kind) : Registry (Step State) :=
  ⟨k.steps⟩

def trigger : Kind → TaskList
  | .geocoder => .ofList [{ phase := "DOWNLOAD", destination := download }]
  | .exporting => .ofList [{ phase := "EXPORT", destination := exportStart }]

end Kind

end TaskRelay.Demo
