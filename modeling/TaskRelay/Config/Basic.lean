import TaskRelay.Collection
import TaskRelay.Config.Setting
import TaskRelay.Keyed
import TaskRelay.Pipeline
import TaskRelay.Text.Blank

/-!
# Configurations

A configuration says which pipelines there are, how they are run, and how much is
logged.  Whatever it does not say is as usual.  `Config.check` refuses what pipelines
cannot be run with.
-/

namespace TaskRelay

structure LoggingConfig where
  filter : Option String := none
  json : Bool := false
deriving DecidableEq, Repr

/-- How leases are held; times in milliseconds. -/
structure LeaderConfig where
  leaseTtl : Nat := 30000
  /-- The pause before a lease is tried again. -/
  retry : Nat := 5000
deriving DecidableEq, Repr

structure PipelineConfig where
  topic : String
  domain : String
  action : String
  retry : RetryPolicy := .geocoder
deriving DecidableEq, Repr

@[ext] structure Pipelines where
  entries : List (String × PipelineConfig)
  rising : Keyed.Rising entries
deriving DecidableEq, Repr

namespace Pipelines

def empty : Pipelines := ⟨[], Keyed.rising_nil⟩

def get? (p : Pipelines) (name : String) : Option PipelineConfig :=
  Keyed.find? name p.entries

def insert (p : Pipelines) (name : String) (config : PipelineConfig) : Pipelines :=
  ⟨Keyed.insert name config p.entries, Keyed.rising_insert p.rising⟩

def ofList (entries : List (String × PipelineConfig)) : Pipelines :=
  entries.foldl (fun p e => p.insert e.1 e.2) empty

def modify (p : Pipelines) (name : String) (f : PipelineConfig → PipelineConfig) : Pipelines :=
  ⟨p.entries.map fun e => (e.1, if e.1 = name then f e.2 else e.2), Keyed.rising_map p.rising⟩

def standard : Pipelines :=
  ofList [
    ("geocoder", { topic := "geocoder", domain := "GEOCODER", action := "geocoder.run" }),
    ("export",
      { topic := "geocoder-export", domain := "EXPORT", action := "export.poll"
        retry := .exporting })]

end Pipelines

structure Config where
  environment : String := "development"
  logging : LoggingConfig := {}
  collection : CollectionSettings := {}
  /-- The phases, in their order. -/
  phases : List Phase := PhaseOrder.standard.phases
  carryPrefixes : List String := CarryOver.standard.prefixes
  leader : LeaderConfig := {}
  pipelines : Pipelines := .standard
deriving DecidableEq, Repr

inductive ConfigFault where
  | noMessages
  | noWindow
  | noPhases
  | duplicatePhase (phase : Phase)
  | noLease
  /-- A pause as long as a lease or longer. -/
  | longDelay (pipeline : String)
  | emptyTopic (pipeline : String)
  | sharedTopic (topic : String)
deriving DecidableEq, Repr

def ConfigFault.reason : ConfigFault → String
  | .noMessages => "aggregator.max_messages must be > 0"
  | .noWindow => "aggregator.window_ms must be > 0"
  | .noPhases => "phases must not be empty"
  | .duplicatePhase phase => "duplicate phase " ++ phase
  | .noLease => "leader.lease_ttl_ms must be > 0"
  | .longDelay pipeline =>
    "pipeline " ++ pipeline ++ ": retry delay_ms must be shorter than leader.lease_ttl_ms"
  | .emptyTopic pipeline => "pipeline " ++ pipeline ++ " has an empty topic"
  | .sharedTopic topic => "topic " ++ topic ++ " is used by more than one pipeline"

namespace Config

def firstRepeated? {α : Type} [BEq α] (seen : List α) : List α → Option α
  | [] => none
  | a :: as => if seen.contains a then some a else firstRepeated? (a :: seen) as

/-- The first fault of the pipelines, when some topics are in use already. -/
def pipelineFault? (leaseTtl : Nat) (topics : List String) :
    List (String × PipelineConfig) → Option ConfigFault
  | [] => none
  | (name, p) :: rest =>
    if leaseTtl ≤ p.retry.delay then some (.longDelay name)
    else if Text.isBlankText p.topic then some (.emptyTopic name)
    else if topics.contains p.topic then some (.sharedTopic p.topic)
    else pipelineFault? leaseTtl (p.topic :: topics) rest

def fault? (c : Config) : Option ConfigFault :=
  if c.collection.maxMessages = 0 then some .noMessages
  else if c.collection.window = 0 then some .noWindow
  else if c.phases.isEmpty then some .noPhases
  else
    match firstRepeated? [] c.phases with
    | some phase => some (.duplicatePhase phase)
    | none =>
      if c.leader.leaseTtl = 0 then some .noLease
      else pipelineFault? c.leader.leaseTtl [] c.pipelines.entries

def order (c : Config) : PhaseOrder :=
  .ofList c.phases

def carry (c : Config) : CarryOver :=
  ⟨c.carryPrefixes⟩

def pipeline? (c : Config) (name : String) : Option Pipeline :=
  (c.pipelines.get? name).map fun p =>
    { name, topic := p.topic, domain := p.domain, action := p.action, retry := p.retry
      order := c.order, carry := c.carry }

/-- How much is logged in an environment if nothing else is said. -/
def defaultLogLevel (environment : String) : String :=
  if environment = "production" then "info" else "debug"

end Config

end TaskRelay
