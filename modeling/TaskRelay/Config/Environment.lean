import TaskRelay.Config.Basic
import TaskRelay.Text.Decimal
import TaskRelay.Text.Quoted

/-!
# Environment variables

Variables override parts of a configuration, one after the other in a fixed order.
A value that has to be a number or a truth value and is none ends the overriding,
and what has been overridden before stays so.
-/

namespace TaskRelay

/-- Environment variables.  Of a repeated name the last value counts. -/
abbrev Environment := List (String × String)

def Environment.value? (env : Environment) (key : String) : Option String :=
  env.reverse.lookup key

inductive ConfigError where
  | unreadable
  /-- The file makes no configuration. -/
  | malformed
  | invalidVariable (key value : String)
  | unknownPipeline (name : String)
  | invalid (fault : ConfigFault)
deriving DecidableEq, Repr

/-- The text of the error; what is wrong with a file is not told. -/
def ConfigError.message : ConfigError → String
  | .unreadable => "failed to read config file"
  | .malformed => "invalid config file"
  | .invalidVariable key value => "invalid value for " ++ key ++ ": " ++ Text.quoted value
  | .unknownPipeline name => "unknown pipeline: " ++ name
  | .invalid fault => "invalid configuration: " ++ fault.reason

/-- A variable with what it does to a configuration; `none` where the value is not
of the kind that it has to be. -/
structure Override where
  key : String
  apply : String → Config → Option Config

namespace Override

def flag? (value : String) : Option Bool :=
  match Text.trim value with
  | "true" => some true
  | "false" => some false
  | _ => none

def word64? (value : String) : Option Nat :=
  Text.natural? Numeral.maxWord (Text.trim value)

def word32? (value : String) : Option UInt32 :=
  Text.word32? (Text.trim value)

def general : List Override :=
  [{ key := "GEOFLOW_ENV", apply := fun v c => some { c with environment := v } },
    { key := "GEOFLOW_LOG"
      apply := fun v c => some { c with logging := { c.logging with filter := some v } } },
    { key := "GEOFLOW_LOG_JSON"
      apply := fun v c => (flag? v).map fun json =>
        { c with logging := { c.logging with json } } },
    { key := "GEOFLOW_AGGREGATOR_MAX_MESSAGES"
      apply := fun v c => (word64? v).map fun maxMessages =>
        { c with collection := { c.collection with maxMessages } } },
    { key := "GEOFLOW_AGGREGATOR_WINDOW_MS"
      apply := fun v c => (word64? v).map fun window =>
        { c with collection := { c.collection with window } } }]

def pipelineName (name : String) : String :=
  String.ofList ((Text.upperCase name).toList.map fun c => if c = '-' then '_' else c)

def pipelineKey (name suffix : String) : String :=
  "GEOFLOW_" ++ pipelineName name ++ suffix

def ofPipeline (name : String) : List Override :=
  let modify (c : Config) (f : PipelineConfig → PipelineConfig) : Config :=
    { c with pipelines := c.pipelines.modify name f }
  [{ key := pipelineKey name "_MAX_RETRIES"
     apply := fun v c => (word32? v).map fun maxRetries =>
       modify c fun p => { p with retry := { p.retry with maxRetries } } },
    { key := pipelineKey name "_DELAY_MS"
      apply := fun v c => (word64? v).map fun delay =>
        modify c fun p => { p with retry := { p.retry with delay } } },
    { key := pipelineKey name "_TOPIC"
      apply := fun v c => some (modify c fun p => { p with topic := v }) }]

def all (c : Config) : List Override :=
  general ++ c.pipelines.entries.flatMap fun (name, _) => ofPipeline name

/-- Takes up one variable after the other, up to the first with a value that is not
of the right kind. -/
def run (env : Environment) : List Override → Config → Option ConfigError × Config
  | [], c => (none, c)
  | o :: rest, c =>
    match env.value? o.key with
    | none => run env rest c
    | some v =>
      match o.apply v c with
      | none => (some (.invalidVariable o.key v), c)
      | some c => run env rest c

end Override

namespace Config

/-- The configuration with the overrides of an environment, as far as they go, and
the error that ends them. -/
def override (c : Config) (env : Environment) : Option ConfigError × Config :=
  Override.run env (Override.all c) c

def variableNames (c : Config) : List String :=
  (Override.all c).map Override.key

def pipeline (c : Config) (name : String) : Except ConfigError Pipeline :=
  match c.pipeline? name with
  | some p => .ok p
  | none => .error (.unknownPipeline name)

def check (c : Config) : Except ConfigError Unit :=
  match c.fault? with
  | some fault => .error (.invalid fault)
  | none => .ok ()

end Config

end TaskRelay
