import TaskRelay.CommandLine.Options
import TaskRelay.Config.Load
import TaskRelay.Scenario

/-!
# The work of the program

The program sets the demonstration pipelines up one after the other, starting a
run of each if it is asked to, and then either drains one topic after the other or
leaves all of them to be served.  The first thing that fails ends the work, and what
has been done until then stays done.
-/

namespace TaskRelay.CommandLine

inductive Failure where
  | config (e : ConfigError)
  | assembly (e : AssemblyError)
  | worker (e : WorkerError)
  /-- A step has broken off, or the work would not end. -/
  | interrupted
deriving DecidableEq, Repr

def Failure.message : Failure → String
  | .config (.invalid fault) => "Config(Invalid(" ++ Text.quoted fault.reason ++ "))"
  | .config e => "Config(" ++ Text.quoted e.message ++ ")"
  | .assembly e => "Build(" ++ Text.quoted e.message ++ ")"
  | .worker e => "Work(" ++ Text.quoted e.message ++ ")"
  | .interrupted => "Interrupted"

/-- What the program needs to know about the world. -/
structure Surroundings where
  ids : Nat → String
  clock : EventClock
  holder : String

structure Work where
  events : List JobEvent := []
  /-- What has been done on each topic that was drained, with the names of the
  pipelines. -/
  drained : List (String × DrainReport) := []
  failure : Option Failure := none
  /-- What is to be served until the program is stopped. -/
  serving : Option (Scenario Demo.State) := none

/-- The exit code of a program that has done its work. -/
def Work.exitCode (w : Work) : Nat :=
  if w.failure.isSome then 1 else 0

/-- A pause of some milliseconds, in seconds if it is that long. -/
def pauseText (millis : Nat) : String :=
  if millis < 1000 then millis.repr ++ "ms"
  else
    let fraction := ((millis % 1000 + 1000).repr.toList.drop 1).reverse.dropWhile (· == '0')
    let point := if fraction.isEmpty then "" else "."
    (millis / 1000).repr ++ point ++ String.ofList fraction.reverse ++ "s"

def continuationText : Continuation → String
  | .complete => "Complete"
  | .aborted => "Aborted"
  | .requeued remaining delay =>
    "Requeued \x7b remaining: " ++ remaining.repr ++ ", delay: " ++ pauseText delay ++ " \x7d"

def lastText (r : DrainReport) : String :=
  match r.last with
  | some c => "Some(" ++ continuationText c ++ ")"
  | none => "None"

def assemble (c : Config) (k : Demo.Kind) : Except Failure (Engine Demo.State) := do
  let pipeline ← (c.pipeline k.name).mapError .config
  let parts : EngineParts Demo.State :=
    { pipeline, service := some (k.registry.service, {}), hasChannel := true
      expected := k.expected }
  parts.assemble.mapError .assembly

/-- Sets a pipeline up, and starts a run of it if asked to. -/
def setUp (c : Config) (trigger : Bool) (k : Demo.Kind) (s : Site Demo.State) :
    Except Failure Unit × Site Demo.State :=
  match assemble c k with
  | .error f => (.error f, s)
  | .ok e =>
    let s := { s with engines := s.engines ++ [e] }
    if trigger then
      match s.trigger e.pipeline k.trigger ∅ with
      | (.ok _, s) => (.ok (), s)
      | (.error e, s) => (.error (.worker (.channel e)), s)
    else (.ok (), s)

def setUpAll (c : Config) (trigger : Bool) :
    List Demo.Kind → Site Demo.State → Except Failure Unit × Site Demo.State
  | [], s => (.ok (), s)
  | k :: kinds, s =>
    match setUp c trigger k s with
    | (.ok (), s) => setUpAll c trigger kinds s
    | (.error f, s) => (.error f, s)

def drainAll (fuel : Nat) (holder : String) (c : Scenario Demo.State)
    (drained : List (String × DrainReport)) : List (Nat × Demo.Kind) → Work
  | [] => { events := c.site.events, drained }
  | (i, k) :: rest =>
    match c.command fuel (.drain i holder) with
    | (.drained (.ok r), c) => drainAll fuel holder c (drained ++ [(k.name, r)]) rest
    | (.drained (.error e), c) =>
      { events := c.site.events, drained, failure := some (.worker e) }
    | (_, c) => { events := c.site.events, drained, failure := some .interrupted }

/-- Does what the options say, with a configuration.  At most `fuel` things happen
on each topic that is drained. -/
def Options.work (o : Options) (fuel : Nat) (world : Surroundings) (c : Config) : Work :=
  let site : Site Demo.State :=
    { leases := { ttl := c.leader.leaseTtl }, ids := world.ids, clock := world.clock }
  match setUpAll c o.trigger o.kinds site with
  | (.error f, site) => { events := site.events, failure := some f }
  | (.ok (), site) =>
    let scenario : Scenario Demo.State :=
      { site, settings := c.collection, leaseRetry := c.leader.retry }
    if o.once then drainAll fuel world.holder scenario [] ((List.range o.kinds.length).zip o.kinds)
    else
      let (_, scenario) := scenario.command fuel (.spawn (List.range o.kinds.length) world.holder)
      { events := site.events, serving := some scenario }

def Options.run (o : Options) (fuel : Nat) (world : Surroundings) (source : Config.Source)
    (env : Environment) : Work :=
  match Config.load source env with
  | .error e => { failure := some (.config e) }
  | .ok c => o.work fuel world c

end TaskRelay.CommandLine
