import Std.Time.DateTime.Timestamp
import TaskRelay.CommandLine.Work
import TaskRelay.Ulid

/-!
# The program

Reads the environment, the configuration file and the clock, and prints what the
work comes to: an event per line, and a line for every topic that was drained.  What
is served goes on second by second until the program is stopped.
-/

namespace TaskRelay.CommandLine

def readEnvironment (keys : List String) : IO Environment :=
  keys.filterMapM fun key => do
    return (← IO.getEnv key).map fun value => (key, value)

def readSource : Option String → IO Config.Source
  | none => return .usual
  | some path => do
    try return .document (← IO.FS.readFile path)
    catch _ => return .unreadable

def readClock : IO Int :=
  return (← Std.Time.Timestamp.now).toMillisecondsSinceUnixEpoch.val

def readRandom : IO Nat :=
  return (← IO.getRandomBytes 10).toList.foldl (fun n b => n * 256 + b.toNat) 0

def readSurroundings : IO Surroundings := do
  let now ← readClock
  let random ← readRandom
  return {
    ids := fun n => (Ulid.ofClock now (random + n)).correlationId
    clock := .running now
    holder := (Ulid.ofClock now random).text }

/-- How many things may happen while one topic is drained, or within a second. -/
def stepLimit : Nat := 1000000

def printEvents (events : List JobEvent) : IO Unit := do
  for e in events do
    IO.println e.encode
  (← IO.getStdout).flush

partial def serve (c : Scenario Demo.State) : IO Unit := do
  IO.sleep 1000
  let seen := c.site.events.length
  let (_, c) := c.command stepLimit (.sleep 1000)
  printEvents (c.site.events.drop seen)
  serve c

def report (w : Work) : IO Unit := do
  printEvents w.events
  for (name, r) in w.drained do
    IO.println ("drained " ++ name ++ ": " ++ r.iterations.repr ++ ", " ++ lastText r)
  if let some f := w.failure then
    IO.eprintln ("Error: " ++ f.message)

def runProgram (arguments : List String) : IO UInt32 := do
  match Request.ofArguments (← readEnvironment [Told.configVariable]) arguments with
  | .error e =>
    IO.eprintln ("error: " ++ e.message)
    return e.exitCode.toUInt32
  | .ok .help =>
    IO.println helpText
    return 0
  | .ok (.run options) =>
    let source ← readSource options.config
    let env ← readEnvironment (source.read.toOption.elim [] Config.variableNames)
    let w := options.run stepLimit (← readSurroundings) source env
    report w
    if let some c := w.serving then
      serve c
    return w.exitCode.toUInt32

end TaskRelay.CommandLine

def main (arguments : List String) : IO UInt32 :=
  TaskRelay.CommandLine.runProgram arguments
