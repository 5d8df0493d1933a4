import TaskRelay.Json.Reader
import TaskRelay.Json.Record
import TaskRelay.Json.Writer
import TaskRelay.TaskList.Basic

/-!
# Task lists as JSON

A task list travels as the text of a JSON record with the field `tasks`, a list
of task records.  It is read in two ways.  The strict reader takes the whole
text or nothing, and takes it as it stands, repeated units of work included.  The
lenient one looks at each entry by itself, leaves out those that are no tasks,
and adds the others one by one.
-/

namespace TaskRelay

namespace Headers

def toJson (h : Headers) : Json String :=
  .object (h.entries.map fun (k, v) => (k, .text v))

/-- The entries of a JSON object whose members are all texts. -/
def entriesOfJson? : List (Option String × RawJson) → Option (List (String × String))
  | [] => some []
  | (name, value) :: members => do
    let name ← name
    let value ← value.text?
    let entries ← entriesOfJson? members
    return (name, value) :: entries

/-- Headers from a JSON object; of a repeated name the last value counts. -/
def ofJson? : RawJson → Option Headers
  | .object members => (entriesOfJson? members).map ofList
  | _ => none

end Headers

namespace Task

/-- The fields of a task record, in their order. -/
def fieldNames : List String := ["phase", "subStep", "destination", "headers"]

/-- A task as a JSON record; headers are written only where there are any. -/
def toJson (t : Task) : Json String :=
  .object <|
    [("phase", .text t.phase), ("subStep", .number (.ofNat t.subStep.toNat)),
      ("destination", .text t.destination)] ++
    if t.headers.isEmpty then [] else [("headers", t.headers.toJson)]

/-- A task from a JSON record.  Sub-step and headers may be missing. -/
def ofJson? (j : RawJson) : Option Task := do
  let fields ← j.fields? fieldNames
  let phase ← (← fields.lookup "phase").text?
  let subStep ← match fields.lookup "subStep" with
    | some n => n.word32?
    | none => some 0
  let destination ← (← fields.lookup "destination").text?
  let headers ← match fields.lookup "headers" with
    | some h => Headers.ofJson? h
    | none => some ∅
  return { phase, subStep, destination, headers }

def encode (t : Task) : String :=
  t.toJson.write

end Task

namespace TaskList

/-- A task list as a JSON record. -/
def toJson (l : TaskList) : Json String :=
  .object [("tasks", .array (l.tasks.map Task.toJson))]

def encode (l : TaskList) : String :=
  l.toJson.write

/-- The entries of a task list record, whatever they are. -/
def entries? (j : RawJson) : Option (List RawJson) := do
  let fields ← j.fields? ["tasks"]
  match fields.lookup "tasks" with
  | none => some []
  | some (.array items) => some items
  | some _ => none

/-- Reads a task list strictly. -/
def decode? (s : String) : Option TaskList := do
  let items ← entries? (← Json.read? s)
  let tasks ← items.mapM Task.ofJson?
  return ⟨tasks⟩

/-- How many containers of one entry may lie inside one another.  A message may
have 127, and two of them are around the entry. -/
def entryDepth : Nat := 125

/-- An entry as a value for general use, if it is one. -/
def entry? (item : RawJson) : Option (Json String) :=
  if item.nestsWithin entryDepth then item.sound? else none

/-- Adds the entries that are tasks, and counts the others. -/
def addEntry (read : TaskList × Nat) (item : Json String) : TaskList × Nat :=
  match Task.ofJson? item.raw with
  | some t => (read.1.add t, read.2)
  | none => (read.1, read.2 + 1)

/-- Reads a task list leniently, and tells how many entries were left out.  Every
entry has to be a value for general use. -/
def decodeLenient? (s : String) : Option (TaskList × Nat) := do
  let items ← entries? (← Json.read? s)
  let items ← items.mapM entry?
  return items.foldl addEntry (∅, 0)

/-- Merges the tasks of a text into a list, and tells how many units of work are
new and how many entries were left out. -/
def mergeText? (l : TaskList) (s : String) : Option (TaskList × Nat × Nat) := do
  let (other, skipped) ← decodeLenient? s
  let (merged, added) := l.merge other
  return (merged, added, skipped)

end TaskList

end TaskRelay
