import TaskRelay.Json.Reader
import TaskRelay.Json.Record
import TaskRelay.Json.Writer
import TaskRelay.Time.Rfc3339

/-!
# Job events

What happens in a run is reported as events: that it waits, that a step starts, that
a task has been given up, that a step has failed, or that all is done.  An event
travels as the text of a JSON record.
-/

namespace TaskRelay

inductive JobState where
  | pending
  | started
  | timeout
  | failed
  | ok
  | duplicate
  | cancelled
deriving DecidableEq, Repr

namespace JobState

def all : List JobState :=
  [.pending, .started, .timeout, .failed, .ok, .duplicate, .cancelled]

def name : JobState → String
  | .pending => "PENDING"
  | .started => "STARTED"
  | .timeout => "TIMEOUT"
  | .failed => "FAILED"
  | .ok => "OK"
  | .duplicate => "DUPLICATE"
  | .cancelled => "CANCELLED"

def display : JobState → String
  | .pending => "Pending"
  | .started => "Started"
  | .timeout => "Timeout"
  | .failed => "Failed"
  | .ok => "Ok"
  | .duplicate => "Duplicate"
  | .cancelled => "Cancelled"

def ofName? (s : String) : Option JobState :=
  all.find? fun state => state.name = s

/-- Whether nothing more is to be expected of what the event is about. -/
def isTerminal : JobState → Bool
  | .timeout | .failed | .ok | .cancelled => true
  | .pending | .started | .duplicate => false

/-- A state from JSON: its name, or an object with the name as its only member
and nothing in it. -/
def ofJson? : RawJson → Option JobState
  | .text s => s.bind ofName?
  | .object [(name, .null)] => name.bind ofName?
  | _ => none

end JobState

structure JobEvent where
  correlationId : String
  domain : String
  action : String
  state : JobState
  time : Instant
  detail : Option String := none
deriving DecidableEq, Repr

namespace JobEvent

def fieldNames : List String :=
  ["correlationId", "domain", "action", "state", "eventTime", "detail"]

/-- An event as a JSON record; a detail is written only where there is one. -/
def toJson (e : JobEvent) : Json String :=
  .object <|
    [("correlationId", .text e.correlationId), ("domain", .text e.domain),
      ("action", .text e.action), ("state", .text e.state.name),
      ("eventTime", .text e.time.write)] ++
    match e.detail with
    | some detail => [("detail", .text detail)]
    | none => []

def encode (e : JobEvent) : String :=
  e.toJson.write

/-- An event from a JSON record.  The detail may be missing or null. -/
def ofJson? (j : RawJson) : Option JobEvent := do
  let fields ← j.fields? fieldNames
  let correlationId ← (← fields.lookup "correlationId").text?
  let domain ← (← fields.lookup "domain").text?
  let action ← (← fields.lookup "action").text?
  let state ← JobState.ofJson? (← fields.lookup "state")
  let time ← Instant.read? (← (← fields.lookup "eventTime").text?)
  let detail ← match fields.lookup "detail" with
    | none | some .null => some none
    | some detail => detail.text?.map some
  return { correlationId, domain, action, state, time, detail }

def decode? (s : String) : Option JobEvent :=
  (Json.read? s).bind ofJson?

end JobEvent

end TaskRelay
