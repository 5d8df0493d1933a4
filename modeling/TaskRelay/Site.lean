import TaskRelay.Channel
import TaskRelay.Engine.Assembly
import TaskRelay.Engine.Iteration
import TaskRelay.Lease

/-!
# Sites

A site is where pipelines are at work: one channel and one table of leases for
all of them, a clock, a supply of ids, and a journal of what happens.  The calls
that go to the channel, to the leases or to whoever takes the events may fail; a
site says beforehand how many of the next calls of each kind will.
-/

namespace TaskRelay

inductive Operation where
  | publish
  | publishDelayed
  | receive
  | acquire
  | renew
  | release
  | report
deriving DecidableEq, Repr

def Operation.ofName? : String → Option Operation
  | "publish" => some .publish
  | "publish_delayed" => some .publishDelayed
  | "receive" => some .receive
  | "acquire" => some .acquire
  | "renew" => some .renew
  | "release" => some .release
  | "sink" => some .report
  | _ => none

/-- How many of the next calls of each kind fail. -/
abbrev Faults := Operation → Nat

inductive EventClock where
  /-- Runs with the site, from a given time on. -/
  | running (startMillis : Int)
  | fixed (millis : Int)
deriving DecidableEq, Repr

/-- The time of events when the site has been at work for `now` milliseconds. -/
def EventClock.time (c : EventClock) (now : Nat) : Instant :=
  match c with
  | .running start => .ofMillis (start + now)
  | .fixed millis => .ofMillis millis

inductive Entry where
  | event (e : JobEvent)
  | dispatch (engine : Nat) (context : Context)
  /-- Branches of a step have left notes, counted from the instant `start`. -/
  | notes (engine start : Nat) (notes : List Parallel.Note)
  | continued (engine : Nat) (continuation : Continuation)

namespace Entry

def event? : Entry → Option JobEvent
  | .event e => some e
  | _ => none

def events (entries : List (Nat × Entry)) : List JobEvent :=
  entries.filterMap fun e => e.2.event?

end Entry

structure Site (σ : Type) where
  now : Nat := 0
  channel : Channel := ∅
  leases : LeaseTable
  engines : List (Engine σ) := []
  faults : Faults := fun _ => 0
  /-- The supply of correlation ids. -/
  ids : Nat → String
  issued : Nat := 0
  clock : EventClock
  /-- What has happened, with the instants, the last thing first. -/
  journal : List (Nat × Entry) := []

namespace Site

variable {σ : Type}

def record (s : Site σ) (e : Entry) : Site σ :=
  { s with journal := (s.now, e) :: s.journal }

def events (s : Site σ) : List JobEvent :=
  Entry.events s.journal.reverse

def failNext (s : Site σ) (operation : Operation) (count : Nat) : Site σ :=
  { s with faults := fun o => if o = operation then count else s.faults o }

/-- Whether a call fails; if so, one fault less is to come. -/
def call (s : Site σ) (operation : Operation) : Bool × Site σ :=
  match s.faults operation with
  | 0 => (false, s)
  | count + 1 => (true, s.failNext operation count)

/-! ### Channel -/

def publish (s : Site σ) (topic : String) (m : Message) (delay : Option Nat) :
    Except ChannelError Unit × Site σ :=
  match delay with
  | none =>
    match s.call .publish with
    | (true, s) => (.error (.closed topic), s)
    | (false, s) => (.ok (), { s with channel := s.channel.publish topic m s.now })
  | some delay =>
    match s.call .publishDelayed with
    | (true, s) => (.error (.failed topic), s)
    | (false, s) => (.ok (), { s with channel := s.channel.publish topic m (s.now + delay) })

def beginReceive (s : Site σ) (topic : String) : Except ChannelError Unit × Site σ :=
  match s.call .receive with
  | (true, s) => (.error (.failed topic), s)
  | (false, s) => (.ok (), s)

/-! ### Leases -/

def acquire (s : Site σ) (queue holder : String) : Except LockError Bool × Site σ :=
  match s.call .acquire with
  | (true, s) => (.error (.unavailable queue), s)
  | (false, s) =>
    let (granted, leases) := s.leases.acquire queue holder s.now
    (.ok granted, { s with leases })

def renew (s : Site σ) (queue holder : String) : Except LockError Bool × Site σ :=
  match s.call .renew with
  | (true, s) => (.error (.unavailable queue), s)
  | (false, s) =>
    let (granted, leases) := s.leases.renew queue holder s.now
    (.ok granted, { s with leases })

def release (s : Site σ) (queue holder : String) : Except LockError Unit × Site σ :=
  match s.call .release with
  | (true, s) => (.error (.unavailable queue), s)
  | (false, s) => (.ok (), { s with leases := s.leases.release queue holder })

/-! ### Events and ids -/

/-- Reports something about a run; a report that fails is lost. -/
def report (s : Site σ) (correlationId domain : String) (n : Notice) : Site σ :=
  match s.call .report with
  | (true, s) => s
  | (false, s) =>
    s.record (.event
      { correlationId, domain, action := n.action, state := n.state
        time := s.clock.time s.now, detail := n.detail })

def reportAll (s : Site σ) (correlationId domain : String) (notices : List Notice) : Site σ :=
  notices.foldl (fun s n => s.report correlationId domain n) s

def nextId (s : Site σ) : String :=
  s.ids (s.issued + 1)

/-- The id that comes with something, or the next one if there is none. -/
def idFor (s : Site σ) : Option String → String × Site σ
  | some id => (id, s)
  | none => (s.nextId, { s with issued := s.issued + 1 })

/-! ### Runs -/

/-- Starts a run of a pipeline with a list of tasks. -/
def trigger (s : Site σ) (p : Pipeline) (tasks : TaskList) (attributes : Headers) :
    Except ChannelError String × Site σ :=
  let (id, s) := s.idFor (attributes.get? correlationHeader)
  let attributes := attributes.insert correlationHeader id
  match s.publish p.topic { attributes, payload := tasks.encode } none with
  | (.error e, s) => (.error e, s)
  | (.ok (), s) => (.ok id, s.report id p.domain { action := p.action, state := .pending })

structure Dispatch where
  engine : Nat
  pipeline : Pipeline
  /-- The context as the step was given it. -/
  context : Context
  rest : TaskList
  attempt : Attempt
  start : Nat

def Dispatch.ends (d : Dispatch) : Nat :=
  d.start + d.attempt.duration

/-- Does what an iteration has come to: reports, then publishes. -/
def carryOut (s : Site σ) (engine : Nat) (p : Pipeline) (id : String) (c : Conclusion) :
    Except ChannelError Continuation × Site σ :=
  let s := s.reportAll id p.domain c.notices
  match c.requeue with
  | none => (.ok c.continuation, s.record (.continued engine c.continuation))
  | some (m, delay) =>
    match s.publish p.topic m (if delay = 0 then none else some delay) with
    | (.error e, s) => (.error e, s)
    | (.ok (), s) => (.ok c.continuation, s.record (.continued engine c.continuation))

/-- Where an iteration stands after its first half. -/
inductive Begun where
  | dispatched (d : Dispatch)
  | ended (result : Except ChannelError Continuation)

/-- Begins an iteration of the engine with a number: calls the step of the next
task, or ends the run if there is none. -/
def beginIteration (s : Site σ) (i : Nat) (e : Engine σ) (b : Batch) : Begun × Site σ :=
  let (id, s) := s.idFor (b.correlationOf? e.pipeline.order)
  match e.pipeline.choose b id with
  | .nothing =>
    let (result, s) := s.carryOut i e.pipeline id (e.pipeline.advance b.tasks b.attributes 0)
    (.ended result, s)
  | .dispatch context rest =>
    let s := s.reportAll id e.pipeline.domain (Pipeline.startNotices context)
    let s := s.record (.dispatch i context)
    let (attempt, state) := e.service.invoke context e.state
    let s := { s with engines := s.engines.set i { e with state } }
    (.dispatched { engine := i, pipeline := e.pipeline, context, rest, attempt, start := s.now }, s)

/-- Ends an iteration when its step has replied; `none` if the step has broken
off. -/
def endIteration (s : Site σ) (d : Dispatch) :
    Option (Except ChannelError Continuation) × Site σ :=
  let s := if d.attempt.notes.isEmpty then s else s.record (.notes d.engine d.start d.attempt.notes)
  match d.pipeline.conclude? d.rest (d.context.editAll d.attempt.edits) d.attempt.reply with
  | none => (none, s)
  | some c =>
    let (result, s) := s.carryOut d.engine d.pipeline d.context.correlationId c
    (some result, s)

end Site

end TaskRelay
