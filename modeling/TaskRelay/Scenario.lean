import TaskRelay.Worker.Drain
import TaskRelay.Worker.Server

/-!
# Scenarios

A scenario is a site with somebody who gives commands and a crew in the
background.  Time stands still while anybody can do something, and then moves on to
the next instant at which somebody can.  At every instant the command in progress
comes first, and the crew after it in the order in which its members started;
one who starts begins when the command in progress first waits.
-/

namespace TaskRelay

inductive LeaseCall where
  | acquire
  | renew
  | release
deriving DecidableEq, Repr

def LeaseCall.ofName? : String → Option LeaseCall
  | "acquire" => some .acquire
  | "renew" => some .renew
  | "release" => some .release
  | _ => none

inductive Errand where
  | trigger (engine : Nat) (tasks : TaskList) (attributes : Headers)
  | publish (topic : String) (m : Message) (delay : Option Nat)
  | lease (call : LeaseCall) (queue holder : String)
  /-- Makes the next calls of a kind fail. -/
  | fail (operation : Operation) (count : Nat)
deriving DecidableEq, Repr

inductive Answer where
  | done
  | triggered (result : Except ChannelError String)
  | published (result : Except ChannelError Unit)
  /-- Whether the lease was granted, where that was asked. -/
  | leased (result : Except LockError (Option Bool))
  | received (result : Except ChannelError (Option Message))
  | collected (result : Except ChannelError (Option Batch))
  | iterated (result : Except ChannelError Continuation)
  | drained (result : Except WorkerError DrainReport)
  | spawned (count : Nat)
  /-- A server was ended; tells whether it was still at work. -/
  | killed (running : Bool)
  /-- A step has broken off, and the command with it. -/
  | broken
  /-- Nothing happens any more that could end the command. -/
  | stuck

def Errand.perform {σ : Type} (e : Errand) (s : Site σ) : Answer × Site σ :=
  match e with
  | .trigger engine tasks attributes =>
    match s.engines[engine]? with
    | none => (.stuck, s)
    | some e =>
      let (result, s) := s.trigger e.pipeline tasks attributes
      (.triggered result, s)
  | .publish topic m delay =>
    let (result, s) := s.publish topic m delay
    (.published result, s)
  | .lease .acquire queue holder =>
    let (result, s) := s.acquire queue holder
    (.leased (result.map some), s)
  | .lease .renew queue holder =>
    let (result, s) := s.renew queue holder
    (.leased (result.map some), s)
  | .lease .release queue holder =>
    let (result, s) := s.release queue holder
    (.leased (result.map fun _ => none), s)
  | .fail operation count => (.done, s.failNext operation count)

/-- Somebody in the background. -/
inductive Member where
  /-- A server; `grouped` tells whether it stops with the others. -/
  | server (grouped : Bool) (v : Server)
  /-- An errand that waits for its time. -/
  | errand (wake : Nat) (e : Errand)
  | gone

namespace Member

variable {σ : Type}

/-- What a member does next, or `none` while it can only wait. -/
def move? (m : Member) (s : Site σ) : Option (Member × Site σ) :=
  match m with
  | .server grouped v => (v.move? s).map fun (v, s) => (.server grouped v, s)
  | .errand wake e => if wake ≤ s.now then some (.gone, (e.perform s).2) else none
  | .gone => none

def wakesAt? (m : Member) (s : Site σ) : Option Nat :=
  match m with
  | .server _ v => v.wakesAt? s
  | .errand wake _ => some wake
  | .gone => none

def tellToStop : Member → Member
  | .server true v => .server true { v with stopping := true }
  | m => m

/-- Whether a member is a server of the group that has not stopped. -/
def isGroupedAtWork : Member → Bool
  | .server true v => !v.isOver
  | _ => false

end Member

inductive Waiting where
  | sleeping (wake : Nat)
  | receiving (topic : String) (deadline : Nat)
  | collecting (p : Post) (c : Collection)
  | iterating (d : Site.Dispatch)
  | draining (v : Drain)
  /-- Until no server of the group is at work. -/
  | joining

/-- A site with its crew. -/
structure Scenario (σ : Type) where
  site : Site σ
  settings : CollectionSettings := {}
  /-- How long servers pause, in milliseconds. -/
  leaseRetry : Nat := 0
  crew : List Member := []
  /-- The places of the servers that are on their own, the oldest first. -/
  loners : List Nat := []
  /-- Whose turn it is at this instant. -/
  turn : Nat := 0

/-- What somebody can tell the crew or do. -/
inductive Command where
  | errand (e : Errand)
  | later (after : Nat) (e : Errand)
  | sleep (millis : Nat)
  | receive (topic : String) (timeout : Nat)
  | collect (topic : String) (wait : Nat)
  | iterate (engine : Nat) (b : Batch)
  | drain (engine : Nat) (holder : String)
  /-- Starts servers that stop together. -/
  | spawn (engines : List Nat) (holder : String)
  | spawnOne (engine : Nat) (holder : String) (stopping : Bool)
  | requestShutdown
  /-- Tells the servers of the group to stop, and waits until they have. -/
  | join
  /-- Ends the oldest server on its own, whatever it is about. -/
  | kill

namespace Waiting

variable {σ : Type}

/-- What the command in progress does next: it goes on waiting for something
else, or has its answer; `none` while it can only wait. -/
def move? (w : Waiting) (crew : List Member) (s : Site σ) :
    Option ((Waiting ⊕ Answer) × Site σ) :=
  match w with
  | .sleeping wake => if wake ≤ s.now then some (.inr .done, s) else none
  | .receiving topic deadline =>
    match s.channel.take? topic s.now with
    | some (m, channel) => some (.inr (.received (.ok (some m))), { s with channel })
    | none => if deadline ≤ s.now then some (.inr (.received (.ok none)), s) else none
  | .collecting p c =>
    match p.poll? c s with
    | none => none
    | some (.receiving (.ok c), s) => some (.inl (.collecting p c), s)
    | some (.receiving (.error e), s) => some (.inr (.collected (.error e)), s)
    | some (.batch b, s) => some (.inr (.collected (.ok b)), s)
  | .iterating d =>
    if d.ends ≤ s.now then
      match s.endIteration d with
      | (none, s) => some (.inr .broken, s)
      | (some result, s) => some (.inr (.iterated result), s)
    else none
  | .draining v =>
    match v.stage with
    | .ended result => some (.inr (.drained result), s)
    | .broken => some (.inr .broken, s)
    | _ => (v.move? s).map fun (v, s) => (.inl (.draining v), s)
  | .joining => if crew.any Member.isGroupedAtWork then none else some (.inr .done, s)

def wakesAt? (w : Waiting) (s : Site σ) : Option Nat :=
  match w with
  | .sleeping wake => some wake
  | .receiving topic deadline =>
    some (match s.channel.nextDue? topic with
      | some due => min due deadline
      | none => deadline)
  | .collecting p c => some (c.wakesAt p.topic s.channel)
  | .iterating d => some d.ends
  | .draining v => v.wakesAt? s
  | .joining => none

end Waiting

namespace Scenario

variable {σ : Type}

def moveMember? (c : Scenario σ) (i : Nat) : Option (Scenario σ) :=
  match c.crew[i]? with
  | none => none
  | some m =>
    (m.move? c.site).map fun (m, site) => { c with site, crew := c.crew.set i m, turn := i }

/-- Does what the crew does next.  Whose turn it is goes on, and otherwise the
next one who can. -/
def moveCrew? (c : Scenario σ) : Option (Scenario σ) :=
  (List.range c.crew.length).findSome? fun k =>
    c.moveMember? ((c.turn + k) % c.crew.length)

def nextInstant? (c : Scenario σ) (w : Waiting) : Option Nat :=
  ((w.wakesAt? c.site).toList ++ c.crew.filterMap fun m => m.wakesAt? c.site).min?

/-- Lets time pass until the command in progress has its answer, or `fuel` things
have happened. -/
def wait (c : Scenario σ) (w : Waiting) : (fuel : Nat) → Answer × Scenario σ
  | 0 => (.stuck, c)
  | fuel + 1 =>
    match w.move? c.crew c.site with
    | some (.inr answer, site) => (answer, { c with site })
    | some (.inl w, site) => { c with site, turn := 0 }.wait w fuel
    | none =>
      match c.moveCrew? with
      | some c => c.wait w fuel
      | none =>
        match c.nextInstant? w with
        | none => (.stuck, c)
        | some t => { c with site := { c.site with now := max t c.site.now }, turn := 0 }.wait w fuel

def post? (c : Scenario σ) (engine : Nat) (holder : String) : Option Post :=
  c.site.engines[engine]?.map fun e =>
    { engine, topic := e.pipeline.topic, holder, settings := c.settings }

def join (c : Scenario σ) (m : Member) : Scenario σ :=
  { c with crew := c.crew ++ [m] }

def server? (c : Scenario σ) (engine : Nat) (holder : String) (stopping : Bool) :
    Option Server :=
  (c.post? engine holder).map fun post => { post, leaseRetry := c.leaseRetry, stopping }

def command (c : Scenario σ) (fuel : Nat) : Command → Answer × Scenario σ
  | .errand e =>
    let (answer, site) := e.perform c.site
    (answer, { c with site })
  | .later after e => (.done, c.join (.errand (c.site.now + after) e))
  | .sleep millis => c.wait (.sleeping (c.site.now + millis)) fuel
  | .receive topic timeout =>
    match c.site.beginReceive topic with
    | (.error e, site) => (.received (.error e), { c with site })
    | (.ok (), site) => { c with site }.wait (.receiving topic (site.now + timeout)) fuel
  | .collect topic wait =>
    let p : Post := { engine := 0, topic, holder := "", settings := c.settings }
    match p.collect wait c.site with
    | (.error e, site) => (.collected (.error e), { c with site })
    | (.ok collection, site) => { c with site }.wait (.collecting p collection) fuel
  | .iterate engine b =>
    match c.site.engines[engine]? with
    | none => (.stuck, c)
    | some e =>
      match c.site.beginIteration engine e b with
      | (.ended result, site) => (.iterated result, { c with site })
      | (.dispatched d, site) => { c with site }.wait (.iterating d) fuel
  | .drain engine holder =>
    match c.post? engine holder with
    | none => (.stuck, c)
    | some post => c.wait (.draining { post }) fuel
  | .spawn engines holder =>
    let servers := engines.filterMap fun i => c.server? i holder false
    (.spawned servers.length, { c with crew := c.crew ++ servers.map (Member.server true) })
  | .spawnOne engine holder stopping =>
    match c.server? engine holder stopping with
    | none => (.stuck, c)
    | some v =>
      (.done, { c.join (.server false v) with loners := c.loners ++ [c.crew.length] })
  | .requestShutdown => (.done, { c with crew := c.crew.map Member.tellToStop })
  | .join => { c with crew := c.crew.map Member.tellToStop }.wait .joining fuel
  | .kill =>
    match c.loners with
    | [] => (.killed false, c)
    | i :: loners =>
      let running := match c.crew[i]? with
        | some (.server _ v) => !v.isOver
        | _ => false
      (.killed running, { c with crew := c.crew.set i .gone, loners })

structure Record (σ : Type) where
  answer : Answer
  entries : List (Nat × Entry)
  /-- The site at the time of the answer. -/
  site : Site σ

/-- Gives one command after the other, each with its own fuel. -/
def run (c : Scenario σ) (fuel : Nat) : List Command → List (Record σ)
  | [] => []
  | command :: commands =>
    let written := c.site.journal.length
    let (answer, c) := c.command fuel command
    let entries := (c.site.journal.take (c.site.journal.length - written)).reverse
    { answer, entries, site := c.site } :: c.run fuel commands

end Scenario

end TaskRelay
