import TaskRelay.Worker.Basic

/-!
# Servers

A server consumes its topic until it is told to stop.  Before every batch it
renews its lease, or acquires one if it is not leading; while it works on a
batch it renews the lease at every tick.  After a refusal, and after a receive
that failed, it pauses.  When it stops it gives its lease back, but a server whose
step breaks off leaves the lease to run out.
-/

namespace TaskRelay

inductive Server.Stage where
  | ready
  | pausing (wake : Nat)
  | collecting (c : Collection)
  | working (d : Site.Dispatch) (t : Ticker)
  | stopped
  | broken

/-- A worker that goes on until it is told to stop. -/
structure Server where
  post : Post
  /-- How long to pause, in milliseconds. -/
  leaseRetry : Nat
  stopping : Bool := false
  leading : Bool := false
  stage : Server.Stage := .ready

namespace Server

variable {σ : Type}

def isOver (v : Server) : Bool :=
  match v.stage with
  | .stopped | .broken => true
  | _ => false

def pause (v : Server) (s : Site σ) : Server × Site σ :=
  ({ v with stage := .pausing (s.now + v.leaseRetry) }, s)

/-- Ends the work on a batch.  The server goes on leading if its lease has been
renewed throughout. -/
def finish (v : Server) (holding : Bool) (s : Site σ) : Server × Site σ :=
  ({ v with leading := holding, stage := .ready }, s)

/-- Goes on with a receive, or pauses if it could not begin. -/
def receive (v : Server) : Except ChannelError Collection × Site σ → Server × Site σ
  | (.ok c, s) => ({ v with stage := .collecting c }, s)
  | (.error _, s) => v.pause s

def collect (v : Server) (s : Site σ) : Server × Site σ :=
  v.receive (v.post.collect v.post.settings.idlePoll s)

def work (v : Server) (b : Option Batch) (s : Site σ) : Server × Site σ :=
  match b with
  | none => ({ v with stage := .ready }, s)
  | some b =>
    match v.post.work b s with
    | (.dispatched d, s) => ({ v with stage := .working d (Post.ticker s) }, s)
    | (.ended _, s) => v.finish true s

def stop (v : Server) (s : Site σ) : Server × Site σ :=
  let s := if v.leading then (s.release v.post.topic v.post.holder).2 else s
  ({ v with stage := .stopped }, s)

/-- What the server does next, or `none` while it can only wait. -/
def move? (v : Server) (s : Site σ) : Option (Server × Site σ) :=
  match v.stage with
  | .ready =>
    if v.stopping then some (v.stop s)
    else if v.leading then
      match v.post.renew s with
      | (true, s) => some (v.collect s)
      | (false, s) => some ({ v with leading := false }, s)
    else
      match s.acquire v.post.topic v.post.holder with
      | (.ok true, s) => some ({ v with leading := true }.collect s)
      | (.ok false, s) | (.error _, s) => some (v.pause s)
  | .pausing wake =>
    if v.stopping ∨ wake ≤ s.now then some ({ v with stage := .ready }, s) else none
  | .collecting c =>
    match v.post.poll? c s with
    | none => none
    | some (.receiving c, s) => some (v.receive (c, s))
    | some (.batch b, s) => some (v.work b s)
  | .working d t =>
    if d.ends ≤ s.now then
      match s.endIteration d with
      | (none, s) => some ({ v with stage := .broken }, s)
      | (some _, s) => some (v.finish t.holding s)
    else
      (v.post.tick? t s).map fun (t, s) => ({ v with stage := .working d t }, s)
  | .stopped | .broken => none

def wakesAt? (v : Server) (s : Site σ) : Option Nat :=
  match v.stage with
  | .ready => some s.now
  | .pausing wake => some (if v.stopping then s.now else wake)
  | .collecting c => some (c.wakesAt v.post.topic s.channel)
  | .working d t =>
    match t.due? with
    | some due => some (min due d.ends)
    | none => some d.ends
  | .stopped | .broken => none

end Server

end TaskRelay
