import TaskRelay.Worker.Basic

/-!
# Draining

A drain consumes its topic until no message comes any more.  It acquires the
lease once, renews it at every tick while it collects and while it works, and
gives up as soon as the lease is lost, though a batch that it has received is worked
off first.  After tasks have been published with a delay it waits that much longer
for the next batch.
-/

namespace TaskRelay

structure DrainReport where
  iterations : Nat := 0
  last : Option Continuation := none
deriving DecidableEq, Repr

inductive Drain.Stage where
  /-- Before it has acquired the lease. -/
  | ready
  | collecting (c : Collection) (t : Ticker)
  /-- `held` tells whether the lease was held while the batch was collected. -/
  | working (d : Site.Dispatch) (t : Ticker) (held : Bool)
  | ended (result : Except WorkerError DrainReport)
  | broken

/-- A worker that goes on until there is nothing left to do. -/
structure Drain where
  post : Post
  report : DrainReport := {}
  stage : Drain.Stage := .ready

namespace Drain

variable {σ : Type}

def isOver (v : Drain) : Bool :=
  match v.stage with
  | .ended _ | .broken => true
  | _ => false

/-- Gives the lease back and ends. -/
def finish (v : Drain) (result : Except WorkerError DrainReport) (s : Site σ) : Drain × Site σ :=
  ({ v with stage := .ended result }, (s.release v.post.topic v.post.holder).2)

/-- How long to wait for the batch after a continuation. -/
def waitAfter (v : Drain) : Option Continuation → Nat
  | some (.requeued _ delay) => v.post.settings.idlePoll + delay
  | _ => v.post.settings.idlePoll

def count (v : Drain) : Option Continuation → Drain
  | some c => { v with report := { iterations := v.report.iterations + 1, last := some c } }
  | none => v

/-- Goes on with a receive, or ends if it could not begin. -/
def receive (v : Drain) (t : Ticker) : Except ChannelError Collection × Site σ → Drain × Site σ
  | (.ok c, s) => ({ v with stage := .collecting c t }, s)
  | (.error e, s) => v.finish (.error (.channel e)) s

def collect (v : Drain) (wait : Nat) (s : Site σ) : Drain × Site σ :=
  v.receive (Post.ticker s) (v.post.collect wait s)

/-- Goes on after the work on a batch. -/
def next (v : Drain) (held : Bool) (result : Except ChannelError (Option Continuation))
    (s : Site σ) : Drain × Site σ :=
  match result with
  | .error e => v.finish (.error (.channel e)) s
  | .ok c =>
    let v := v.count c
    if held then v.collect (v.waitAfter c) s
    else v.finish (.error (.notLeader v.post.topic)) s

/-- Works on a batch; without one the drain is done, provided that it still holds
the lease. -/
def work (v : Drain) (held : Bool) (b : Option Batch) (s : Site σ) : Drain × Site σ :=
  match b with
  | none => v.finish (if held then .ok v.report else .error (.notLeader v.post.topic)) s
  | some b =>
    match v.post.work b s with
    | (.dispatched d, s) => ({ v with stage := .working d (Post.ticker s) held }, s)
    | (.ended result, s) => v.next held result s

/-- What the drain does next, or `none` while it can only wait. -/
def move? (v : Drain) (s : Site σ) : Option (Drain × Site σ) :=
  match v.stage with
  | .ready =>
    match s.acquire v.post.topic v.post.holder with
    | (.error e, s) => some ({ v with stage := .ended (.error (.lock e)) }, s)
    | (.ok false, s) => some ({ v with stage := .ended (.error (.notLeader v.post.topic)) }, s)
    | (.ok true, s) => some (v.collect v.post.settings.idlePoll s)
  | .collecting c t =>
    match v.post.poll? c s with
    | some (.receiving c, s) => some (v.receive t (c, s))
    | some (.batch b, s) => some (v.work t.holding b s)
    | none => (v.post.tick? t s).map fun (t, s) => ({ v with stage := .collecting c t }, s)
  | .working d t held =>
    if d.ends ≤ s.now then
      match s.endIteration d with
      | (none, s) => some ({ v with stage := .broken }, s)
      | (some result, s) => some (v.next (held && t.holding) (result.map some) s)
    else
      (v.post.tick? t s).map fun (t, s) => ({ v with stage := .working d t held }, s)
  | .ended _ | .broken => none

def wakesAt? (v : Drain) (s : Site σ) : Option Nat :=
  match v.stage with
  | .ready => some s.now
  | .collecting c t =>
    let wake := c.wakesAt v.post.topic s.channel
    match t.due? with
    | some due => some (min due wake)
    | none => some wake
  | .working d t _ =>
    match t.due? with
    | some due => some (min due d.ends)
    | none => some d.ends
  | .ended _ | .broken => none

end Drain

end TaskRelay
