import TaskRelay.Collection
import TaskRelay.Site
import TaskRelay.Worker.Ticker

/-!
# Workers

A worker consumes the topic of one engine as the holder of its lease.  What all
workers do is here: renewing the lease at a tick, beginning a receive, and starting
on a batch.  A batch without any task list is put aside and makes no iteration.
-/

namespace TaskRelay

/-- Who consumes what, and how. -/
structure Post where
  engine : Nat
  /-- The topic, which is also the queue of the lease. -/
  topic : String
  holder : String
  settings : CollectionSettings
deriving DecidableEq, Repr

inductive WorkerError where
  | notLeader (queue : String)
  | channel (e : ChannelError)
  | lock (e : LockError)
deriving DecidableEq, Repr

def WorkerError.message : WorkerError → String
  | .notLeader queue => "not the leader for queue=" ++ queue
  | .channel e => e.message
  | .lock e => e.message

namespace Post

variable {σ : Type}

def ticker (s : Site σ) : Ticker :=
  Ticker.begin s.now s.leases.ttl

/-- Renews the lease; a renewal that cannot be tried has failed. -/
def renew (p : Post) (s : Site σ) : Bool × Site σ :=
  match s.renew p.topic p.holder with
  | (.ok renewed, s) => (renewed, s)
  | (.error _, s) => (false, s)

def tick? (p : Post) (t : Ticker) (s : Site σ) : Option (Ticker × Site σ) :=
  if t.holding ∧ t.due ≤ s.now then
    let (renewed, s) := p.renew s
    some (t.after renewed, s)
  else none

def receive (p : Post) (c : Collection) (s : Site σ) : Except ChannelError Collection × Site σ :=
  match s.beginReceive p.topic with
  | (.ok (), s) => (.ok c, s)
  | (.error e, s) => (.error e, s)

def collect (p : Post) (wait : Nat) (s : Site σ) : Except ChannelError Collection × Site σ :=
  p.receive (Collection.start s.now wait) s

inductive Collected where
  /-- Another receive has begun, or could not. -/
  | receiving (c : Except ChannelError Collection)
  | batch (b : Option Batch)

/-- Goes on with a collection, unless it can only wait. -/
def poll? (p : Post) (c : Collection) (s : Site σ) : Option (Collected × Site σ) :=
  match c.poll p.settings p.topic s.now s.channel with
  | (.waiting, _) => none
  | (.more c, channel) =>
    let (c, s) := p.receive c { s with channel }
    some (.receiving c, s)
  | (.closed b, channel) => some (.batch b, { s with channel })

inductive Started where
  | dispatched (d : Site.Dispatch)
  /-- The work has ended, without a continuation if the batch was put aside. -/
  | ended (result : Except ChannelError (Option Continuation))

def work (p : Post) (b : Batch) (s : Site σ) : Started × Site σ :=
  if b.isRejectedOnly then (.ended (.ok none), s)
  else
    match s.engines[p.engine]? with
    | none => (.ended (.ok none), s)
    | some e =>
      match s.beginIteration p.engine e b with
      | (.dispatched d, s) => (.dispatched d, s)
      | (.ended result, s) => (.ended (result.map some), s)

end Post

end TaskRelay
