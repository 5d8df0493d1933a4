import TaskRelay.Channel

/-!
# Collecting batches

A batch is collected from a topic in a series of receives.  The first one waits
for a message as long as it is told to.  With that message a window opens, and
receives follow one another until the batch is large enough or the window is
over.  A receive gives a message back as soon as there is one, and gives up at
its deadline if there is none; a message that is due at the deadline still
counts.
-/

namespace TaskRelay

/-- How batches are collected; times in milliseconds. -/
structure CollectionSettings where
  maxMessages : Nat := 100
  /-- How long a batch stays open after its first message. -/
  window : Nat := 1000
  /-- How long to wait for the first message. -/
  idlePoll : Nat := 1000
deriving DecidableEq, Repr

structure Collection where
  batch : Option Batch := none
  received : Nat := 0
  deadline : Nat
deriving DecidableEq, Repr

namespace Collection

inductive Progress where
  | waiting
  | more (next : Collection)
  /-- The collection is over, with a batch if there was any message. -/
  | closed (batch : Option Batch)
deriving DecidableEq, Repr

def start (now wait : Nat) : Collection :=
  { deadline := now + wait }

/-- When the window of the batch closes, given that a message has just come. -/
def windowEnd (c : Collection) (settings : CollectionSettings) (now : Nat) : Nat :=
  match c.batch with
  | none => now + settings.window
  | some _ => c.deadline

/-- Takes in a message.  Another receive follows unless the batch is large enough
or the window is over. -/
def accept (c : Collection) (settings : CollectionSettings) (now : Nat) (m : Message) :
    Progress :=
  let batch := (c.batch.getD ∅).absorb m
  let received := c.received + 1
  let deadline := c.windowEnd settings now
  if received < settings.maxMessages ∧ now < deadline then
    .more { batch := some batch, received, deadline }
  else .closed (some batch)

/-- What the receive comes to at an instant, and the channel after it. -/
def poll (c : Collection) (settings : CollectionSettings) (topic : String) (now : Nat)
    (channel : Channel) : Progress × Channel :=
  match channel.take? topic now with
  | some (m, channel) => (c.accept settings now m, channel)
  | none => (if c.deadline ≤ now then .closed c.batch else .waiting, channel)

/-- When the receive has something to do, if nobody publishes. -/
def wakesAt (c : Collection) (topic : String) (channel : Channel) : Nat :=
  match channel.nextDue? topic with
  | some due => min due c.deadline
  | none => c.deadline

end Collection

end TaskRelay
