import TaskRelay.Batch

/-!
# The channel

A channel holds messages on topics until somebody takes them.  A message may be
taken from the instant on at which it is due; of several that may be taken, the
one that was published first comes first.
-/

namespace TaskRelay

structure Held where
  topic : String
  message : Message
  /-- From when on the message may be taken. -/
  due : Nat
deriving DecidableEq, Repr

def Held.isDeliverable (topic : String) (now : Nat) (h : Held) : Bool :=
  h.topic == topic && h.due ≤ now

/-- The messages on all topics. -/
structure Channel where
  held : List Held := []
  /-- The topics of all messages ever published, the last one first. -/
  posted : List String := []
deriving DecidableEq, Repr

inductive ChannelError where
  | closed (topic : String)
  | failed (topic : String)
deriving DecidableEq, Repr

def ChannelError.message : ChannelError → String
  | .closed topic => "channel closed: " ++ topic
  | .failed topic => "channel operation failed: " ++ topic

namespace Channel

instance : EmptyCollection Channel := ⟨{}⟩

def publish (c : Channel) (topic : String) (message : Message) (due : Nat) : Channel :=
  { held := c.held ++ [{ topic, message, due }], posted := topic :: c.posted }

/-- Takes the first message that can be taken from a topic. -/
def take? (c : Channel) (topic : String) (now : Nat) : Option (Message × Channel) :=
  match c.held.find? (Held.isDeliverable topic now) with
  | none => none
  | some h => some (h.message, { c with held := c.held.eraseP (Held.isDeliverable topic now) })

def onTopic (c : Channel) (topic : String) : List Held :=
  c.held.filter (·.topic == topic)

def nextDue? (c : Channel) (topic : String) : Option Nat :=
  ((c.onTopic topic).map Held.due).min?

def pending (c : Channel) (topic : String) : Nat :=
  (c.onTopic topic).length

/-- How many messages of a topic are not due yet. -/
def scheduled (c : Channel) (topic : String) (now : Nat) : Nat :=
  (c.onTopic topic).countP (now < ·.due)

def published (c : Channel) (topic : String) : Nat :=
  c.posted.count topic

def messages (c : Channel) (topic : String) : List Message :=
  (c.onTopic topic).map Held.message

end Channel

end TaskRelay
