import TaskRelay.TaskList.Wire

/-!
# Batches

Messages that come in within a short time are worked off together.  A batch
merges their task lists, keeps of each attribute the value that came first, and
counts the messages that hold no task list.
-/

namespace TaskRelay

/-- What travels on a topic: a text, with attributes that can be read without
it. -/
structure Message where
  attributes : Headers := ∅
  payload : String
deriving DecidableEq, Repr

structure Batch where
  tasks : TaskList := ∅
  attributes : Headers := ∅
  messages : Nat := 0
  rejected : Nat := 0
deriving DecidableEq, Repr

namespace Batch

def empty : Batch := {}

instance : EmptyCollection Batch := ⟨empty⟩

def absorb (b : Batch) (m : Message) : Batch :=
  match b.tasks.mergeText? m.payload with
  | some (tasks, _, _) =>
    { b with
      tasks
      attributes := b.attributes.union m.attributes
      messages := b.messages + 1 }
  | none => { b with rejected := b.rejected + 1 }

def absorbAll (b : Batch) (messages : List Message) : Batch :=
  messages.foldl absorb b

def isRejectedOnly (b : Batch) : Bool :=
  b.messages == 0

end Batch

end TaskRelay
