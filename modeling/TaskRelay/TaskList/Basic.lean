import TaskRelay.Task

/-!
# Task lists

The tasks of a run that are still to be done.  A unit of work is added once;
where two lists are merged, the entry that has come further stays.  The next
task is one in flight if there is any, then the one of the earliest phase, then
the one whose destination comes first.
-/

namespace TaskRelay

/-- The tasks still to be done, in the order in which they came. -/
structure TaskList where
  tasks : List Task := []
deriving DecidableEq, Repr

namespace TaskList

instance : EmptyCollection TaskList := ⟨⟨[]⟩⟩

instance : Inhabited TaskList := ⟨∅⟩

def size (l : TaskList) : Nat :=
  l.tasks.length

def isComplete (l : TaskList) : Bool :=
  l.tasks.isEmpty

def contains (l : TaskList) (key : TaskKey) : Bool :=
  l.tasks.any fun t => t.key == key

/-- Adds a task at the end, unless its unit of work is there. -/
def add (l : TaskList) (t : Task) : TaskList :=
  if l.contains t.key then l else ⟨l.tasks ++ [t]⟩

/-- The list of the given tasks, of which only the first of each unit of work is
taken. -/
def ofList (tasks : List Task) : TaskList :=
  tasks.foldl add ∅

/-- Replaces the entry of the same unit of work if the task has come further;
`none` if there is no such entry. -/
def advance? (t : Task) : List Task → Option (List Task)
  | [] => none
  | u :: rest =>
    if u.key = t.key then some ((if t.progress.isAheadOf u.progress then t else u) :: rest)
    else (advance? t rest).map (u :: ·)

/-- Merges one task into a list and counts it if it is new. -/
def mergeTask (merged : TaskList × Nat) (t : Task) : TaskList × Nat :=
  match advance? t merged.1.tasks with
  | some tasks => (⟨tasks⟩, merged.2)
  | none => (⟨merged.1.tasks ++ [t]⟩, merged.2 + 1)

/-- Merges another list into a list, and tells how many units of work are new. -/
def merge (l other : TaskList) : TaskList × Nat :=
  other.tasks.foldl mergeTask (l, 0)

/-- Which of two tasks is done first. -/
def priority (order : PhaseOrder) (a b : Task) : Ordering :=
  ((Ord.compare b.isInFlight a.isInFlight).then (order.compare a.phase b.phase)).then
    (Ord.compare a.destination b.destination)

/-- Takes out the task that is done next, the first of several of the same
priority. -/
def popTask? (order : PhaseOrder) : List Task → Option (Task × List Task)
  | [] => none
  | t :: rest =>
    match popTask? order rest with
    | none => some (t, [])
    | some (next, others) =>
      if priority order next t = .lt then some (next, t :: others) else some (t, rest)

def popNext? (order : PhaseOrder) (l : TaskList) : Option (Task × TaskList) :=
  (popTask? order l.tasks).map fun (t, rest) => (t, ⟨rest⟩)

theorem length_of_popTask? {order : PhaseOrder} {l rest : List Task} {t : Task}
    (h : popTask? order l = some (t, rest)) : l.length = rest.length + 1 := by
  induction l generalizing t rest with
  | nil => simp [popTask?] at h
  | cons u l ih =>
    simp only [popTask?] at h
    cases hpop : popTask? order l with
    | none =>
      cases l with
      | nil =>
        simp [hpop] at h
        simp [h.2.symm]
      | cons v l =>
        simp only [popTask?] at hpop
        split at hpop
        · simp at hpop
        · split at hpop <;> simp at hpop
    | some p =>
      obtain ⟨next, others⟩ := p
      have := ih hpop
      simp only [hpop] at h
      split at h
      · simp only [Option.some.injEq, Prod.mk.injEq] at h
        simp [← h.2, this]
      · simp only [Option.some.injEq, Prod.mk.injEq] at h
        simp [← h.2]

/-- The tasks in the order in which they are done. -/
def drainTasks (order : PhaseOrder) (tasks : List Task) : List Task :=
  match _h : popTask? order tasks with
  | none => []
  | some (t, rest) => t :: drainTasks order rest
termination_by tasks.length
decreasing_by
  have := length_of_popTask? _h
  omega

def drain (order : PhaseOrder) (l : TaskList) : List Task :=
  drainTasks order l.tasks

end TaskList

end TaskRelay
