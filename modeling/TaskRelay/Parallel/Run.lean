import TaskRelay.Parallel.Branch
import TaskRelay.Step.Basic

/-!
# Parallel runs

The branches of a run share a flag.  A branch that fails or breaks off raises
it, as soon as the run takes note of the end.  At one instant the branches go on
in their order, each until it works or has ended; then ends are taken note of;
then the clock moves on to the branch that works no longer.  The run is over when
all ends have been taken note of.
-/

namespace TaskRelay.Parallel

inductive BranchResult where
  | completed
  /-- It ended well after its checkpoint had told it to stop. -/
  | stopped
  | failed (message : String)
  | panicked
deriving DecidableEq, Repr

/-- What is put down about a branch when the run takes note of its end.  There is
nothing to put down about a branch that broke off. -/
def BranchState.result? (b : BranchState) : Ending → Option BranchResult
  | .ok => some (if b.checkpoint.observedAbort then .stopped else .completed)
  | .error e => some (.failed e.message)
  | .panic => none

structure Run where
  now : Nat
  flag : Flag := .building
  branches : List BranchState
  /-- What has been put down about each branch. -/
  results : List (Option BranchResult)
  /-- What was noted, the last one first. -/
  notes : List Note := []

namespace Run

def start (now : Nat) (branches : List Branch) : Run :=
  { now
    branches := branches.map (BranchState.start now)
    results := List.replicate branches.length none }

def actOn (run : Run) (i : Nat) (program : Program) (b : BranchState) : Run :=
  let moved := b.act program run.now run.flag
  { run with
    flag := moved.flag
    branches := run.branches.set i moved.branch
    notes := moved.notes ++ run.notes }

def joinOn (run : Run) (i : Nat) (ending : Ending) (b : BranchState) : Run :=
  { run with
    flag := if ending.isFailure then .abort else run.flag
    branches := run.branches.set i { b with stage := .joined ending }
    results :=
      match b.result? ending with
      | some result => run.results.set i (some result)
      | none => run.results }

/-- The first branch that can go on at an instant. -/
def readyBranch? (run : Run) (t : Nat) : Option Nat :=
  run.branches.findIdx? fun b => b.readyAt?.any (· ≤ t)

/-- The first branch whose end waits to be taken note of. -/
def endedBranch? (run : Run) : Option Nat :=
  run.branches.findIdx? fun b => b.stage matches .ended _

def nextInstant? (run : Run) : Option Nat :=
  (run.branches.filterMap BranchState.readyAt?).min?

/-- Does what can be done about a branch: its next primitive, or taking note of
its end. -/
def moveOn? (run : Run) (i : Nat) : Option Run :=
  match run.branches[i]? with
  | none => none
  | some b =>
    match b.stage with
    | .running _ program => some (run.actOn i program b)
    | .ended ending => some (run.joinOn i ending b)
    | .joined _ => none

/-- The next thing that happens in the run, if anything does. -/
def step? (run : Run) : Option Run :=
  match run.readyBranch? run.now with
  | some i => run.moveOn? i
  | none =>
    match run.endedBranch? with
    | some i => run.moveOn? i
    | none =>
      match run.nextInstant? with
      | none => none
      | some t =>
        match run.readyBranch? t with
        | some i => { run with now := t }.moveOn? i
        | none => none

def totalWork : List BranchState → Nat
  | [] => 0
  | b :: branches => b.workLeft + totalWork branches

theorem totalWork_set_lt {branches : List BranchState} {i : Nat} {a b : BranchState}
    (ha : branches[i]? = some a) (h : b.workLeft < a.workLeft) :
    totalWork (branches.set i b) < totalWork branches := by
  induction branches generalizing i with
  | nil => simp at ha
  | cons x branches ih =>
    cases i with
    | zero =>
      simp only [List.getElem?_cons_zero, Option.some.injEq] at ha
      subst ha
      simp only [List.set_cons_zero, totalWork]
      omega
    | succ i =>
      have := ih (i := i) (by simpa using ha)
      simp only [List.set_cons_succ, totalWork]
      omega

def workLeft (run : Run) : Nat :=
  totalWork run.branches

theorem workLeft_moveOn?_lt {run next : Run} {i : Nat} (h : run.moveOn? i = some next) :
    next.workLeft < run.workLeft := by
  unfold moveOn? at h
  split at h
  · simp at h
  · next b hb =>
    split at h
    · next since program hstage =>
      cases h
      exact totalWork_set_lt hb (BranchState.workLeft_act_lt hstage)
    · next ending hstage =>
      cases h
      exact totalWork_set_lt hb (by simp [BranchState.workLeft, hstage])
    · simp at h

theorem workLeft_step?_lt {run next : Run} (h : run.step? = some next) :
    next.workLeft < run.workLeft := by
  unfold step? at h
  split at h
  · exact workLeft_moveOn?_lt h
  · split at h
    · exact workLeft_moveOn?_lt h
    · split at h
      · simp at h
      · next t _ =>
        split at h
        · have := workLeft_moveOn?_lt h
          exact this
        · simp at h

def finish (run : Run) : Run :=
  match _h : run.step? with
  | none => run
  | some next => next.finish
termination_by run.workLeft
decreasing_by exact workLeft_step?_lt _h

end Run

structure BranchReport where
  name : String
  result : BranchResult
  /-- How often the branch could proceed. -/
  checkpoints : Nat
deriving DecidableEq, Repr

structure Report where
  /-- Whether the flag was raised, by a branch or by the failure of one. -/
  failed : Bool
  branches : List BranchReport
deriving DecidableEq, Repr

/-- The report on a branch; one about which nothing was put down has broken
off. -/
def BranchState.report (b : BranchState) (result : Option BranchResult) : BranchReport :=
  { name := b.name, result := result.getD .panicked, checkpoints := b.checkpoint.passed }

def Run.report (run : Run) : Report :=
  { failed := run.flag.isAborted
    branches := (run.branches.zip run.results).map fun (b, result) => b.report result }

/-- Notes by branch, those of one branch in the order in which they were made. -/
def notesByBranch (notes : List Note) : List Note :=
  notes.mergeSort fun a b => !(b.branch < a.branch)

namespace Report

def failure? (b : BranchReport) : Option String :=
  match b.result with
  | .failed message => some (b.name ++ ": " ++ message)
  | .panicked => some (b.name ++ ": panicked")
  | _ => none

def failures (r : Report) : List String :=
  r.branches.filterMap failure?

end Report

def Run.ofBranches (now : Nat) (branches : List Branch) : Run :=
  (Run.start now branches).finish

/-- Runs the same branches several times, one run after the other. -/
def Run.repeated (branches : List Branch) : (times now : Nat) → List Run
  | 0, _ => []
  | times + 1, now =>
    let run := Run.ofBranches now branches
    run :: repeated branches times run.now

/-- The reply of a step that is done by branches: done, or all failures in one
text. -/
def reply (destination : Destination) (report : Report) : Reply :=
  if report.failed then .error (.invalid destination ("; ".intercalate report.failures))
  else .outcome .done

def attempt (branches : List Branch) (context : Context) : Attempt :=
  let run := Run.ofBranches 0 branches
  { duration := run.now
    reply := reply context.task.destination run.report
    notes := notesByBranch run.notes.reverse }

end TaskRelay.Parallel
