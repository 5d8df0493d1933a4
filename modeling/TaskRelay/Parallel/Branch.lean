import TaskRelay.Json.Basic
import TaskRelay.Parallel.Flag
import TaskRelay.Step.Error

/-!
# Branches

A branch is a program of a few primitives: it works for a while, asks its
checkpoint, raises the flag, makes a note, and ends.  What it does after asking
or raising may depend on the answer, so a program is a tree rather than a list.
A branch in progress is a program with the instant at which it goes on.
-/

namespace TaskRelay.Parallel

inductive Remark where
  /-- The answer of the checkpoint, where a refusal ends the branch. -/
  | check (proceed : Bool)
  /-- The answer of the checkpoint, where the branch goes on anyway. -/
  | peek (proceed : Bool)
  /-- Whether the branch was the first to raise the flag. -/
  | abort (first : Bool)
  | write (value : Json String)

structure Note where
  branch : String
  instant : Nat
  remark : Remark

inductive Ending where
  | ok
  | error (e : StepError)
  | panic
deriving DecidableEq, Repr

/-- Whether an ending aborts the branches that are still at work. -/
def Ending.isFailure : Ending → Bool
  | .ok => false
  | .error _ | .panic => true

inductive Program where
  | finish (ending : Ending)
  | work (duration : Nat) (next : Program)
  | proceed (next : Bool → Program)
  | raise (next : Bool → Program)
  | note (remark : Remark) (next : Program)

namespace Program

/-- How many primitives the program has on its longest way. -/
def size : Program → Nat
  | .finish _ => 0
  | .work _ next => next.size + 1
  | .proceed next => max (next true).size (next false).size + 1
  | .raise next => max (next true).size (next false).size + 1
  | .note _ next => next.size + 1

end Program

inductive Command where
  | work (duration : Nat)
  | check
  /-- Asks the checkpoint, and goes on in either case. -/
  | peek
  | write (value : Json String)
  | abort
  | fail (e : StepError)
  | panic

def Program.ofScript : List Command → Program
  | [] => .finish .ok
  | .work duration :: rest => .work duration (ofScript rest)
  | .check :: rest =>
    .proceed fun b => .note (.check b) (if b then ofScript rest else .finish .ok)
  | .peek :: rest => .proceed fun b => .note (.peek b) (ofScript rest)
  | .write value :: rest => .note (.write value) (ofScript rest)
  | .abort :: rest => .raise fun b => .note (.abort b) (ofScript rest)
  | .fail e :: _ => .finish (.error e)
  | .panic :: _ => .finish .panic

structure Branch where
  name : String
  program : Program

inductive Stage where
  /-- It goes on with a program from a given instant on. -/
  | running (since : Nat) (program : Program)
  /-- It has ended and nobody has taken note yet. -/
  | ended (ending : Ending)
  /-- It has ended and been taken note of. -/
  | joined (ending : Ending)

structure BranchState where
  name : String
  checkpoint : Checkpoint := {}
  stage : Stage

namespace BranchState

def start (now : Nat) (b : Branch) : BranchState :=
  { name := b.name, stage := .running now b.program }

/-- What a primitive of a branch comes to: the branch after it, the flag, and
what is noted. -/
structure Moved where
  branch : BranchState
  flag : Flag
  notes : List Note := []

/-- The next primitive of a program, at the instant `now`. -/
def act (b : BranchState) (program : Program) (now : Nat) (flag : Flag) : Moved :=
  match program with
  | .finish ending => { branch := { b with stage := .ended ending }, flag }
  | .work duration next => { branch := { b with stage := .running (now + duration) next }, flag }
  | .proceed next =>
    let (answer, checkpoint) := b.checkpoint.proceed flag
    { branch := { b with checkpoint, stage := .running now (next answer) }, flag }
  | .raise next =>
    let (first, flag) := flag.raise
    { branch := { b with stage := .running now (next first) }, flag }
  | .note remark next =>
    { branch := { b with stage := .running now next }, flag
      notes := [{ branch := b.name, instant := now, remark }] }

/-- The instant from which on the branch can go on. -/
def readyAt? (b : BranchState) : Option Nat :=
  match b.stage with
  | .running since _ => some since
  | _ => none

/-- What is still to be done with the branch: primitives, its end, and taking
note of it. -/
def workLeft (b : BranchState) : Nat :=
  match b.stage with
  | .running _ program => program.size + 2
  | .ended _ => 1
  | .joined _ => 0

theorem workLeft_act_lt {b : BranchState} {since : Nat} {program : Program} {now : Nat}
    {flag : Flag} (h : b.stage = .running since program) :
    (b.act program now flag).branch.workLeft < b.workLeft := by
  cases program with
  | finish => simp [act, workLeft, h, Program.size]
  | work => simp [act, workLeft, h, Program.size]
  | proceed next =>
    simp only [act, workLeft, h, Program.size]
    cases (b.checkpoint.proceed flag).1 <;> omega
  | raise next =>
    simp only [act, workLeft, h, Program.size]
    cases flag.raise.1 <;> omega
  | note => simp [act, workLeft, h, Program.size]

end BranchState

end TaskRelay.Parallel
