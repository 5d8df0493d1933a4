import TaskRelay.Step.Error

/-!
# Creating or updating

A target may hold what a step wants to put there already.  The step does not
have to know: it creates, and updates where creating says that the thing exists.
-/

namespace TaskRelay

inductive Creation where
  | created
  | alreadyExists
deriving DecidableEq, Repr

inductive Upserted where
  | created
  | updated
deriving DecidableEq, Repr

/-- A place where things of type `α` can be put, with a state `σ`. -/
structure UpsertTarget (α σ : Type) where
  create : α → σ → Except StepError Creation × σ
  update : α → σ → Except StepError Unit × σ

def UpsertTarget.upsert {α σ : Type} (target : UpsertTarget α σ) (thing : α) (state : σ) :
    Except StepError Upserted × σ :=
  match target.create thing state with
  | (.error e, state) => (.error e, state)
  | (.ok .created, state) => (.ok .created, state)
  | (.ok .alreadyExists, state) =>
    match target.update thing state with
    | (.error e, state) => (.error e, state)
    | (.ok (), state) => (.ok .updated, state)

end TaskRelay
