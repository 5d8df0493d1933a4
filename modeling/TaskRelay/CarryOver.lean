import TaskRelay.Headers

/-!
# Carried headers

Of the headers that a task sees, those whose names start in a chosen way are
carried on to the next tasks of the run.  The loop counter never is: it belongs
to one task alone.
-/

namespace TaskRelay

/-- Which headers are carried on: those whose names start with one of
`prefixes`. -/
structure CarryOver where
  prefixes : List String
deriving DecidableEq, Repr

namespace CarryOver

/-- How the names of the program's own headers start. -/
def ownPrefix : String := "geoflow."

/-- Carries the program's own headers only. -/
def standard : CarryOver := ⟨[ownPrefix]⟩

def carries (c : CarryOver) (key : String) : Bool :=
  key ≠ loopCounterHeader && c.prefixes.any fun p => p.toList.isPrefixOf key.toList

def select (c : CarryOver) (h : Headers) : Headers :=
  h.filter fun key _ => c.carries key

end CarryOver

end TaskRelay
