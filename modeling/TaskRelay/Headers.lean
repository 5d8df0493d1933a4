import TaskRelay.Keyed

/-!
# Headers

Headers are named texts that travel with a task or a message.  Each name occurs
once, and the entries stand in the order of their names, so two header tables
with the same content are equal.
-/

namespace TaskRelay

/-- Named texts, each name once. -/
@[ext] structure Headers where
  entries : List (String × String)
  rising : Keyed.Rising entries
deriving DecidableEq, Repr

namespace Headers

def empty : Headers := ⟨[], Keyed.rising_nil⟩

instance : EmptyCollection Headers := ⟨empty⟩

instance : Inhabited Headers := ⟨empty⟩

def get? (h : Headers) (key : String) : Option String :=
  Keyed.find? key h.entries

def isEmpty (h : Headers) : Bool :=
  h.entries.isEmpty

def insert (h : Headers) (key value : String) : Headers :=
  ⟨Keyed.insert key value h.entries, Keyed.rising_insert h.rising⟩

def insertIfNew (h : Headers) (key value : String) : Headers :=
  match h.get? key with
  | some _ => h
  | none => h.insert key value

def filter (p : String → String → Bool) (h : Headers) : Headers :=
  ⟨h.entries.filter fun e => p e.1 e.2, Keyed.rising_filter h.rising⟩

def erase (h : Headers) (key : String) : Headers :=
  h.filter fun k _ => k ≠ key

/-- Sets all headers of a list, the last of a name winning. -/
def insertMany (h : Headers) (entries : List (String × String)) : Headers :=
  entries.foldl (fun h e => h.insert e.1 e.2) h

def ofList (entries : List (String × String)) : Headers :=
  empty.insertMany entries

/-- The headers of `h`, with those of `upper` laid over them. -/
def overlay (h upper : Headers) : Headers :=
  h.insertMany upper.entries

/-- The headers of `h`, with those of `more` that `h` lacks. -/
def union (h more : Headers) : Headers :=
  more.entries.foldl (fun h e => h.insertIfNew e.1 e.2) h

end Headers

/-- The header that counts how often a task has been put back. -/
def loopCounterHeader : String := "geoflow.loop-counter"

/-- The header that tells which run a task belongs to. -/
def correlationHeader : String := "geoflow.correlation-id"

end TaskRelay
