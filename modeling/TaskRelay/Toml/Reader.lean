/-!
# Reading pieces of text

A reader takes a piece off the front of a text and leaves the rest, or finds that
the text does not begin with such a piece.  Here are the pieces that occur
everywhere in TOML: blanks, line ends, comments and digits.
-/

namespace TaskRelay.Toml

/-- Takes a piece off the front of a text. -/
abbrev Reader (α : Type) := List Char → Option (α × List Char)

/-- Takes off pieces of one kind for as long as there are any. -/
def many {α : Type} (piece : Reader α) (cs : List Char) : List α × List Char :=
  match piece cs with
  | none => ([], cs)
  | some (a, rest) =>
    if rest.length < cs.length then
      let (more, rest) := many piece rest
      (a :: more, rest)
    else ([], cs)
termination_by cs.length

def many1? {α : Type} (piece : Reader α) : Reader (List α) := fun cs => do
  let (a, cs) ← piece cs
  let (more, cs) := many piece cs
  return (a :: more, cs)

def char? (c : Char) : Reader Unit
  | x :: cs => if x = c then some ((), cs) else none
  | [] => none

def chars? (expected : List Char) : Reader Unit := fun cs =>
  if expected.isPrefixOf cs then some ((), cs.drop expected.length) else none

def charWhere? (p : Char → Bool) : Reader Char
  | c :: cs => if p c then some (c, cs) else none
  | [] => none

def charsWhere? (p : Char → Bool) (count : Nat) : Reader (List Char) := fun cs =>
  let taken := cs.take count
  if taken.length = count ∧ taken.all p then some (taken, cs.drop count) else none

def isBlank (c : Char) : Bool :=
  c = ' ' || c = '\t'

def skipBlank (cs : List Char) : List Char :=
  cs.dropWhile isBlank

/-- Characters that may stand in a line: tab and everything that is no control. -/
def isPrintable (c : Char) : Bool :=
  c = '\t' || (0x20 ≤ c.toNat && c.toNat ≠ 0x7f)

/-- Takes off a line end: a line feed, which may have a carriage return before
it. -/
def lineEnd? : Reader Unit
  | '\n' :: cs => some ((), cs)
  | '\r' :: '\n' :: cs => some ((), cs)
  | _ => none

def skipComment : List Char → List Char
  | '#' :: cs => cs.dropWhile isPrintable
  | cs => cs

/-- Takes off what may stand between a statement and the end of its line, and
that end too. -/
def restOfLine? (cs : List Char) : Option (List Char) :=
  match skipComment (skipBlank cs) with
  | [] => some []
  | cs => (lineEnd? cs).map (·.2)

/-- Takes off blanks, line ends and whole comments. -/
def skipLines (cs : List Char) : List Char :=
  (many gap? cs).2
where
  /-- A blank, a line end, or a comment with the line end after it. -/
  gap? : Reader Unit
    | '#' :: cs => lineEnd? (cs.dropWhile isPrintable)
    | c :: cs => if isBlank c then some ((), cs) else lineEnd? (c :: cs)
    | [] => none

end TaskRelay.Toml
