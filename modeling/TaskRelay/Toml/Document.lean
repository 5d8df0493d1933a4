import TaskRelay.Toml.Number
import TaskRelay.Toml.Table
import TaskRelay.Toml.Text

/-!
# TOML documents

A document is a row of statements, one to a line: keys with values, headers of
tables, and headers of tables in arrays.  `Toml.read?` gives the setting that the
document makes.
-/

namespace TaskRelay.Toml

def maxDepth : Nat := 79

/-- Splits a key into the parts that lead to a table and the part within it. -/
def splitKey? (key : List String) : Option (List String × String) :=
  key.getLast?.map fun last => (key.dropLast, last)

/-- Takes off a key, the sign between key and value, and a value. -/
def assignment? (value : Reader Setting) : Reader (List String × String × Setting) := fun cs => do
  let (key, cs) ← key? cs
  let (path, last) ← splitKey? key
  let ((), cs) ← char? '=' cs
  let (s, cs) ← value (skipBlank cs)
  return ((path, last, s), cs)

def array? (value : Reader Setting) : Reader Setting := fun cs =>
  let item : Reader Setting := fun cs => do
    let (s, cs) ← value (skipLines cs)
    return (s, skipLines cs)
  let further : Reader Setting := fun cs => do
    let ((), cs) ← char? ',' cs
    item cs
  let (items, cs) := match item cs with
    | none => ([], skipLines cs)
    | some (first, cs) =>
      let (more, cs) := many further cs
      (first :: more, match char? ',' cs with
        | some ((), cs) => skipLines cs
        | none => cs)
  (char? ']' cs).map fun ((), cs) => (.list items, cs)

def table? (value : Reader Setting) : Reader Setting := fun cs =>
  let item : Reader (List String × String × Setting) := fun cs => do
    let (a, cs) ← assignment? value cs
    return (a, skipBlank cs)
  let further : Reader (List String × String × Setting) := fun cs => do
    let ((), cs) ← char? ',' cs
    item cs
  let (items, cs) := match item cs with
    | none => ([], skipBlank cs)
    | some (first, cs) =>
      let (more, cs) := many further cs
      (first :: more, cs)
  do
    let ((), cs) ← char? '\x7d' cs
    return (← inlineTable? items, cs)

/-- Takes off a value with at most `depth` arrays and tables inside one another. -/
def value? (depth : Nat) : Reader Setting
  | '[' :: cs =>
    match depth with
    | 0 => none
    | depth + 1 => array? (value? depth) cs
  | '\x7b' :: cs =>
    match depth with
    | 0 => none
    | depth + 1 => table? (value? depth) cs
  | 't' :: cs => (chars? ['r', 'u', 'e'] cs).map fun ((), cs) => (.flag true, cs)
  | 'f' :: cs => (chars? ['a', 'l', 's', 'e'] cs).map fun ((), cs) => (.flag false, cs)
  | cs => ((text? cs).map fun (s, cs) => (.text s, cs)).or (number? cs)

/-- Takes off the header of a table in an array, or of a table, from behind its
first bracket. -/
def header? : Reader Statement
  | '[' :: cs => do
    let (key, cs) ← key? cs
    let (path, last) ← splitKey? key
    let ((), cs) ← chars? [']', ']'] cs
    return (.element path last, cs)
  | cs => do
    let (key, cs) ← key? cs
    let (path, last) ← splitKey? key
    let ((), cs) ← char? ']' cs
    return (.table path last, cs)

def statement? : Reader Statement
  | '[' :: cs => header? cs
  | cs => do
    let ((path, key, s), cs) ← assignment? (value? maxDepth) cs
    return (.assign path key s, cs)

def line? : Reader (Option Statement) := fun cs =>
  match restOfLine? cs with
  | some rest => some (none, rest)
  | none => do
    let (s, cs) ← statement? (skipBlank cs)
    return (some s, ← restOfLine? cs)

def byteOrderMark : Char := '\ufeff'

def read? (s : String) : Option Setting := do
  let cs := match s.toList with
    | c :: cs => if c = byteOrderMark then cs else c :: cs
    | [] => []
  let (lines, cs) := many line? cs
  if cs.isEmpty then document? (lines.filterMap id) else none

end TaskRelay.Toml
