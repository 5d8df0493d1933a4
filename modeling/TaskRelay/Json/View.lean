import TaskRelay.Json.Basic

/-!
# Looking into JSON values

What a value for general use is taken for: a text, a number, a list, an object.
Everything is `none` where the value is of another kind.
-/

namespace TaskRelay.Json

/-- The member with a name.  A member that is null counts as missing. -/
def member? (j : Json String) (name : String) : Option (Json String) :=
  match j with
  | .object members =>
    match members.lookup name with
    | some .null => none
    | found => found
  | _ => none

def string? : Json String → Option String
  | .text s => some s
  | _ => none

def truth? : Json String → Option Bool
  | .bool b => some b
  | _ => none

def nat? : Json String → Option Nat
  | .number n => n.natural?
  | _ => none

def int? : Json String → Option Int
  | .number n =>
    if n.fraction.isEmpty && n.exponent.isNone then
      some (if n.negative then -(n.whole : Int) else n.whole)
    else none
  | _ => none

def items? : Json String → Option (List (Json String))
  | .array items => some items
  | _ => none

def strings? (j : Json String) : Option (List String) := do
  (← j.items?).mapM string?

def stringMembers? : Json String → Option (List (String × String))
  | .object members => members.mapM fun (name, value) => do return (name, ← value.string?)
  | _ => none

end TaskRelay.Json
