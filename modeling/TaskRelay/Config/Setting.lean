import TaskRelay.Json.Basic

/-!
# Settings

A setting is what a configuration says, in whichever format it says it.  A
record of settings is a table with the fields as entries, other entries being of
no account, or a list with the fields in their order.
-/

namespace TaskRelay

inductive Setting where
  | text (s : String)
  | integer (n : Int)
  | flag (b : Bool)
  | list (items : List Setting)
  | table (entries : List (String × Setting))
  /-- Something that no setting can mean, such as a fraction. -/
  | other

instance : Inhabited Setting := ⟨.other⟩

namespace Setting

def text? : Setting → Option String
  | .text s => some s
  | _ => none

def flag? : Setting → Option Bool
  | .flag b => some b
  | _ => none

def natural? (limit : Nat) : Setting → Option Nat
  | .integer (.ofNat n) => if n ≤ limit then some n else none
  | _ => none

def word32? (s : Setting) : Option UInt32 :=
  (s.natural? 4294967295).map UInt32.ofNat

def word64? (s : Setting) : Option Nat :=
  s.natural? Numeral.maxWord

def texts? : Setting → Option (List String)
  | .list items => items.mapM text?
  | _ => none

/-- The settings of a record that are present.  A list may go on after the last
field only where `surplus` says so. -/
def fields? (names : List String) (surplus : Bool) :
    Setting → Option (List (String × Setting))
  | .table entries => some (entries.filter fun e => names.contains e.1)
  | .list items =>
    if surplus || items.length ≤ names.length then some (names.zip items) else none
  | _ => none

def field? {α : Type} (fields : List (String × Setting)) (name : String) (usual : α)
    (read : Setting → Option α) : Option α :=
  match fields.lookup name with
  | some s => read s
  | none => some usual

mutual

/-- The setting that a JSON value stands for.  A number is an integer if it is
written as one; minus zero is none. -/
def ofJson : Json String → Setting
  | .null => .other
  | .bool b => .flag b
  | .number n =>
    if n.fraction.isEmpty && n.exponent.isNone then
      if !n.negative then .integer n.whole
      else if n.whole = 0 then .other
      else .integer (-(n.whole : Int))
    else .other
  | .text s => .text s
  | .array items => .list (ofItems items)
  | .object members => .table (ofMembers members)

def ofItems : List (Json String) → List Setting
  | [] => []
  | item :: items => ofJson item :: ofItems items

def ofMembers : List (String × Json String) → List (String × Setting)
  | [] => []
  | (name, value) :: members => (name, ofJson value) :: ofMembers members

end

end Setting

end TaskRelay
