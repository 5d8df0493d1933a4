import TaskRelay.Config.Setting

/-!
# Tables in the making

A document fills its tables piece by piece.  A table may come into being because a
header or a key passes through it, and may then be defined once by a header of its
own; a table that keys with points have made may only be filled by such keys; and a
table that has been defined, or written as a value, is closed to them.  An array of
tables grows at its end, and headers and keys that pass through it mean its last
table.
-/

namespace TaskRelay.Toml

inductive Node where
  | value (s : Setting)
  /-- A table.  It is `implicit` until a header defines it, and `dotted` if a key
  with points has made it. -/
  | table (implicit dotted : Bool) (entries : List (String × Node))
  /-- An array of tables, the last one first. -/
  | tables (items : List (List (String × Node)))

instance : Inhabited Node := ⟨.value .other⟩

abbrev Entries := List (String × Node)

def Entries.set (entries : Entries) (key : String) (n : Node) : Entries :=
  match entries with
  | [] => [(key, n)]
  | (k, m) :: rest => if k = key then (key, n) :: rest else (k, m) :: Entries.set rest key n

/-- Puts a value under a key, in the table that the parts of the key before it
lead to.  `dotted` tells whether a key with points has made the table at hand, and
`direct` whether no part has led to it. -/
def Entries.assign (key : String) (s : Setting) (entries : Entries) :
    (path : List String) → (dotted direct : Bool) → Option Entries
  | [], dotted, direct =>
    if dotted = direct ∨ (entries.lookup key).isSome then none
    else some (entries ++ [(key, .value s)])
  | part :: path, _, _ =>
    match entries.lookup part with
    | none => do
      let inner ← Entries.assign key s [] path true false
      return entries ++ [(part, .table true true inner)]
    | some (.value _) => none
    | some (.table implicit dotted inner) => do
      if !implicit then none
      let inner ← Entries.assign key s inner path dotted false
      return Entries.set entries part (.table implicit dotted inner)
    | some (.tables []) => none
    | some (.tables (last :: before)) => do
      let last ← Entries.assign key s last path false false
      return Entries.set entries part (.tables (last :: before))

def Entries.put? (entries : Entries) (path : List String) (key : String) (s : Setting) :
    Option Entries :=
  Entries.assign key s entries path false true

/-- Changes the table that the parts of a header lead to. -/
def Entries.modify {β : Type} (f : Entries → Option (β × Entries)) (entries : Entries) :
    (path : List String) → Option (β × Entries)
  | [] => f entries
  | part :: path =>
    match entries.lookup part with
    | none => do
      let (b, inner) ← Entries.modify f [] path
      return (b, entries ++ [(part, .table true false inner)])
    | some (.value _) => none
    | some (.table implicit dotted inner) => do
      let (b, inner) ← Entries.modify f inner path
      return (b, Entries.set entries part (.table implicit dotted inner))
    | some (.tables []) => none
    | some (.tables (last :: before)) => do
      let (b, last) ← Entries.modify f last path
      return (b, Entries.set entries part (.tables (last :: before)))

mutual

def Node.setting : Node → Setting
  | .value s => s
  | .table _ _ entries => .table (settingsOf entries)
  | .tables items => .list (tablesOf items).reverse

def settingsOf : List (String × Node) → List (String × Setting)
  | [] => []
  | (key, n) :: rest => (key, n.setting) :: settingsOf rest

def tablesOf : List (List (String × Node)) → List Setting
  | [] => []
  | entries :: rest => .table (settingsOf entries) :: tablesOf rest

end

inductive Statement where
  | assign (path : List String) (key : String) (s : Setting)
  | table (path : List String) (key : String)
  | element (path : List String) (key : String)

/-- Where the table at hand belongs. -/
inductive Place where
  | root
  | table (path : List String) (key : String)
  | element (path : List String) (key : String)

/-- A document in the making: what is complete, and the table at hand. -/
structure Draft where
  root : Entries := []
  current : Entries := []
  place : Place := .root

namespace Draft

/-- Puts the table at hand into its place. -/
def close? (d : Draft) : Option Entries :=
  match d.place with
  | .root => some d.current
  | .table path key =>
    (d.root.modify (fun entries =>
      if (entries.lookup key).isSome then none
      else some ((), entries ++ [(key, .table false false d.current)])) path).map (·.2)
  | .element path key =>
    (d.root.modify (fun entries =>
      match entries.lookup key with
      | none => some ((), entries ++ [(key, .tables [d.current])])
      | some (.tables items) => some ((), entries.set key (.tables (d.current :: items)))
      | some _ => none) path).map (·.2)

/-- Takes the table that a header defines out of the table around it.  It may be
there already, if headers have passed through it. -/
def takeTable? (key : String) (entries : Entries) : Option (Entries × Entries) :=
  match entries.lookup key with
  | none => some ([], entries)
  | some (.table true false inner) => some (inner, entries.filter (·.1 != key))
  | some _ => none

def add? (d : Draft) : Statement → Option Draft
  | .assign path key s => (d.current.put? path key s).map fun current => { d with current }
  | .table path key => do
    let root ← d.close?
    let (current, root) ← root.modify (takeTable? key) path
    return { root, current, place := .table path key }
  | .element path key => do
    let root ← d.close?
    return { root, current := [], place := .element path key }

end Draft

def document? (statements : List Statement) : Option Setting := do
  let d ← statements.foldlM Draft.add? {}
  return .table (settingsOf (← d.close?))

/-- The setting that a table written as a value makes. -/
def inlineTable? (assignments : List (List String × String × Setting)) : Option Setting := do
  let entries ← assignments.foldlM
    (fun (entries : Entries) (path, key, s) => entries.put? path key s) []
  return .table (settingsOf entries)

end TaskRelay.Toml
