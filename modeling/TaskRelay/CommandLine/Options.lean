import TaskRelay.Config.Environment
import TaskRelay.Demo

/-!
# Options

What the program is told on its command line.  An option is a switch or takes a
value.  The value is part of the argument, after an equals sign or right after the
letter of a short option, or else the next argument, unless that one looks like an
option itself.  Arguments are read in two steps: `scan` takes them apart into words,
and `Told.read` takes up the words one after the other, so that the first word that
asks for help or makes no sense is what counts.
-/

namespace TaskRelay.CommandLine

inductive Switch where
  | once
  | trigger
  | help
deriving DecidableEq, Repr

inductive Parameter where
  | config
  | pipeline
deriving DecidableEq, Repr

inductive Word where
  | switch (s : Switch)
  /-- A parameter, with its value if there is one. -/
  | parameter (p : Parameter) (value : Option String)
  | stray (argument : String)
deriving DecidableEq, Repr

def Switch.name : Switch → String
  | .once => "once"
  | .trigger => "trigger"
  | .help => "help"

def Switch.ofName? (name : String) : Option Switch :=
  [Switch.once, .trigger, .help].find? fun s => s.name = name

namespace Parameter

def name : Parameter → String
  | .config => "config"
  | .pipeline => "pipeline"

def letter : Parameter → Char
  | .config => 'c'
  | .pipeline => 'p'

def all : List Parameter := [.config, .pipeline]

def ofName? (name : String) : Option Parameter :=
  all.find? fun p => p.name = name

def ofLetter? (c : Char) : Option Parameter :=
  all.find? fun p => p.letter = c

end Parameter

/-! ### Taking arguments apart -/

abbrev Piece := List Word × Option Parameter

/-- An argument without its two hyphens. -/
def longPiece (body : List Char) : Piece :=
  let name := String.ofList (body.takeWhile (· != '='))
  let value := body.dropWhile (· != '=')
  match Parameter.ofName? name, Switch.ofName? name, value with
  | some p, _, [] => ([], some p)
  | some p, _, _ :: value => ([.parameter p (some (String.ofList value))], none)
  | none, some s, [] => ([.switch s], none)
  | none, _, _ => ([.stray ("--" ++ String.ofList body)], none)

/-- An argument without its one hyphen: letters of options, of which one with a
value ends the row. -/
def shortPiece : List Char → Piece
  | [] => ([], none)
  | c :: rest =>
    if c = 'h' then
      let (words, waiting) := shortPiece rest
      (.switch .help :: words, waiting)
    else
      match Parameter.ofLetter? c, rest with
      | none, _ => ([.stray (String.ofList ['-', c])], none)
      | some p, [] => ([], some p)
      | some p, '=' :: value => ([.parameter p (some (String.ofList value))], none)
      | some p, value => ([.parameter p (some (String.ofList value))], none)

/-- A parameter that has waited for its value in vain. -/
def unanswered : Option Parameter → List Word
  | some p => [.parameter p none]
  | none => []

/-- The words of a list of arguments, when a parameter may be waiting for its
value.  After two bare hyphens nothing is an option any more. -/
def scan (waiting : Option Parameter) : List String → List Word
  | [] => unanswered waiting
  | argument :: rest =>
    match argument.toList with
    | ['-', '-'] => unanswered waiting ++ rest.map .stray
    | '-' :: '-' :: body =>
      let (words, next) := longPiece body
      unanswered waiting ++ words ++ scan next rest
    | '-' :: c :: body =>
      let (words, next) := shortPiece (c :: body)
      unanswered waiting ++ words ++ scan next rest
    | _ =>
      match waiting with
      | some p => .parameter p (some argument) :: scan none rest
      | none => .stray argument :: scan none rest

/-! ### Taking up words -/

inductive UsageError where
  | unexpected (argument : String)
  | repeated (option : String)
  | noValue (option : String)
  | badValue (option value : String)
deriving DecidableEq, Repr

def UsageError.message : UsageError → String
  | .unexpected argument => "unexpected argument " ++ Text.quoted argument
  | .repeated option => "option --" ++ option ++ " is given more than once"
  | .noValue option => "option --" ++ option ++ " needs a value"
  | .badValue option value => "invalid value " ++ Text.quoted value ++ " for option --" ++ option

/-- The exit code of a program that has been called wrongly. -/
def UsageError.exitCode : UsageError → Nat
  | _ => 2

structure Options where
  config : Option String := none
  kinds : List Demo.Kind := Demo.Kind.all
  /-- Whether the program ends when nothing is left to do. -/
  once : Bool := false
  /-- Whether a run of each pipeline is started. -/
  trigger : Bool := false
deriving DecidableEq, Repr

inductive Request where
  | help
  | run (options : Options)
deriving DecidableEq, Repr

def kinds? (value : String) : Option (List Demo.Kind) :=
  if value = "all" then some Demo.Kind.all
  else (Demo.Kind.ofName? value).map fun k => [k]

/-- A path; the empty text is none. -/
def path (value : String) : Except UsageError String :=
  if value.isEmpty then .error (.noValue Parameter.config.name) else .ok value

structure Told where
  config : Option String := none
  kinds : Option (List Demo.Kind) := none
  once : Bool := false
  trigger : Bool := false
deriving DecidableEq, Repr

namespace Told

def set (t : Told) (p : Parameter) (value : Option String) : Except UsageError Told :=
  match p, value with
  | _, none => .error (.noValue p.name)
  | .config, some value =>
    if t.config.isSome then .error (.repeated p.name)
    else (path value).map fun path => { t with config := some path }
  | .pipeline, some value =>
    if t.kinds.isSome then .error (.repeated p.name)
    else
      match kinds? value with
      | some kinds => .ok { t with kinds := some kinds }
      | none => .error (.badValue p.name value)

/-- The variable that names the configuration file if no option does. -/
def configVariable : String := "GEOFLOW_CONFIG"

def options (t : Told) (env : Environment) : Except UsageError Options := do
  let usual : Options := {}
  let kinds := t.kinds.getD usual.kinds
  let config ← match t.config, env.value? configVariable with
    | some path, _ => pure (some path)
    | none, some value => (path value).map some
    | none, none => pure none
  return { config, kinds, once := t.once, trigger := t.trigger }

def read (t : Told) (env : Environment) : List Word → Except UsageError Request
  | [] => (t.options env).map .run
  | .stray argument :: _ => .error (.unexpected argument)
  | .switch .help :: _ => .ok .help
  | .switch .once :: rest =>
    if t.once then .error (.repeated Switch.once.name)
    else { t with once := true }.read env rest
  | .switch .trigger :: rest =>
    if t.trigger then .error (.repeated Switch.trigger.name)
    else { t with trigger := true }.read env rest
  | .parameter p value :: rest =>
    match t.set p value with
    | .ok t => t.read env rest
    | .error e => .error e

end Told

def Request.ofArguments (env : Environment) (arguments : List String) :
    Except UsageError Request :=
  Told.read {} env (scan none arguments)

def helpText : String :=
  "Runs the geocoder and the export pipeline of the demonstration\n\n" ++
  "Options:\n" ++
  "  -c, --config FILE        configuration file, in TOML (or " ++ Told.configVariable ++ ")\n" ++
  "  -p, --pipeline PIPELINE  geocoder, export or all (as usual: all)\n" ++
  "      --once               end when nothing is left to do\n" ++
  "      --trigger            start a run of each pipeline first\n" ++
  "  -h, --help               show this help"

end TaskRelay.CommandLine
