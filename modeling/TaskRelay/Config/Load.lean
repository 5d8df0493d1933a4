import TaskRelay.Config.Decode
import TaskRelay.Config.Environment
import TaskRelay.Toml.Document

/-!
# Loading configurations

A configuration is read from a document if there is one, overridden by the
environment, and checked.
-/

namespace TaskRelay.Config

inductive Source where
  | usual
  | document (text : String)
  | unreadable
deriving DecidableEq, Repr

def Source.read : Source → Except ConfigError Config
  | .usual => .ok {}
  | .unreadable => .error .unreadable
  | .document text =>
    match (Toml.read? text).bind ofSetting? with
    | some c => .ok c
    | none => .error .malformed

def load (source : Source) (env : Environment) : Except ConfigError Config := do
  let c ← source.read
  match c.override env with
  | (some e, _) => .error e
  | (none, c) =>
    c.check
    return c

end TaskRelay.Config
