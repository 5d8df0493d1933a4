import TaskRelay.Json.Token

/-!
# Reading JSON

A machine over the tokens of a text builds the value.  It keeps the containers
that are still open on a stack, so that the depth of a value costs memory only
and no reader is tied to a limit: limits on depth, numbers and texts apply where
a value is used, and not to members that nobody looks at.
-/

namespace TaskRelay.Json

/-- A container that is still open, around the value being read.  What it holds
already stands with the last one first. -/
inductive Frame where
  | array (items : List RawJson)
  /-- An object, with the name of the member being read. -/
  | object (members : List (Option String × RawJson)) (name : Option String)

/-- What the tokens so far leave to come. -/
inductive Place where
  /-- A value, or the end of an array without items. -/
  | value
  | name (members : List (Option String × RawJson))
  | colon (members : List (Option String × RawJson)) (name : Option String)
  | after (value : RawJson)

def Token.scalar? : Token → Option RawJson
  | .null => some .null
  | .bool b => some (.bool b)
  | .number n => some (.number n)
  | .text s => some (.text s)
  | _ => none

/-- The machine while it reads: the open containers, innermost first, and the
place inside them. -/
abbrev Reading := List Frame × Place

def Reading.step : Reading → Token → Option Reading
  | (stack, .value), .openBracket => some (.array [] :: stack, .value)
  | (stack, .value), .openBrace => some (stack, .name [])
  | (.array [] :: stack, .value), .closeBracket => some (stack, .after (.array []))
  | (stack, .value), token => token.scalar?.map fun v => (stack, .after v)
  | (stack, .name members), .text name => some (stack, .colon members name)
  | (stack, .name []), .closeBrace => some (stack, .after (.object []))
  | (stack, .colon members name), .colon => some (.object members name :: stack, .value)
  | (.array items :: stack, .after v), .comma => some (.array (v :: items) :: stack, .value)
  | (.array items :: stack, .after v), .closeBracket =>
    some (stack, .after (.array (v :: items).reverse))
  | (.object members name :: stack, .after v), .comma =>
    some (stack, .name ((name, v) :: members))
  | (.object members name :: stack, .after v), .closeBrace =>
    some (stack, .after (.object ((name, v) :: members).reverse))
  | _, _ => none

/-- Runs the machine over tokens, up to the single value they make. -/
def ofTokensFrom? (reading : Reading) : List Token → Option RawJson
  | [] =>
    match reading with
    | ([], .after v) => some v
    | _ => none
  | token :: tokens =>
    match reading.step token with
    | none => none
    | some reading => ofTokensFrom? reading tokens

def ofTokens? (tokens : List Token) : Option RawJson :=
  ofTokensFrom? ([], .value) tokens

def read? (s : String) : Option RawJson :=
  (tokens? s.toList).bind ofTokens?

end TaskRelay.Json
