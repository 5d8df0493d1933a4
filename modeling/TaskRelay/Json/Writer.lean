import TaskRelay.Json.Basic

/-!
# Writing JSON

The compact form: no white space, members in their order, and in string literals
a backslash before quote and backslash, the short escapes of JSON for the
controls that have one and `\u00xx` for the other controls below the space.
Everything else stands as it is.
-/

namespace TaskRelay.Json

/-- A digit of a number below sixteen, in lower case. -/
def hexDigit (n : Nat) : Char := Nat.digitChar n

def writeChar (c : Char) : List Char :=
  match c with
  | '"' => ['\\', '"']
  | '\\' => ['\\', '\\']
  | '\x08' => ['\\', 'b']
  | '\x0c' => ['\\', 'f']
  | '\n' => ['\\', 'n']
  | '\r' => ['\\', 'r']
  | '\t' => ['\\', 't']
  | c =>
    if c.toNat < 0x20 then
      ['\\', 'u', '0', '0', hexDigit (c.toNat / 16), hexDigit (c.toNat % 16)]
    else [c]

def writeText (s : String) : List Char :=
  '"' :: s.toList.flatMap writeChar ++ ['"']

def writeFraction : List (Fin 10) → List Char
  | [] => []
  | d :: ds => '.' :: (d :: ds).map fun d => Nat.digitChar d.val

def writeExponent : Option Int → List Char
  | none => []
  | some (.ofNat n) => 'e' :: Nat.toDigits 10 n
  | some (.negSucc n) => 'e' :: '-' :: Nat.toDigits 10 (n + 1)

def writeNumeral (n : Numeral) : List Char :=
  (if n.negative then ['-'] else []) ++ Nat.toDigits 10 n.whole ++ writeFraction n.fraction ++
    writeExponent n.exponent

mutual

def writeChars : Json String → List Char
  | .null => ['n', 'u', 'l', 'l']
  | .bool true => ['t', 'r', 'u', 'e']
  | .bool false => ['f', 'a', 'l', 's', 'e']
  | .number n => writeNumeral n
  | .text s => writeText s
  | .array items => '[' :: writeItems items ++ [']']
  | .object members => '\x7b' :: writeMembers members ++ ['\x7d']

def writeItems : List (Json String) → List Char
  | [] => []
  | item :: items => writeChars item ++ writeMoreItems items

/-- The items of an array after the first, each behind its comma. -/
def writeMoreItems : List (Json String) → List Char
  | [] => []
  | item :: items => ',' :: writeChars item ++ writeMoreItems items

def writeMembers : List (String × Json String) → List Char
  | [] => []
  | (name, value) :: members =>
    writeText name ++ ':' :: writeChars value ++ writeMoreMembers members

/-- The members of an object after the first, each behind its comma. -/
def writeMoreMembers : List (String × Json String) → List Char
  | [] => []
  | (name, value) :: members =>
    ',' :: writeText name ++ ':' :: writeChars value ++ writeMoreMembers members

end

def write (j : Json String) : String :=
  String.ofList j.writeChars

end TaskRelay.Json
