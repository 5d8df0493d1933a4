import TaskRelay.Json.Basic

/-!
# JSON tokens

The tokens of JSON text, and the machine that finds them, one character at a
time.  No token of JSON can stand right beside another of the same kind, so the
machine may end a number as soon as a character does not belong to it and leave
the rest to the grammar.
-/

namespace TaskRelay.Json

/-- The smallest pieces of JSON text that mean something. -/
inductive Token where
  | openBrace
  | closeBrace
  | openBracket
  | closeBracket
  | comma
  | colon
  | null
  | bool (b : Bool)
  | number (n : Numeral)
  | text (s : Option String)
deriving DecidableEq, Repr

structure PartialText where
  /-- The characters so far, the last one first. -/
  chars : List Char := []
  /-- A leading surrogate that still wants its partner. -/
  leading : Option Nat := none
  /-- Whether every surrogate before has found its partner. -/
  paired : Bool := true
deriving DecidableEq, Repr

namespace PartialText

/-- Adds a character; a surrogate that waits for a partner has waited in vain. -/
def push (t : PartialText) (c : Char) : PartialText :=
  { chars := c :: t.chars, leading := none, paired := t.paired && t.leading.isNone }

/-- Adds the code of a `\u` escape, which may be one half of a surrogate pair. -/
def pushCode (t : PartialText) (code : Nat) : PartialText :=
  if 0xd800 ≤ code && code ≤ 0xdbff then
    { t with leading := some code, paired := t.paired && t.leading.isNone }
  else if 0xdc00 ≤ code && code ≤ 0xdfff then
    match t.leading with
    | some lead =>
      { t with
        chars := Char.ofNat (0x10000 + (lead - 0xd800) * 0x400 + (code - 0xdc00)) :: t.chars
        leading := none }
    | none => { t with paired := false }
  else t.push (Char.ofNat code)

/-- The whole literal, or `none` if a surrogate has no partner. -/
def finish (t : PartialText) : Option String :=
  if t.paired && t.leading.isNone then some (String.ofList t.chars.reverse) else none

end PartialText

inductive PartialNumber where
  | sign
  | whole (negative : Bool) (n : Nat)
  | point (negative : Bool) (n : Nat)
  | fraction (negative : Bool) (n : Nat) (digits : List (Fin 10))
  | mark (base : Numeral)
  | exponentSign (base : Numeral) (negative : Bool)
  | exponent (base : Numeral) (negative : Bool) (n : Nat)
deriving DecidableEq, Repr

def digit? (c : Char) : Option (Fin 10) :=
  if c.isDigit then some (Fin.ofNat 10 (c.toNat - '0'.toNat)) else none

/-- The value of a hexadecimal digit, in either case. -/
def hexDigit? (c : Char) : Option Nat :=
  if c.isDigit then some (c.toNat - '0'.toNat)
  else if 'a' ≤ c && c ≤ 'f' then some (c.toNat - 'a'.toNat + 10)
  else if 'A' ≤ c && c ≤ 'F' then some (c.toNat - 'A'.toNat + 10)
  else none

namespace PartialNumber

/-- The numeral before its exponent, once it has all the digits it needs. -/
def base? : PartialNumber → Option Numeral
  | .whole negative n => some { negative, whole := n }
  | .fraction negative n digits => some { negative, whole := n, fraction := digits.reverse }
  | _ => none

def finish? : PartialNumber → Option Numeral
  | .exponent base negative n =>
    some { base with exponent := some (if negative then -(n : Int) else (n : Int)) }
  | p => p.base?

/-- Goes on with a digit.  No digit may follow a leading zero. -/
def pushDigit? (p : PartialNumber) (d : Fin 10) : Option PartialNumber :=
  match p with
  | .sign => some (.whole true d.val)
  | .whole negative n => if n = 0 then none else some (.whole negative (n * 10 + d.val))
  | .point negative n => some (.fraction negative n [d])
  | .fraction negative n digits => some (.fraction negative n (d :: digits))
  | .mark base => some (.exponent base false d.val)
  | .exponentSign base negative => some (.exponent base negative d.val)
  | .exponent base negative n => some (.exponent base negative (n * 10 + d.val))

def push? (p : PartialNumber) (c : Char) : Option PartialNumber :=
  match digit? c with
  | some d => p.pushDigit? d
  | none =>
    match c, p with
    | '.', .whole negative n => some (.point negative n)
    | '+', .mark base => some (.exponentSign base false)
    | '-', .mark base => some (.exponentSign base true)
    | c, p => if c = 'e' ∨ c = 'E' then p.base?.map .mark else none

end PartialNumber

/-- Where the machine stands between two characters. -/
inductive Mode where
  | gap
  /-- In a word, with the characters that must still come. -/
  | word (left : List Char) (token : Token)
  | number (n : PartialNumber)
  | text (t : PartialText)
  /-- After a backslash in a string literal. -/
  | escape (t : PartialText)
  /-- In a `\u` escape that still wants `left + 1` digits. -/
  | unicode (t : PartialText) (left code : Nat)
deriving DecidableEq, Repr

namespace Mode

/-- The first character of a token, or white space between tokens. -/
def start (c : Char) : Option (List Token × Mode) :=
  match c with
  | ' ' | '\t' | '\n' | '\r' => some ([], .gap)
  | '\x7b' => some ([.openBrace], .gap)
  | '\x7d' => some ([.closeBrace], .gap)
  | '[' => some ([.openBracket], .gap)
  | ']' => some ([.closeBracket], .gap)
  | ',' => some ([.comma], .gap)
  | ':' => some ([.colon], .gap)
  | '"' => some ([], .text {})
  | '-' => some ([], .number .sign)
  | 'n' => some ([], .word ['u', 'l', 'l'] .null)
  | 't' => some ([], .word ['r', 'u', 'e'] (.bool true))
  | 'f' => some ([], .word ['a', 'l', 's', 'e'] (.bool false))
  | c => (digit? c).map fun d => ([], .number (.whole false d.val))

def escaped? : Char → Option Char
  | '"' => some '"'
  | '\\' => some '\\'
  | '/' => some '/'
  | 'b' => some '\x08'
  | 'f' => some '\x0c'
  | 'n' => some '\n'
  | 'r' => some '\r'
  | 't' => some '\t'
  | _ => none

/-- One character: the tokens it completes and where the machine stands then,
or `none` where no JSON text goes on like this. -/
def step (mode : Mode) (c : Char) : Option (List Token × Mode) :=
  match mode with
  | .gap => start c
  | .word [] _ => none
  | .word (x :: left) token =>
    if c ≠ x then none
    else if left.isEmpty then some ([token], .gap)
    else some ([], .word left token)
  | .number n =>
    match n.push? c with
    | some n => some ([], .number n)
    | none => do
      let n ← n.finish?
      let (tokens, mode) ← start c
      return (.number n :: tokens, mode)
  | .text t =>
    if c = '"' then some ([.text t.finish], .gap)
    else if c = '\\' then some ([], .escape t)
    else if c.toNat < 0x20 then none
    else some ([], .text (t.push c))
  | .escape t =>
    if c = 'u' then some ([], .unicode t 3 0)
    else (escaped? c).map fun c => ([], .text (t.push c))
  | .unicode t left code => do
    let d ← hexDigit? c
    match left with
    | 0 => return ([], .text (t.pushCode (code * 16 + d)))
    | left + 1 => return ([], .unicode t left (code * 16 + d))

def finish? : Mode → Option (List Token)
  | .gap => some []
  | .number n => n.finish?.map fun n => [.number n]
  | _ => none

end Mode

/-- Runs the machine over the rest of a text; `found` holds the tokens so far,
the last one first. -/
def tokensFrom (mode : Mode) (found : List Token) : List Char → Option (List Token)
  | [] => mode.finish?.map fun tokens => found.reverse ++ tokens
  | c :: cs =>
    match mode.step c with
    | none => none
    | some (tokens, mode) => tokensFrom mode (tokens.reverse ++ found) cs

/-- The tokens of a text, or `none` if it has a piece that is none. -/
def tokens? (cs : List Char) : Option (List Token) :=
  tokensFrom .gap [] cs

end TaskRelay.Json
