import TaskRelay.Toml.Reader

/-!
# Texts and keys

A text stands between double quotes, where a backslash escapes, or between
single quotes, where nothing does.  With three quotes on either side it may run
over several lines; a line end right after the opening quotes does not count, and
line ends in the text become line feeds.  The closing quotes may be preceded by one
or two quotes that belong to the text.
-/

namespace TaskRelay.Toml

def hexValue? (c : Char) : Option Nat :=
  if c.isDigit then some (c.toNat - '0'.toNat)
  else if 'a' ≤ c && c ≤ 'f' then some (c.toNat - 'a'.toNat + 10)
  else if 'A' ≤ c && c ≤ 'F' then some (c.toNat - 'A'.toNat + 10)
  else none

def code? (count : Nat) : Reader Char := fun cs => do
  let (digits, cs) ← charsWhere? (fun c => (hexValue? c).isSome) count cs
  let code := digits.foldl (fun n c => n * 16 + (hexValue? c).getD 0) 0
  if code.isValidChar then some (Char.ofNat code, cs) else none

def escape? : Reader Char
  | 'b' :: cs => some ('\x08', cs)
  | 't' :: cs => some ('\t', cs)
  | 'n' :: cs => some ('\n', cs)
  | 'f' :: cs => some ('\x0c', cs)
  | 'r' :: cs => some ('\r', cs)
  | '"' :: cs => some ('"', cs)
  | '\\' :: cs => some ('\\', cs)
  | 'u' :: cs => code? 4 cs
  | 'U' :: cs => code? 8 cs
  | _ => none

def basicChar? : Reader Char
  | '\\' :: cs => escape? cs
  | cs => charWhere? (fun c => isPrintable c && c ≠ '"') cs

def literalChar? : Reader Char :=
  charWhere? fun c => isPrintable c && c ≠ '\''

/-- Takes off the characters up to a closing quote, and the quote. -/
def quoted? (quote : Char) (piece : Reader Char) : Reader String := fun cs => do
  let (chars, cs) := many piece cs
  let ((), cs) ← char? quote cs
  return (String.ofList chars, cs)

/-- Takes off one or two quotes that do not end a text of several lines. -/
def innerQuotes? (quote : Char) : Reader (List Char) := fun cs =>
  let quotes := cs.takeWhile (· = quote)
  if quotes.length = 1 ∨ quotes.length = 2 then some (quotes, cs.drop quotes.length) else none

/-- Takes off a line end within a text. -/
def innerLineEnd? : Reader (List Char) := fun cs =>
  (lineEnd? cs).map fun ((), cs) => (['\n'], cs)

/-- Takes off a backslash at the end of a line, with all blanks and line ends after
it. -/
def continuedLine? : Reader (List Char)
  | '\\' :: cs => do
    let ((), cs) ← lineEnd? (skipBlank cs)
    let gap : Reader Unit
      | c :: cs => if isBlank c then some ((), cs) else lineEnd? (c :: cs)
      | [] => none
    return ([], (many gap cs).2)
  | _ => none

def basicPiece? : Reader (List Char) := fun cs =>
  ((innerQuotes? '"' cs).or (continuedLine? cs)).or
    ((innerLineEnd? cs).or ((basicChar? cs).map fun (c, cs) => ([c], cs)))

def literalPiece? : Reader (List Char) := fun cs =>
  ((innerQuotes? '\'' cs).or (innerLineEnd? cs)).or
    ((literalChar? cs).map fun (c, cs) => ([c], cs))

/-- Takes off a text of several lines from behind its opening quotes. -/
def longQuoted? (quote : Char) (piece : Reader (List Char)) : Reader String := fun cs => do
  let cs := match lineEnd? cs with
    | some ((), cs) => cs
    | none => cs
  let (pieces, cs) := many piece cs
  let quotes := cs.takeWhile (· = quote)
  if 3 ≤ quotes.length ∧ quotes.length ≤ 5 then
    some (String.ofList (pieces.flatten ++ quotes.drop 3), cs.drop quotes.length)
  else none

def text? : Reader String
  | '"' :: '"' :: '"' :: cs => longQuoted? '"' basicPiece? cs
  | '"' :: cs => quoted? '"' basicChar? cs
  | '\'' :: '\'' :: '\'' :: cs => longQuoted? '\'' literalPiece? cs
  | '\'' :: cs => quoted? '\'' literalChar? cs
  | _ => none

def isBare (c : Char) : Bool :=
  c.isAlphanum || c = '_' || c = '-'

def keyPart? : Reader String
  | '"' :: cs => quoted? '"' basicChar? cs
  | '\'' :: cs => quoted? '\'' literalChar? cs
  | cs => (many1? (charWhere? isBare) cs).map fun (chars, cs) => (String.ofList chars, cs)

def maxKeyParts : Nat := 79

/-- Takes off a key: parts with points between them, and blanks around all
parts. -/
def key? : Reader (List String) := fun cs => do
  let (first, cs) ← keyPart? (skipBlank cs)
  let further : Reader String := fun cs => do
    let ((), cs) ← char? '.' cs
    let (part, cs) ← keyPart? (skipBlank cs)
    return (part, skipBlank cs)
  let (parts, cs) := many further (skipBlank cs)
  let key := first :: parts
  if key.length ≤ maxKeyParts then some (key, cs) else none

end TaskRelay.Toml
