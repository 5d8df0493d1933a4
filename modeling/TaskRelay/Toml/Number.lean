import TaskRelay.Config.Setting
import TaskRelay.Time.Calendar
import TaskRelay.Toml.Reader

/-!
# Numbers and dates

Integers have at most 64 bits with their sign and may be written with sixteen,
eight or two as the base.  Digits may be parted by single underscores.  Fractions,
infinities and dates can be written too, though no setting takes them: a date
stands for a table with one entry, and what is not a date of the calendar, or a
number beyond all fractions, is no TOML at all.
-/

namespace TaskRelay.Toml

/-- Takes off digits of a class, single underscores between them being of no
account. -/
def digits? (p : Char → Bool) : Reader (List Char) := fun cs => do
  let (first, cs) ← charWhere? p cs
  let next : Reader Char
    | '_' :: cs => charWhere? p cs
    | cs => charWhere? p cs
  let (more, cs) := many next cs
  return (first :: more, cs)

def sign : List Char → Bool × List Char
  | '+' :: cs => (false, cs)
  | '-' :: cs => (true, cs)
  | cs => (false, cs)

def whole? : Reader (List Char)
  | '0' :: cs => some (['0'], cs)
  | cs => digits? Char.isDigit cs

def decimal (digits : List Char) : Nat :=
  Nat.ofDigitChars 10 digits 0

/-- An integer, if 64 bits are enough for it. -/
def integer? (n : Int) : Option Setting :=
  if -9223372036854775808 ≤ n ∧ n ≤ 9223372036854775807 then some (.integer n) else none

def decimalInteger? : Reader Setting := fun cs => do
  let (negative, cs) := sign cs
  let (digits, cs) ← whole? cs
  let n : Int := decimal digits
  return (← integer? (if negative then -n else n), cs)

def digitValue (c : Char) : Nat :=
  if c.isDigit then c.toNat - '0'.toNat
  else if c.isLower then c.toNat - 'a'.toNat + 10
  else c.toNat - 'A'.toNat + 10

def isDigitOf (base : Nat) (c : Char) : Bool :=
  c.isAlphanum && digitValue c < base

def integerIn? (base : Nat) : Reader Setting := fun cs => do
  let (digits, cs) ← digits? (isDigitOf base) cs
  return (← integer? (digits.foldl (fun n c => n * base + digitValue c) 0 : Nat), cs)

def anyInteger? : Reader Setting
  | '0' :: 'x' :: cs => integerIn? 16 cs
  | '0' :: 'o' :: cs => integerIn? 8 cs
  | '0' :: 'b' :: cs => integerIn? 2 cs
  | cs => decimalInteger? cs

def exponent? : Reader Int
  | c :: cs =>
    if c = 'e' ∨ c = 'E' then do
      let (negative, cs) := sign cs
      let (digits, cs) ← digits? Char.isDigit cs
      let n : Int := decimal digits
      return (if negative then -n else n, cs)
    else none
  | [] => none

/-- Whether `digits` times a power of ten is too large for a double-precision
number: the nearest one would be infinite. -/
def overflows (digits : List Char) (power : Int) : Bool :=
  let n := decimal digits
  if n = 0 then false
  else
    let magnitude := (Nat.toDigits 10 n).length + power
    if magnitude < 300 then false
    else if 320 < magnitude then true
    else
      let limit := Numeral.doubleLimit
      if 0 ≤ power then limit ≤ n * Nat.pow 10 power.toNat
      else limit * Nat.pow 10 (-power).toNat ≤ n

def fraction? : Reader Setting := fun cs => do
  let (negative, cs) := sign cs
  let (whole, cs) ← whole? cs
  let (decimals, power, cs) ← match cs with
    | '.' :: cs => do
      let (decimals, cs) ← digits? Char.isDigit cs
      match exponent? cs with
      | some (power, cs) => some (decimals, power, cs)
      | none => some (decimals, 0, cs)
    | cs => do
      let (power, cs) ← exponent? cs
      some ([], power, cs)
  if !negative && overflows (whole ++ decimals) (power - decimals.length) then none
  else some (.other, cs)

/-- Takes off an infinity or the sign of no number, with or without a sign. -/
def special? : Reader Setting := fun cs =>
  match (sign cs).2 with
  | 'i' :: 'n' :: 'f' :: cs => some (.other, cs)
  | 'n' :: 'a' :: 'n' :: cs => some (.other, cs)
  | _ => none

def fixed? (count limit : Nat) : Reader Nat := fun cs => do
  let (digits, cs) ← charsWhere? Char.isDigit count cs
  if decimal digits ≤ limit then some (decimal digits, cs) else none

def date? : Reader Unit := fun cs => do
  let (year, cs) ← fixed? 4 9999 cs
  let ((), cs) ← char? '-' cs
  let (month, cs) ← fixed? 2 12 cs
  let ((), cs) ← char? '-' cs
  let (day, cs) ← fixed? 2 31 cs
  if ({ year, month, day } : Date).isValid then some ((), cs) else none

def time? : Reader Unit := fun cs => do
  let (_, cs) ← fixed? 2 23 cs
  let ((), cs) ← char? ':' cs
  let (_, cs) ← fixed? 2 59 cs
  let ((), cs) ← char? ':' cs
  let (_, cs) ← fixed? 2 60 cs
  match cs with
  | '.' :: cs => do
    let (_, cs) ← many1? (charWhere? Char.isDigit) cs
    return ((), cs)
  | cs => return ((), cs)

def offset? : Reader Unit
  | c :: cs =>
    if c = 'Z' ∨ c = 'z' then some ((), cs)
    else if c = '+' ∨ c = '-' then do
      let (_, cs) ← fixed? 2 23 cs
      let ((), cs) ← char? ':' cs
      let (_, cs) ← fixed? 2 59 cs
      return ((), cs)
    else none
  | [] => none

/-- Leaves a piece where it is not there. -/
def skipIf (piece : Reader Unit) (cs : List Char) : List Char :=
  match piece cs with
  | some ((), cs) => cs
  | none => cs

def timeOfDate? : Reader Unit
  | c :: cs =>
    if c = 'T' ∨ c = 't' ∨ c = ' ' then do
      let ((), cs) ← time? cs
      return ((), skipIf offset? cs)
    else none
  | [] => none

def dateSetting : Setting :=
  .table [("date", .text "")]

def dateOrTime? : Reader Setting := fun cs =>
  match date? cs with
  | some ((), cs) => some (dateSetting, skipIf timeOfDate? cs)
  | none => (time? cs).map fun ((), cs) => (dateSetting, cs)

def number? : Reader Setting := fun cs =>
  (dateOrTime? cs).or (((fraction? cs).or (special? cs)).or (anyInteger? cs))

end TaskRelay.Toml
