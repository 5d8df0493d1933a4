import TaskRelay.Text.Blank
import TaskRelay.Time.Instant

/-!
# Instants as text

An instant is written in the format of RFC 3339, in universal time with the letter
`Z`.  Fractions of a second have as many digits as they need, but three, six
or nine.  A year outside 0 to 9999 is written with its sign.

It is read in a wider format.  Before a number or a separator there may be blank
characters, a number may have fewer digits than usual, the date and the time may
be parted by a space, and the time may be given for any offset from universal
time.
-/

namespace TaskRelay.Instant

/-! ### Writing -/

def padded (width n : Nat) : List Char :=
  let digits := Nat.toDigits 10 n
  List.replicate (width - digits.length) '0' ++ digits

def writeYear (year : Int) : List Char :=
  if 0 ≤ year ∧ year ≤ 9999 then padded 4 year.toNat
  else (if year < 0 then '-' else '+') :: padded 4 year.natAbs

def writeFraction (nanos : Nat) : List Char :=
  if nanos = 0 then []
  else if nanos % 1000000 = 0 then '.' :: padded 3 (nanos / 1000000)
  else if nanos % 1000 = 0 then '.' :: padded 6 (nanos / 1000)
  else '.' :: padded 9 nanos

def nanosPerSecond : Nat := 1000000000

/-- The seconds and the fraction within a minute.  A leap second is the sixtieth
second of its minute. -/
def writeSecond (second nanos : Nat) : List Char :=
  if nanos < nanosPerSecond then padded 2 second ++ writeFraction nanos
  else padded 2 (second + 1) ++ writeFraction (nanos - nanosPerSecond)

def writeChars (t : Instant) : List Char :=
  let d := t.date
  let s := t.secondOfDay
  writeYear d.year ++ '-' :: padded 2 d.month ++ '-' :: padded 2 d.day ++
    'T' :: padded 2 (s / 3600) ++ ':' :: padded 2 (s / 60 % 60) ++
    ':' :: writeSecond (s % 60) t.nanos ++ ['Z']

def write (t : Instant) : String :=
  String.ofList t.writeChars

/-! ### Reading

Each reader takes a piece off the front of the text and leaves the rest. -/

def skipBlank (cs : List Char) : List Char :=
  cs.dropWhile Text.isBlank

def readDigits? (width : Nat) (cs : List Char) : Option (Nat × List Char) :=
  let digits := (cs.take width).takeWhile Char.isDigit
  if digits.isEmpty then none
  else some (Nat.ofDigitChars 10 digits 0, cs.drop digits.length)

def readNumber? (width : Nat) (cs : List Char) : Option (Nat × List Char) :=
  readDigits? width (skipBlank cs)

def readChar? (c : Char) : List Char → Option (List Char)
  | x :: cs => if x = c then some cs else none
  | [] => none

/-- Takes off a separator that may have blank characters before it. -/
def readSeparator? (c : Char) (cs : List Char) : Option (List Char) :=
  readChar? c (skipBlank cs)

/-- Takes off a year: up to four digits, or a sign and any number of digits. -/
def readYear? (cs : List Char) : Option (Int × List Char) :=
  match skipBlank cs with
  | '-' :: cs => (readDigits? cs.length cs).map fun (n, cs) => (-(n : Int), cs)
  | '+' :: cs => (readDigits? cs.length cs).map fun (n, cs) => ((n : Int), cs)
  | cs => (readDigits? 4 cs).map fun (n, cs) => ((n : Int), cs)

def readDate? (cs : List Char) : Option (Date × List Char) := do
  let (year, cs) ← readYear? cs
  let (month, cs) ← readNumber? 2 (← readSeparator? '-' cs)
  let (day, cs) ← readNumber? 2 (← readSeparator? '-' cs)
  return ({ year, month, day }, cs)

/-- Takes off the fraction of a second, if there is one.  Digits after the ninth
do not count. -/
def readFraction? : List Char → Option (Nat × List Char)
  | '.' :: cs => do
    let (n, rest) ← readDigits? 9 cs
    return (n * Nat.pow 10 (9 - (cs.length - rest.length)), rest.dropWhile Char.isDigit)
  | cs => some (0, cs)

structure ClockTime where
  hour : Nat
  minute : Nat
  second : Nat
  nanos : Nat
deriving DecidableEq, Repr

/-- Whether the time exists; the sixtieth second may. -/
def ClockTime.isValid (t : ClockTime) : Bool :=
  t.hour ≤ 23 && t.minute ≤ 59 && t.second ≤ 60

/-- The seconds since midnight and the nanoseconds, a leap second being the last
second of its minute with more nanoseconds. -/
def ClockTime.seconds (t : ClockTime) : Nat × Nat :=
  let minutes := (t.hour * 60 + t.minute) * 60
  if t.second = 60 then (minutes + 59, t.nanos + nanosPerSecond)
  else (minutes + t.second, t.nanos)

def readTime? (cs : List Char) : Option (ClockTime × List Char) := do
  let (hour, cs) ← readNumber? 2 cs
  let (minute, cs) ← readNumber? 2 (← readSeparator? ':' cs)
  let (second, cs) ← readNumber? 2 (← readSeparator? ':' cs)
  let (nanos, cs) ← readFraction? cs
  return ({ hour, minute, second, nanos }, cs)

def readTwoDigits? : List Char → Option (Nat × List Char)
  | a :: b :: cs =>
    if a.isDigit && b.isDigit then some (Nat.ofDigitChars 10 [a, b] 0, cs) else none
  | _ => none

def readOffsetSize? (cs : List Char) : Option (Nat × List Char) := do
  let (hours, cs) ← readTwoDigits? cs
  let (minutes, cs) ← readTwoDigits? (cs.dropWhile fun c => c = ':' || Text.isBlank c)
  if 59 < minutes then none
  else if 24 ≤ hours then none
  else some (hours * 3600 + minutes * 60, cs)

/-- Takes off an offset from universal time, in seconds. -/
def readOffset? : List Char → Option (Int × List Char)
  | [] => none
  | c :: cs =>
    if c = 'Z' ∨ c = 'z' then some (0, cs)
    else if c = '+' then (readOffsetSize? cs).map fun (n, cs) => ((n : Int), cs)
    else if c = '-' ∨ c = '−' then (readOffsetSize? cs).map fun (n, cs) => (-(n : Int), cs)
    else none

/-- Takes off the name of universal time, in any case, or an offset. -/
def readZone? (cs : List Char) : Option (Int × List Char) :=
  if (cs.take 3).map Char.toUpper = ['U', 'T', 'C'] then some (0, cs.drop 3) else readOffset? cs

def ofClock? (d : Date) (t : ClockTime) (offset : Int) : Option Instant :=
  if d.isValid && t.isValid && minYear ≤ d.year && d.year ≤ maxYear then
    let (second, nanos) := t.seconds
    let instant : Instant := { seconds := d.toDays * secondsPerDay + second - offset, nanos }
    if instant.isInRange then some instant else none
  else none

def readChars? (cs : List Char) : Option Instant := do
  let (date, cs) ← readDate? cs
  match cs with
  | [] => none
  | c :: cs =>
    if c = 'T' ∨ c = 't' ∨ c = ' ' then
      let (time, cs) ← readTime? cs
      let (offset, cs) ← readZone? (skipBlank cs)
      if (skipBlank cs).isEmpty then ofClock? date time offset else none
    else none

def read? (s : String) : Option Instant :=
  readChars? s.toList

end TaskRelay.Instant
