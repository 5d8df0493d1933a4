import TaskRelay.Json.Reader
import TaskRelay.Json.Writer

/-!
# Sortable ids

A ULID is a number of 128 bits: 48 bits of a time in milliseconds, and 80 random
bits after them.  Its text has 26 characters, each for five bits, of an alphabet
in the order of its code points, so that ids, numbers and texts sort alike and
later ids sort after earlier ones.  A text is read in either case.
-/

namespace TaskRelay

structure Ulid where
  value : Nat
  value_lt : value < 1 <<< 128
deriving DecidableEq, Repr

namespace Ulid

/-- The id of a time and a random number, of which the bits in excess are
dropped. -/
def ofParts (millis random : Nat) : Ulid where
  value := (millis % (1 <<< 48)) <<< 80 + random % (1 <<< 80)
  value_lt := by
    simp only [Nat.reduceShiftLeft]
    omega

def millis (u : Ulid) : Nat :=
  u.value >>> 80

/-- The digits and letters of the text, without those that are easily confused. -/
def alphabet : List Char :=
  ['0', '1', '2', '3', '4', '5', '6', '7', '8', '9', 'A', 'B', 'C', 'D', 'E', 'F', 'G', 'H',
   'J', 'K', 'M', 'N', 'P', 'Q', 'R', 'S', 'T', 'V', 'W', 'X', 'Y', 'Z']

def symbol (n : Nat) : Char :=
  alphabet.getD n '0'

/-- The `length` last characters of the text of a number. -/
def symbols (n : Nat) : (length : Nat) → List Char
  | 0 => []
  | length + 1 => symbols (n / 32) length ++ [symbol (n % 32)]

def textLength : Nat := 26

def text (u : Ulid) : String :=
  String.ofList (symbols u.value textLength)

def symbolValue? (c : Char) : Option Nat :=
  alphabet.idxOf? c.toUpper

/-- The number of a row of characters, after `n`. -/
def ofSymbols? (n : Nat) : List Char → Option Nat
  | [] => some n
  | c :: cs =>
    match symbolValue? c with
    | none => none
    | some d => ofSymbols? (n * 32 + d) cs

/-- The id with the last 128 bits of a number. -/
def ofNat (n : Nat) : Ulid where
  value := n % (1 <<< 128)
  value_lt := Nat.mod_lt n (by decide)

/-- Reads an id.  Of the bits that the characters make, those in excess are
dropped. -/
def ofText? (s : String) : Option Ulid :=
  if s.length = textLength then (ofSymbols? 0 s.toList).map ofNat else none

def toJson (u : Ulid) : Json String :=
  .text u.text

def encode (u : Ulid) : String :=
  u.toJson.write

def ofJson? (j : RawJson) : Option Ulid :=
  j.text?.bind ofText?

def decode? (s : String) : Option Ulid :=
  (Json.read? s).bind ofJson?

def correlationId (u : Ulid) : String :=
  "corr-" ++ u.text

def batchId (u : Ulid) : String :=
  "batch-" ++ u.text

/-- The id for a time on the clock.  Times before 1970 count as 1970. -/
def ofClock (millis : Int) (random : Nat) : Ulid :=
  ofParts millis.toNat random

end Ulid

end TaskRelay
