import TaskRelay.Time.Calendar

/-!
# Instants

An instant is a number of seconds since the start of 1970 in universal time, with
nanoseconds.  A leap second is the last second of a minute with a whole second
more of nanoseconds.
-/

namespace TaskRelay

structure Instant where
  seconds : Int
  /-- Less than a second, or in a leap second less than two. -/
  nanos : Nat := 0
deriving DecidableEq, Repr

namespace Instant

def ofMillis (millis : Int) : Instant :=
  { seconds := millis / 1000, nanos := (millis % 1000).toNat * 1000000 }

def toMillis (t : Instant) : Int :=
  t.seconds * 1000 + t.nanos / 1000000

def minYear : Int := -262143

def maxYear : Int := 262142

def secondsPerDay : Int := 86400

def date (t : Instant) : Date :=
  Date.ofDays (t.seconds / secondsPerDay)

def isInRange (t : Instant) : Bool :=
  minYear ≤ t.date.year && t.date.year ≤ maxYear

def secondOfDay (t : Instant) : Nat :=
  (t.seconds % secondsPerDay).toNat

end Instant

end TaskRelay
