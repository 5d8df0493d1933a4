/-!
# Renewal ticks

While a worker is busy it renews its lease at every tick.  Ticks follow one
another at a third of the time for which a lease is held, but a millisecond apart at
least; that third is exact to the nanosecond, and a tick comes with the first whole
millisecond that is not before it.  Once a renewal has failed there are no more
ticks.
-/

namespace TaskRelay

/-- The ticks of a worker that is busy. -/
structure Ticker where
  start : Nat
  /-- The time from tick to tick, in nanoseconds. -/
  period : Nat
  next : Nat := 1
  /-- Whether every renewal so far has succeeded. -/
  holding : Bool := true
deriving DecidableEq, Repr

namespace Ticker

def nanosPerMilli : Nat := 1000000

def periodFor (ttl : Nat) : Nat :=
  max (ttl * nanosPerMilli / 3) nanosPerMilli

def begin (now ttl : Nat) : Ticker :=
  { start := now, period := periodFor ttl }

def due (t : Ticker) : Nat :=
  t.start + (t.next * t.period + (nanosPerMilli - 1)) / nanosPerMilli

/-- When the next tick comes, as long as there are any. -/
def due? (t : Ticker) : Option Nat :=
  if t.holding then some t.due else none

/-- The ticks after one that has renewed the lease or failed to. -/
def after (t : Ticker) (renewed : Bool) : Ticker :=
  { t with next := t.next + 1, holding := renewed }

end Ticker

end TaskRelay
