/-!
# JSON values

A JSON value keeps what its text says and nothing about how it is spaced: the
members of an object stay in their order with repeated names, and a number stays
a numeral.  The type of texts is a parameter.  A value as it is read has texts
of type `Option String`, where `none` stands for a string literal that ends up
with an unpaired surrogate, so that readers can decide which parts have to be
sound.  A value that is written has texts of type `String`.
-/

namespace TaskRelay

/-- A number as JSON writes it. -/
structure Numeral where
  negative : Bool := false
  /-- The digits before the point; they have no leading zero, so they are a
  number. -/
  whole : Nat
  /-- The digits after the point; without any there is no point either. -/
  fraction : List (Fin 10) := []
  /-- The power of ten, if one is written. -/
  exponent : Option Int := none
deriving DecidableEq, Repr

inductive Json (α : Type) where
  | null
  | bool (b : Bool)
  | number (n : Numeral)
  | text (s : α)
  | array (items : List (Json α))
  | object (members : List (α × Json α))

/-- A value read from JSON text; string literals that are not sound texts have
none. -/
abbrev RawJson := Json (Option String)

instance {α : Type} : Inhabited (Json α) := ⟨.null⟩

namespace Numeral

def ofNat (n : Nat) : Numeral := { whole := n }

def natural? (n : Numeral) : Option Nat :=
  if !n.negative && n.fraction.isEmpty && n.exponent.isNone then some n.whole else none

def maxWord : Nat := 18446744073709551615

/-- The first number for which the nearest number in double precision would be
infinite. -/
def doubleLimit : Nat := Nat.pow 2 1024 - Nat.pow 2 970

/-- The leading digits of `n` that fit 64 bits, and how many digits follow. -/
def leadingDigits (n : Nat) : Nat × Nat :=
  if n ≤ maxWord then (n, 0)
  else
    let (kept, dropped) := leadingDigits (n / 10)
    (kept, dropped + 1)
termination_by n
decreasing_by
  simp only [maxWord] at *
  omega

/-- Takes up fraction digits as long as the digits fit 64 bits, lowering the
power of ten with each. -/
def takeFraction (digits : Nat) (power : Int) : List (Fin 10) → Nat × Int
  | [] => (digits, power)
  | d :: ds =>
    if digits * 10 + d.val ≤ maxWord then takeFraction (digits * 10 + d.val) (power - 1) ds
    else (digits, power)

/-- The digits of a numeral that count, and the power of ten they are scaled
by. -/
def scaled (n : Numeral) : Nat × Int :=
  let (digits, dropped) := leadingDigits n.whole
  let (digits, power) := takeFraction digits dropped n.fraction
  (digits, power + n.exponent.getD 0)

/-- The nearest number with at most 53 significant bits; a tie goes to the even
neighbour. -/
def roundTo53Bits (n : Nat) : Nat :=
  let unit := Nat.pow 2 (n.log2 + 1 - 53)
  let (q, r) := (n / unit, n % unit)
  if 2 * r > unit || (2 * r == unit && q % 2 == 1) then (q + 1) * unit else q * unit

/-- Whether the numeral is within the range of double-precision numbers.  Digits
and power of ten are rounded first and multiplied then, so the bound applies to
the product of two rounded numbers. -/
def inRange (n : Numeral) : Bool :=
  let (digits, power) := n.scaled
  digits == 0 || power < 0 ||
    (power ≤ 308 &&
      roundTo53Bits digits * roundTo53Bits (Nat.pow 10 power.toNat) < doubleLimit)

end Numeral

namespace Json

def nestsWithin {α : Type} : Nat → Json α → Bool
  | _, .null | _, .bool _ | _, .number _ | _, .text _ => true
  | 0, .array _ | 0, .object _ => false
  | limit + 1, .array items => items.all fun item => item.nestsWithin limit
  | limit + 1, .object members => members.all fun (_, item) => item.nestsWithin limit

/-- The members of an object with each name once: its last value, at the place
where the name occurs last. -/
def lastMembers {α β : Type} [BEq α] : List (α × β) → List (α × β)
  | [] => []
  | (name, value) :: rest =>
    if rest.any (·.1 == name) then lastMembers rest else (name, value) :: lastMembers rest

mutual

/-- The value as a value for general use: all its texts are sound, all its
numbers within range, and of a repeated name only the last member stays. -/
def sound? : RawJson → Option (Json String)
  | .null => some .null
  | .bool b => some (.bool b)
  | .number n => if n.inRange then some (.number n) else none
  | .text s => s.map .text
  | .array items => (soundItems? items).map .array
  | .object members => (soundMembers? members).map fun ms => .object (lastMembers ms)

def soundItems? : List RawJson → Option (List (Json String))
  | [] => some []
  | item :: items => do
    let item ← sound? item
    let items ← soundItems? items
    return item :: items

def soundMembers? : List (Option String × RawJson) → Option (List (String × Json String))
  | [] => some []
  | (name, value) :: members => do
    let name ← name
    let value ← sound? value
    let members ← soundMembers? members
    return (name, value) :: members

end

mutual

/-- The value as it is read back when all its texts are sound. -/
def raw : Json String → RawJson
  | .null => .null
  | .bool b => .bool b
  | .number n => .number n
  | .text s => .text (some s)
  | .array items => .array (rawItems items)
  | .object members => .object (rawMembers members)

def rawItems : List (Json String) → List RawJson
  | [] => []
  | item :: items => raw item :: rawItems items

def rawMembers : List (String × Json String) → List (Option String × RawJson)
  | [] => []
  | (name, value) :: members => (some name, raw value) :: rawMembers members

end

def text? : RawJson → Option String
  | .text s => s
  | _ => none

def natural? {α : Type} (limit : Nat) : Json α → Option Nat
  | .number n => n.natural?.filter (· ≤ limit)
  | _ => none

def word32? {α : Type} (j : Json α) : Option UInt32 :=
  (j.natural? 4294967295).map UInt32.ofNat

end Json

end TaskRelay
