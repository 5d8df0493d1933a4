/-!
# Decimal numbers

Natural numbers as they travel in headers and environment variables: ASCII
digits with at most one plus sign in front, leading zeros allowed, up to a
limit that depends on what the number counts.
-/

namespace TaskRelay.Text

/-- The number that a non-empty row of digits stands for. -/
def digits? (cs : List Char) : Option Nat :=
  if cs ≠ [] ∧ cs.all Char.isDigit then some (Nat.ofDigitChars 10 cs 0) else none

def dropPlus : List Char → List Char
  | '+' :: cs => cs
  | cs => cs

def natural? (limit : Nat) (s : String) : Option Nat :=
  (digits? (dropPlus s.toList)).filter (· ≤ limit)

def word32? (s : String) : Option UInt32 :=
  (natural? 4294967295 s).map UInt32.ofNat

/-- What is written can be read: a 32-bit number comes back from its digits. -/
theorem word32?_repr (n : UInt32) : word32? n.toNat.repr = some n := by
  have hne : Nat.toDigits 10 n.toNat ≠ [] := Nat.toDigits_ne_nil
  have hall : ∀ c ∈ Nat.toDigits 10 n.toNat, c.isDigit = true := fun c hc =>
    Nat.isDigit_of_mem_toDigits (by decide) (by decide) hc
  have hplus : dropPlus (Nat.toDigits 10 n.toNat) = Nat.toDigits 10 n.toNat := by
    cases h : Nat.toDigits 10 n.toNat with
    | nil => rfl
    | cons c cs =>
      have hc : c.isDigit = true := hall c (by simp [h])
      unfold dropPlus
      split
      · next heq =>
        cases heq
        exact absurd hc (by decide)
      · rfl
  have hdigits : digits? (Nat.toDigits 10 n.toNat) = some n.toNat := by
    simp [digits?, hne, List.all_eq_true, Nat.ofDigitChars_ten_toDigits]
    exact hall
  have hn : n.toNat ≤ 4294967295 := by
    have := n.toNat_lt
    omega
  simp [word32?, natural?, Nat.repr, hplus, hdigits, hn, Option.filter]

end TaskRelay.Text
