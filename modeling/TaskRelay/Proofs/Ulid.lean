import Mathlib.Algebra.Group.Int.Defs
import Mathlib.Algebra.Group.Nat.Defs
import TaskRelay.Proofs.Json.RoundTrip
import TaskRelay.Ulid

/-!
# Ids sort by creation

Rows of symbols of one length are in the order of the numbers they stand for, because the alphabet
rises (`symbols_lt_symbols_iff`), and reading a row gives its number back (`ofSymbols?_symbols`).  All
that is said about texts of ids comes from these two facts and from the bound on the number, which
leaves the first symbol only three bits.
-/

namespace TaskRelay.Ulid

/-! ## Symbols -/

theorem pairwise_alphabet : alphabet.Pairwise (· < ·) := by decide

theorem symbol_lt_symbol {m n : Nat} (hmn : m < n) (hn : n < 32) : symbol m < symbol n := by
  have hn' : n < alphabet.length := hn
  have hm' : m < alphabet.length := Nat.lt_trans hmn hn
  rw [symbol, symbol, List.getD_eq_getElem?_getD, List.getD_eq_getElem?_getD,
    List.getElem?_eq_getElem hm', List.getElem?_eq_getElem hn']
  exact List.pairwise_iff_getElem.1 pairwise_alphabet m n hm' hn' hmn

theorem symbol_lt_symbol_iff {m n : Nat} (hm : m < 32) (hn : n < 32) :
    symbol m < symbol n ↔ m < n := by
  refine ⟨fun hlt => ?_, fun hmn => symbol_lt_symbol hmn hn⟩
  rcases Nat.lt_trichotomy m n with hmn | rfl | hnm
  · exact hmn
  · exact absurd hlt (Char.lt_irrefl _)
  · exact absurd hlt (Char.lt_asymm (symbol_lt_symbol hnm hm))

theorem symbolValue?_symbol {n : Nat} (h : n < 32) : symbolValue? (symbol n) = some n := by
  have hall : ∀ d : Fin 32, symbolValue? (symbol d.val) = some d.val := by decide
  exact hall ⟨n, h⟩

/-! ## Rows of symbols -/

theorem length_symbols (n length : Nat) : (symbols n length).length = length := by
  induction length generalizing n with
  | zero => rfl
  | succ length ih => rw [symbols, List.length_append, ih, List.length_singleton]

/-- Of rows of the same length, the last symbol counts only where the rest is equal. -/
theorem append_singleton_lt_iff {xs ys : List Char} {c d : Char} (h : xs.length = ys.length) :
    xs ++ [c] < ys ++ [d] ↔ xs < ys ∨ xs = ys ∧ c < d := by
  induction xs generalizing ys with
  | nil =>
    obtain rfl : ys = [] := List.length_eq_zero_iff.1 h.symm
    simp [List.cons_lt_cons_iff]
  | cons x xs ih =>
    cases ys with
    | nil => cases h
    | cons y ys =>
      rw [List.cons_append, List.cons_append, List.cons_lt_cons_iff, List.cons_lt_cons_iff,
        ih (Nat.succ.inj h), List.cons.injEq, and_or_left, or_assoc, and_assoc]

/-- Rows of symbols are in the order of their numbers, as long as the numbers have no more digits. -/
theorem symbols_lt_symbols_iff {m n length : Nat} (hm : m < 32 ^ length) (hn : n < 32 ^ length) :
    symbols m length < symbols n length ↔ m < n := by
  induction length generalizing m n with
  | zero =>
    obtain rfl : m = 0 := Nat.lt_one_iff.1 hm
    obtain rfl : n = 0 := Nat.lt_one_iff.1 hn
    simp [symbols]
  | succ length ih =>
    have hm' : m / 32 < 32 ^ length := Nat.div_lt_of_lt_mul (by rwa [Nat.pow_succ'] at hm)
    have hn' : n / 32 < 32 ^ length := Nat.div_lt_of_lt_mul (by rwa [Nat.pow_succ'] at hn)
    have heq : symbols (m / 32) length = symbols (n / 32) length ↔ m / 32 = n / 32 := by
      refine ⟨fun heq => ?_, fun heq => by rw [heq]⟩
      -- the order of the rows is that of the numbers, so equal rows leave no order between these
      have hlt := (not_congr (ih hm' hn')).1 (heq ▸ List.lt_irrefl _)
      have hgt := (not_congr (ih hn' hm')).1 (heq ▸ List.lt_irrefl _)
      omega
    have hlength : (symbols (m / 32) length).length = (symbols (n / 32) length).length := by
      rw [length_symbols, length_symbols]
    have hlast := symbol_lt_symbol_iff (Nat.mod_lt m (by decide)) (Nat.mod_lt n (by decide))
    rw [symbols, symbols, append_singleton_lt_iff hlength, ih hm' hn', heq, hlast]
    omega

theorem ofSymbols?_append_singleton (n : Nat) (cs : List Char) (c : Char) :
    ofSymbols? n (cs ++ [c]) =
      (ofSymbols? n cs).bind fun m => (symbolValue? c).map (m * 32 + ·) := by
  induction cs generalizing n with
  | nil =>
    simp only [List.nil_append, ofSymbols?, Option.bind_some]
    cases symbolValue? c <;> rfl
  | cons first cs ih =>
    simp only [List.cons_append, ofSymbols?]
    cases symbolValue? first with
    | none => rfl
    | some d => exact ih _

/-- Reading a row of symbols gives its number back, behind what has been read before. -/
theorem ofSymbols?_symbols (start : Nat) {n length : Nat} (h : n < 32 ^ length) :
    ofSymbols? start (symbols n length) = some (start * 32 ^ length + n) := by
  induction length generalizing n with
  | zero =>
    obtain rfl : n = 0 := Nat.lt_one_iff.1 h
    simp [symbols, ofSymbols?]
  | succ length ih =>
    have hdiv : n / 32 < 32 ^ length := Nat.div_lt_of_lt_mul (by rwa [Nat.pow_succ'] at h)
    rw [symbols, ofSymbols?_append_singleton, ih hdiv, Option.bind_some,
      symbolValue?_symbol (Nat.mod_lt n (by decide)), Option.map_some, Nat.pow_succ, Nat.add_mul,
      ← Nat.mul_assoc]
    congr 1
    omega

/-! ## Texts -/

/-- A number of 128 bits has at most 26 symbols. -/
theorem value_lt_pow (u : Ulid) : u.value < 32 ^ textLength :=
  Nat.lt_trans u.value_lt (by decide)

theorem text_lt_text_iff {a b : Ulid} : a.text < b.text ↔ a.value < b.value := by
  rw [String.lt_iff, text, text, String.toList_ofList, String.toList_ofList]
  exact symbols_lt_symbols_iff a.value_lt_pow b.value_lt_pow

/-- What stands in front of both texts does not matter. -/
theorem append_lt_append_iff (front s t : String) : front ++ s < front ++ t ↔ s < t := by
  rw [String.lt_iff, String.lt_iff, String.toList_append, String.toList_append]
  induction front.toList with
  | nil => rfl
  | cons c cs ih => rw [List.cons_append, List.cons_append, List.cons_lt_cons_self, ih]

theorem correlationId_lt_iff {a b : Ulid} :
    a.correlationId < b.correlationId ↔ a.value < b.value := by
  rw [correlationId, correlationId, append_lt_append_iff, text_lt_text_iff]

theorem batchId_lt_iff {a b : Ulid} : a.batchId < b.batchId ↔ a.value < b.value := by
  rw [batchId, batchId, append_lt_append_iff, text_lt_text_iff]

/-- Whatever texts sort as the numbers do, they are different for different ids. -/
theorem ne_of_lt_iff {f : Ulid → String} (hf : ∀ {a b}, f a < f b ↔ a.value < b.value) {a b : Ulid}
    (h : a ≠ b) : f a ≠ f b := by
  intro heq
  have hab : ¬ a.value < b.value := (not_congr hf).1 (heq ▸ String.lt_irrefl _)
  have hba : ¬ b.value < a.value := (not_congr hf).1 (heq ▸ String.lt_irrefl _)
  obtain ⟨m, hm⟩ := a
  obtain ⟨n, hn⟩ := b
  obtain rfl : m = n := Nat.le_antisymm (Nat.not_lt.1 hba) (Nat.not_lt.1 hab)
  exact h rfl

theorem ofNat_value (u : Ulid) : ofNat u.value = u := by
  obtain ⟨n, hn⟩ := u
  have hmod : n % (1 <<< 128) = n := Nat.mod_eq_of_lt hn
  simp only [ofNat, hmod]

theorem ofText?_text (u : Ulid) : ofText? u.text = some u := by
  have hlength : u.text.length = textLength := by
    rw [text, String.length_ofList, length_symbols]
  rw [ofText?, if_pos hlength, text, String.toList_ofList, ofSymbols?_symbols 0 u.value_lt_pow,
    Nat.zero_mul, Nat.zero_add, Option.map_some, ofNat_value]

theorem decode?_encode (u : Ulid) : decode? u.encode = some u := by
  rw [decode?, encode, Json.read?_write, Option.bind_some, toJson, Json.raw, ofJson?, Json.text?,
    Option.bind_some, ofText?_text]

/-! ## Times -/

theorem millis_ofParts (millis random : Nat) : (ofParts millis random).millis = millis % 2 ^ 48 := by
  simp only [ofParts, Ulid.millis, Nat.shiftLeft_eq, Nat.shiftRight_eq_div_pow, Nat.reducePow]
  omega

/-- Of ids of different times the number of the earlier one is smaller, whatever comes after the
time. -/
theorem value_lt_of_millis_lt {a b : Ulid} (h : a.millis < b.millis) : a.value < b.value := by
  simp only [millis, Nat.shiftRight_eq_div_pow] at h
  omega

theorem value_ofClock_lt {earlier later : Int} (hearlier : 0 ≤ earlier) (hlt : earlier < later)
    (hlater : later < 2 ^ 48) (random random' : Nat) :
    (ofClock earlier random).value < (ofClock later random').value := by
  apply value_lt_of_millis_lt
  rw [ofClock, ofClock, millis_ofParts, millis_ofParts]
  omega

theorem millis_ofClock_of_neg {millis : Int} (h : millis < 0) (random : Nat) :
    (ofClock millis random).millis = 0 := by
  rw [ofClock, millis_ofParts, Int.toNat_of_nonpos (Int.le_of_lt h), Nat.zero_mod]

/-- **Ids sort by creation.**  Ids, the correlation ids and the batch ids made of them are in the same
order, different ids have different texts, and an id is read from its JSON as it was.  Hence ids of
different times on the clock sort by these times, as long as they are in the range of 48 bits, and all
times before 1970 count as 1970. -/
theorem sorts_by_creation :
    (∀ a b : Ulid,
      (a.value < b.value ↔ a.correlationId < b.correlationId) ∧
      (a.correlationId < b.correlationId ↔ a.batchId < b.batchId) ∧
      (a ≠ b → a.correlationId ≠ b.correlationId ∧ a.batchId ≠ b.batchId)) ∧
    (∀ u : Ulid, decode? u.encode = some u) ∧
    (∀ (earlier later : Int) (random random' : Nat), 0 ≤ earlier → earlier < later →
      later < 2 ^ 48 →
      (ofClock earlier random).value < (ofClock later random').value ∧
      (ofClock earlier random).correlationId < (ofClock later random').correlationId ∧
      (ofClock earlier random).batchId < (ofClock later random').batchId) ∧
    ∀ (millis : Int) (random : Nat), millis < 0 → (ofClock millis random).millis = 0 := by
  refine ⟨fun a b => ⟨correlationId_lt_iff.symm, ?_, fun hne => ?_⟩, decode?_encode, ?_, ?_⟩
  · rw [correlationId_lt_iff, batchId_lt_iff]
  · exact ⟨ne_of_lt_iff correlationId_lt_iff hne, ne_of_lt_iff batchId_lt_iff hne⟩
  · intro earlier later random random' hearlier hlt hlater
    have hvalue := value_ofClock_lt hearlier hlt hlater random random'
    exact ⟨hvalue, correlationId_lt_iff.2 hvalue, batchId_lt_iff.2 hvalue⟩
  · exact fun millis random hneg => millis_ofClock_of_neg hneg random

/-- Two neighbouring milliseconds at the end of the range, the earlier one with the greatest random
part and the later one with none, and a time before 1970. -/
theorem sorts_by_creation_lastMillisecond :
    (ofClock (2 ^ 48 - 2) (2 ^ 80 - 1)).batchId < (ofClock (2 ^ 48 - 1) 0).batchId ∧
      (ofClock (2 ^ 48 - 2) (2 ^ 80 - 1)).correlationId ≠
        (ofClock (2 ^ 48 - 1) 0).correlationId ∧
      decode? (ofClock (-1) 5).encode = some (ofClock (-1) 5) ∧ (ofClock (-1) 5).millis = 0 := by
  obtain ⟨hall, hread, hclock, hnegative⟩ := sorts_by_creation
  have hlt := hclock (2 ^ 48 - 2) (2 ^ 48 - 1) (2 ^ 80 - 1) 0 (by decide) (by decide) (by decide)
  have hne : ofClock (2 ^ 48 - 2) (2 ^ 80 - 1) ≠ ofClock (2 ^ 48 - 1) 0 := fun heq =>
    Nat.lt_irrefl _ (heq ▸ hlt.1)
  exact ⟨hlt.2.2, ((hall _ _).2.2 hne).1, hread _, hnegative (-1) 5 (by decide)⟩

end TaskRelay.Ulid
