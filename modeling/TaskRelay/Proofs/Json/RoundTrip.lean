import TaskRelay.Json.Reader
import TaskRelay.Proofs.Json.Lexing

/-!
# Written JSON is read back

The machine that builds a value out of tokens, wherever it wants a value, comes behind the tokens
of a value with just that value in hand (`ofTokensFrom?_tokens`).  Since the text of a value falls
into these tokens, reading a written value gives the value (`read?_write`).  What is read back has
every text sound and every number as it was, so a value within the bounds of general use is itself
again (`sound?_raw`).
-/

namespace TaskRelay.Json

/-! ## Tokens to values -/

theorem ofTokensFrom?_step {reading : Reading} (next : Reading) {token : Token}
    {tokens : List Token} (h : reading.step token = some next) :
    ofTokensFrom? reading (token :: tokens) = ofTokensFrom? next tokens := by
  rw [ofTokensFrom?, h]

mutual

/-- The tokens of a value, read where a value is wanted, make the value. -/
theorem ofTokensFrom?_tokens (j : Json String) (stack : List Frame) (rest : List Token) :
    ofTokensFrom? (stack, .value) (j.tokens ++ rest) =
      ofTokensFrom? (stack, .after j.raw) rest := by
  match j with
  | .null => exact ofTokensFrom?_step _ (by cases stack <;> rfl)
  | .bool b => exact ofTokensFrom?_step _ (by cases stack <;> rfl)
  | .number n => exact ofTokensFrom?_step _ (by cases stack <;> rfl)
  | .text s => exact ofTokensFrom?_step _ (by cases stack <;> rfl)
  | .array [] =>
    simp only [tokens, tokensOfItems, List.cons_append, List.nil_append]
    rw [ofTokensFrom?_step (.array [] :: stack, .value) (by cases stack <;> rfl)]
    exact ofTokensFrom?_step _ rfl
  | .array (item :: items) =>
    simp only [tokens, tokensOfItems, List.cons_append, List.append_assoc, List.nil_append]
    rw [ofTokensFrom?_step (.array [] :: stack, .value) (by cases stack <;> rfl),
      ofTokensFrom?_tokens item, ofTokensFrom?_tokensOfMoreItems items]
    rfl
  | .object [] =>
    simp only [tokens, tokensOfMembers, List.cons_append, List.nil_append]
    rw [ofTokensFrom?_step (stack, .name []) (by cases stack <;> rfl)]
    exact ofTokensFrom?_step _ (by cases stack <;> rfl)
  | .object ((name, value) :: members) =>
    simp only [tokens, tokensOfMembers, List.cons_append, List.append_assoc, List.nil_append]
    rw [ofTokensFrom?_step (stack, .name []) (by cases stack <;> rfl),
      ofTokensFrom?_step (stack, .colon [] (some name)) (by cases stack <;> rfl),
      ofTokensFrom?_step (.object [] (some name) :: stack, .value) 
        (by cases stack <;> rfl),
      ofTokensFrom?_tokens value, ofTokensFrom?_tokensOfMoreMembers members]
    rfl

/-- The items after the first, up to the end of the array; `read` are the items before. -/
theorem ofTokensFrom?_tokensOfMoreItems (items : List (Json String)) (stack : List Frame)
    (read : List RawJson) (item : RawJson) (rest : List Token) :
    ofTokensFrom? (.array read :: stack, .after item)
        (tokensOfMoreItems items ++ .closeBracket :: rest) =
      ofTokensFrom? (stack, .after (.array (read.reverse ++ item :: rawItems items))) rest := by
  match items with
  | [] =>
    simp only [tokensOfMoreItems, rawItems, List.nil_append]
    rw [ofTokensFrom?_step (stack, .after (.array (item :: read).reverse)) rfl,
      List.reverse_cons]
  | next :: items =>
    simp only [tokensOfMoreItems, List.cons_append, List.append_assoc]
    rw [ofTokensFrom?_step (.array (item :: read) :: stack, .value) rfl,
      ofTokensFrom?_tokens next, ofTokensFrom?_tokensOfMoreItems items]
    simp only [rawItems, List.reverse_cons, List.append_assoc, List.singleton_append]

/-- The members after the first, up to the end of the object; `read` are the members before. -/
theorem ofTokensFrom?_tokensOfMoreMembers (members : List (String × Json String))
    (stack : List Frame) (read : List (Option String × RawJson)) (name : Option String)
    (value : RawJson) (rest : List Token) :
    ofTokensFrom? (.object read name :: stack, .after value)
        (tokensOfMoreMembers members ++ .closeBrace :: rest) =
      ofTokensFrom? (stack, .after (.object (read.reverse ++ (name, value) :: rawMembers members)))
        rest := by
  match members with
  | [] =>
    simp only [tokensOfMoreMembers, rawMembers, List.nil_append]
    rw [ofTokensFrom?_step (stack, .after (.object ((name, value) :: read).reverse)) rfl,
      List.reverse_cons]
  | (next, inner) :: members =>
    simp only [tokensOfMoreMembers, List.cons_append, List.append_assoc]
    rw [ofTokensFrom?_step (stack, .name ((name, value) :: read)) (by cases stack <;> rfl),
      ofTokensFrom?_step (stack, .colon ((name, value) :: read) (some next)) 
        (by cases stack <;> rfl),
      ofTokensFrom?_step (.object ((name, value) :: read) (some next) :: stack, .value) 
        (by cases stack <;> rfl),
      ofTokensFrom?_tokens inner, ofTokensFrom?_tokensOfMoreMembers members]
    simp only [rawMembers, List.reverse_cons, List.append_assoc, List.singleton_append]

end

/-- **Reading the text of a value gives the value.** -/
theorem read?_write (j : Json String) : read? j.write = some j.raw := by
  have h := ofTokensFrom?_tokens j [] []
  rw [List.append_nil] at h
  rw [read?, write, String.toList_ofList, tokens?_writeChars, Option.bind_some, ofTokens?, h]
  rfl

/-! ## Values for general use -/

theorem rawItems_eq_map (items : List (Json String)) : rawItems items = items.map raw := by
  induction items with
  | nil => rfl
  | cons item items ih => rw [rawItems, ih, List.map_cons]

theorem rawMembers_eq_map (members : List (String × Json String)) :
    rawMembers members = members.map fun m => (some m.1, m.2.raw) := by
  induction members with
  | nil => rfl
  | cons m members ih =>
    obtain ⟨name, value⟩ := m
    rw [rawMembers, ih, List.map_cons]

/-- Members with different names stay as they are. -/
theorem lastMembers_of_nodup {α β : Type} [BEq α] [LawfulBEq α] {members : List (α × β)}
    (h : (members.map Prod.fst).Nodup) : lastMembers members = members := by
  induction members with
  | nil => rfl
  | cons m members ih =>
    obtain ⟨name, value⟩ := m
    rw [List.map_cons, List.nodup_cons] at h
    have habsent : members.any (fun other => other.1 == name) = false := by
      rw [List.any_eq_false]
      intro other hother heq
      exact h.1 (List.mem_map.2 ⟨other, hother, eq_of_beq heq⟩)
    rw [lastMembers, habsent, if_neg (by decide), ih h.2]

mutual

/-- The value is within the bounds of general use: its numbers are within range, and no object
repeats a name. -/
def IsSound : Json String → Prop
  | .null | .bool _ | .text _ => True
  | .number n => n.inRange = true
  | .array items => AreSound items
  | .object members => (members.map Prod.fst).Nodup ∧ MembersAreSound members

def AreSound : List (Json String) → Prop
  | [] => True
  | item :: items => IsSound item ∧ AreSound items

def MembersAreSound : List (String × Json String) → Prop
  | [] => True
  | (_, value) :: members => IsSound value ∧ MembersAreSound members

end

mutual

/-- A value within the bounds of general use is read back as itself. -/
theorem sound?_raw {j : Json String} (h : j.IsSound) : j.raw.sound? = some j := by
  match j, h with
  | .null, _ => rfl
  | .bool _, _ => rfl
  | .text _, _ => rfl
  | .number n, h =>
    have hrange : n.inRange = true := h
    rw [raw, sound?, if_pos hrange]
  | .array items, h =>
    rw [raw, sound?, soundItems?_rawItems h]
    rfl
  | .object members, h =>
    rw [raw, sound?, soundMembers?_rawMembers h.2, Option.map_some, lastMembers_of_nodup h.1]

theorem soundItems?_rawItems {items : List (Json String)} (h : AreSound items) :
    soundItems? (rawItems items) = some items := by
  match items, h with
  | [], _ => rfl
  | item :: items, h =>
    rw [rawItems, soundItems?, sound?_raw h.1, soundItems?_rawItems h.2]
    rfl

theorem soundMembers?_rawMembers {members : List (String × Json String)}
    (h : MembersAreSound members) : soundMembers? (rawMembers members) = some members := by
  match members, h with
  | [], _ => rfl
  | (name, value) :: members, h =>
    rw [rawMembers, soundMembers?, sound?_raw h.1, soundMembers?_rawMembers h.2]
    rfl

end

/-! ## Small numbers -/

/-- A number with at most 53 bits needs no rounding. -/
theorem roundTo53Bits_of_lt {n : Nat} (h : n < Nat.pow 2 53) : Numeral.roundTo53Bits n = n := by
  have hlog : n.log2 + 1 - 53 = 0 := by
    by_cases hn : n = 0
    · subst hn
      decide
    · have : n.log2 < 53 := (Nat.log2_lt hn).2 h
      omega
  simp [Numeral.roundTo53Bits, hlog, Nat.mod_one]

/-- A 32-bit number is within range. -/
theorem inRange_ofNat {n : Nat} (h : n < Nat.pow 2 32) : (Numeral.ofNat n).inRange = true := by
  have hword : n ≤ Numeral.maxWord := by
    have : Nat.pow 2 32 ≤ Numeral.maxWord := by decide
    omega
  have hround : Numeral.roundTo53Bits n = n := roundTo53Bits_of_lt (by
    have : Nat.pow 2 32 ≤ Nat.pow 2 53 := by decide
    omega)
  have hone : Numeral.roundTo53Bits 1 = 1 := roundTo53Bits_of_lt (by decide)
  have hlimit : n < Numeral.doubleLimit := by
    have : Nat.pow 2 32 ≤ Numeral.doubleLimit := by decide +kernel
    omega
  have hscaled : (Numeral.ofNat n).scaled = (n, 0) := by
    rw [Numeral.scaled, Numeral.ofNat]
    simp only
    rw [Numeral.leadingDigits, if_pos hword]
    rfl
  rw [Numeral.inRange, hscaled]
  simp [hround, hone, hlimit]

end TaskRelay.Json
