import TaskRelay.Json.Token
import TaskRelay.Json.Writer

/-!
# Written JSON falls into its tokens

`Json.tokens` are the tokens that a value consists of.  The text of a value, with anything
behind it that no value can go on with, is scanned into exactly these tokens
(`tokensFrom_writeChars`): string literals lose their escapes again, and a numeral ends where the
next comma, bracket or brace begins.
-/

namespace TaskRelay.Json

/-! ## The tokens of a value -/

mutual

/-- The tokens of a value. -/
def tokens : Json String → List Token
  | .null => [.null]
  | .bool b => [.bool b]
  | .number n => [.number n]
  | .text s => [.text (some s)]
  | .array items => .openBracket :: tokensOfItems items ++ [.closeBracket]
  | .object members => .openBrace :: tokensOfMembers members ++ [.closeBrace]

/-- The tokens of the items of an array. -/
def tokensOfItems : List (Json String) → List Token
  | [] => []
  | item :: items => tokens item ++ tokensOfMoreItems items

/-- The tokens of the items of an array after the first. -/
def tokensOfMoreItems : List (Json String) → List Token
  | [] => []
  | item :: items => .comma :: tokens item ++ tokensOfMoreItems items

/-- The tokens of the members of an object. -/
def tokensOfMembers : List (String × Json String) → List Token
  | [] => []
  | (name, value) :: members =>
    .text (some name) :: .colon :: tokens value ++ tokensOfMoreMembers members

/-- The tokens of the members of an object after the first. -/
def tokensOfMoreMembers : List (String × Json String) → List Token
  | [] => []
  | (name, value) :: members =>
    .comma :: .text (some name) :: .colon :: tokens value ++ tokensOfMoreMembers members

end

/-- What can follow a value: nothing, or what separates or closes. -/
def Ends : List Char → Prop
  | [] => True
  | c :: _ => c = ',' ∨ c = ']' ∨ c = '\x7d'

/-! ## Single steps -/

theorem tokensFrom_step {mode : Mode} (tokens : List Token) (next : Mode) {found : List Token}
    {c : Char} {cs : List Char} (h : mode.step c = some (tokens, next)) :
    tokensFrom mode found (c :: cs) = tokensFrom next (tokens.reverse ++ found) cs := by
  rw [tokensFrom, h]

theorem tokensFrom_silent {mode : Mode} (next : Mode) {found : List Token} {c : Char}
    {cs : List Char} (h : mode.step c = some ([], next)) :
    tokensFrom mode found (c :: cs) = tokensFrom next found cs :=
  tokensFrom_step [] next h

theorem tokensFrom_gap {c : Char} (token : Token) (h : Mode.start c = some ([token], .gap))
    (found : List Token) (cs : List Char) :
    tokensFrom .gap found (c :: cs) = tokensFrom .gap (token :: found) cs := by
  have hstep : Mode.gap.step c = some ([token], .gap) := h
  exact tokensFrom_step [token] .gap hstep

/-! ## String literals -/

theorem hexDigit?_hexDigit {n : Nat} (h : n < 16) : hexDigit? (hexDigit n) = some n := by
  revert n
  decide

/-- A control character is written as an escape that is read as the character. -/
theorem tokensFrom_control (t : PartialText) (found : List Token) {c : Char} (h : c.toNat < 0x20)
    (cs : List Char) :
    tokensFrom (.text t) found
      ('\\' :: 'u' :: '0' :: '0' :: hexDigit (c.toNat / 16) :: hexDigit (c.toNat % 16) :: cs) =
        tokensFrom (.text (t.push c)) found cs := by
  have hhigh := hexDigit?_hexDigit (n := c.toNat / 16) (by omega)
  have hlow := hexDigit?_hexDigit (n := c.toNat % 16) (by omega)
  have hcode : (c.toNat / 16) * 16 + c.toNat % 16 = c.toNat := by omega
  have hpush : t.pushCode c.toNat = t.push c := by
    have h₁ : ¬ 0xd800 ≤ c.toNat := by omega
    have h₂ : ¬ 0xdc00 ≤ c.toNat := by omega
    simp [PartialText.pushCode, h₁, h₂]
  rw [tokensFrom_silent (.escape t) rfl, tokensFrom_silent (.unicode t 3 0) rfl,
    tokensFrom_silent (.unicode t 2 0) rfl, tokensFrom_silent (.unicode t 1 0) rfl,
    tokensFrom_silent (.unicode t 0 (c.toNat / 16)) (by simp [Mode.step, hhigh]),
    tokensFrom_silent (.text (t.push c)) (by simp [Mode.step, hlow, hcode, hpush])]

/-- A backslash with a letter is read as the character that they stand for. -/
theorem tokensFrom_escape (t : PartialText) (found : List Token) {letter c : Char}
    (hletter : letter ≠ 'u') (h : Mode.escaped? letter = some c) (cs : List Char) :
    tokensFrom (.text t) found ('\\' :: letter :: cs) = tokensFrom (.text (t.push c)) found cs := by
  rw [tokensFrom_silent (.escape t) rfl]
  refine tokensFrom_silent _ ?_
  simp only [Mode.step]
  rw [if_neg hletter, h]
  rfl

theorem tokensFrom_writeChar (t : PartialText) (found : List Token) (c : Char) (cs : List Char) :
    tokensFrom (.text t) found (writeChar c ++ cs) = tokensFrom (.text (t.push c)) found cs := by
  -- One case for each short escape, then the other controls, then everything else.
  unfold writeChar
  split
  · exact tokensFrom_escape t found (by decide) rfl cs
  · exact tokensFrom_escape t found (by decide) rfl cs
  · exact tokensFrom_escape t found (by decide) rfl cs
  · exact tokensFrom_escape t found (by decide) rfl cs
  · exact tokensFrom_escape t found (by decide) rfl cs
  · exact tokensFrom_escape t found (by decide) rfl cs
  · exact tokensFrom_escape t found (by decide) rfl cs
  · next c hquote hbackslash _ _ _ _ _ =>
    split
    · next hcontrol => exact tokensFrom_control t found hcontrol cs
    · next hplain =>
      refine tokensFrom_silent _ ?_
      simp only [Mode.step]
      rw [if_neg (by simpa using hquote), if_neg (by simpa using hbackslash), if_neg hplain]

/-- The characters of a literal add up, in the order in which they are written. -/
theorem tokensFrom_literal (chars : List Char) (found : List Token) (cs rest : List Char) :
    tokensFrom (.text { chars }) found (cs.flatMap writeChar ++ '"' :: rest) =
      tokensFrom .gap (.text (some (String.ofList (chars.reverse ++ cs))) :: found) rest := by
  induction cs generalizing chars with
  | nil =>
    rw [List.flatMap_nil, List.nil_append, tokensFrom_step [.text (PartialText.finish { chars })]
      .gap rfl]
    simp [PartialText.finish]
  | cons c cs ih =>
    rw [List.flatMap_cons, List.append_assoc, tokensFrom_writeChar]
    have := ih (c :: chars)
    rw [List.reverse_cons, List.append_assoc, List.singleton_append] at this
    exact this

theorem tokensFrom_writeText (found : List Token) (s : String) (rest : List Char) :
    tokensFrom .gap found (writeText s ++ rest) =
      tokensFrom .gap (.text (some s) :: found) rest := by
  have h := tokensFrom_literal [] found s.toList rest
  rw [List.reverse_nil, List.nil_append, String.ofList_toList] at h
  rw [writeText, List.cons_append, List.cons_append, tokensFrom_silent (.text {}) rfl,
    List.append_assoc, List.singleton_append]
  exact h

/-! ## Numerals -/

theorem digit?_digitChar (d : Fin 10) : digit? (Nat.digitChar d.val) = some d := by
  revert d
  decide

/-- A row of digits is read as its number, wherever a first digit begins a number and a further
one goes on with it. -/
theorem tokensFrom_toDigits {mode : Mode} {reached : Nat → Mode}
    (hfirst : ∀ d : Fin 10, mode.step (Nat.digitChar d.val) = some ([], reached d.val))
    (hmore : ∀ n, 0 < n → ∀ d : Fin 10,
      (reached n).step (Nat.digitChar d.val) = some ([], reached (n * 10 + d.val)))
    (n : Nat) (found : List Token) (rest : List Char) :
    tokensFrom mode found (Nat.toDigits 10 n ++ rest) = tokensFrom (reached n) found rest := by
  induction n using Nat.strongRecOn generalizing rest with
  | _ n ih =>
    by_cases hn : n < 10
    · rw [Nat.toDigits_of_lt_base hn]
      exact tokensFrom_silent _ (hfirst ⟨n, hn⟩)
    · rw [Nat.toDigits_of_base_le (by decide) (by omega), List.append_assoc, ih (n / 10) (by omega)]
      have h := hmore (n / 10) (by omega) ⟨n % 10, Nat.mod_lt _ (by decide)⟩
      have hsum : n / 10 * 10 + n % 10 = n := by omega
      rw [hsum] at h
      exact tokensFrom_silent _ h

theorem step_number {p next : PartialNumber} {c : Char} (h : p.push? c = some next) :
    (Mode.number p).step c = some ([], .number next) := by
  simp [Mode.step, h]

theorem push?_digitChar {p next : PartialNumber} {d : Fin 10} (h : p.pushDigit? d = some next) :
    p.push? (Nat.digitChar d.val) = some next := by
  simp [PartialNumber.push?, digit?_digitChar, h]

/-- The digits before the point, after a minus sign or without one. -/
theorem tokensFrom_whole (negative : Bool) (n : Nat) (found : List Token) (rest : List Char) :
    tokensFrom .gap found ((if negative then ['-'] else []) ++ Nat.toDigits 10 n ++ rest) =
      tokensFrom (.number (.whole negative n)) found rest := by
  have hmore : ∀ n, 0 < n → ∀ d : Fin 10, (Mode.number (.whole negative n)).step
      (Nat.digitChar d.val) = some ([], .number (.whole negative (n * 10 + d.val))) := by
    intro n hn d
    refine step_number (push?_digitChar ?_)
    simp [PartialNumber.pushDigit?, Nat.pos_iff_ne_zero.1 hn]
  cases negative with
  | false =>
    rw [if_neg (by decide), List.nil_append]
    refine tokensFrom_toDigits (fun d => ?_) hmore n found rest
    revert d
    decide
  | true =>
    rw [if_pos rfl, List.append_assoc, List.singleton_append,
      tokensFrom_silent (.number .sign) rfl]
    exact tokensFrom_toDigits (fun d => step_number (push?_digitChar rfl)) hmore n found rest

/-- The digits after the point, of which `read` have been read. -/
theorem tokensFrom_fraction (negative : Bool) (n : Nat) (found : List Token)
    (read ds : List (Fin 10)) (rest : List Char) :
    tokensFrom (.number (.fraction negative n read)) found
        (ds.map (fun d => Nat.digitChar d.val) ++ rest) =
      tokensFrom (.number (.fraction negative n (ds.reverse ++ read))) found rest := by
  induction ds generalizing read with
  | nil => rfl
  | cons d ds ih =>
    rw [List.map_cons, List.cons_append, tokensFrom_silent _ (step_number (push?_digitChar rfl)), ih,
      List.reverse_cons, List.append_assoc, List.singleton_append]

/-- The exponent, behind anything that may stand before one. -/
theorem tokensFrom_writeExponent {p : PartialNumber} {base : Numeral} (hbase : p.base? = some base)
    (hpush : p.push? 'e' = some (.mark base)) (hplain : base.exponent = none)
    (exponent : Option Int) (found : List Token) (rest : List Char) :
    ∃ q : PartialNumber, q.finish? = some { base with exponent } ∧
      tokensFrom (.number p) found (writeExponent exponent ++ rest) =
        tokensFrom (.number q) found rest := by
  have hmore : ∀ negative n, 0 < n → ∀ d : Fin 10, (Mode.number (.exponent base negative n)).step
      (Nat.digitChar d.val) = some ([], .number (.exponent base negative (n * 10 + d.val))) :=
    fun _ _ _ _ => step_number (push?_digitChar rfl)
  match exponent with
  | none =>
    refine ⟨p, ?_, rfl⟩
    cases p <;> simp_all [PartialNumber.finish?, PartialNumber.base?]
    all_goals subst hbase; rfl
  | some (.ofNat n) =>
    refine ⟨.exponent base false n, rfl, ?_⟩
    rw [writeExponent, List.cons_append, tokensFrom_silent _ (step_number hpush)]
    exact tokensFrom_toDigits (fun d => step_number (push?_digitChar rfl)) (hmore false) n found rest
  | some (.negSucc n) =>
    refine ⟨.exponent base true (n + 1), rfl, ?_⟩
    rw [writeExponent, List.cons_append, List.cons_append, tokensFrom_silent _ (step_number hpush),
      tokensFrom_silent (.number (.exponentSign base true)) (step_number rfl)]
    exact tokensFrom_toDigits (fun d => step_number (push?_digitChar rfl)) (hmore true) (n + 1)
      found rest

/-- A number ends where something begins that can follow a value. -/
theorem tokensFrom_number_ends {p : PartialNumber} {n : Numeral} (h : p.finish? = some n)
    (found : List Token) {rest : List Char} (hrest : Ends rest) :
    tokensFrom (.number p) found rest = tokensFrom .gap (.number n :: found) rest := by
  cases rest with
  | nil => simp [tokensFrom, Mode.finish?, h]
  | cons c rest =>
    have hpush : p.push? c = none := by
      rcases hrest with rfl | rfl | rfl <;> cases p <;> rfl
    have hstart : ∃ token, Mode.start c = some ([token], .gap) := by
      rcases hrest with rfl | rfl | rfl
      · exact ⟨.comma, rfl⟩
      · exact ⟨.closeBracket, rfl⟩
      · exact ⟨.closeBrace, rfl⟩
    obtain ⟨token, htoken⟩ := hstart
    rw [tokensFrom_gap token htoken, tokensFrom_step [.number n, token] .gap]
    · rfl
    · simp [Mode.step, hpush, h, htoken]

theorem tokensFrom_writeNumeral (found : List Token) (n : Numeral) {rest : List Char}
    (hrest : Ends rest) :
    tokensFrom .gap found (writeNumeral n ++ rest) = tokensFrom .gap (.number n :: found) rest := by
  obtain ⟨negative, whole, fraction, exponent⟩ := n
  have hwhole := tokensFrom_whole negative whole found
    (writeFraction fraction ++ (writeExponent exponent ++ rest))
  rw [writeNumeral, List.append_assoc, List.append_assoc, hwhole]
  cases fraction with
  | nil =>
    obtain ⟨q, hq, hscan⟩ := tokensFrom_writeExponent (p := .whole negative whole) rfl rfl rfl
      exponent found rest
    rw [writeFraction, List.nil_append, hscan]
    exact tokensFrom_number_ends hq found hrest
  | cons d ds =>
    obtain ⟨q, hq, hscan⟩ := tokensFrom_writeExponent
      (p := .fraction negative whole (ds.reverse ++ [d])) rfl rfl rfl exponent found rest
    have hfinish : q.finish? = some { negative, whole, fraction := d :: ds, exponent } := by
      simpa using hq
    rw [writeFraction, List.cons_append,
      tokensFrom_silent (.number (.point negative whole)) (step_number rfl), List.map_cons,
      List.cons_append,
      tokensFrom_silent (.number (.fraction negative whole [d])) (step_number (push?_digitChar rfl)),
      tokensFrom_fraction, hscan]
    exact tokensFrom_number_ends hfinish found hrest

/-! ## Values -/

theorem ends_writeMoreItems (items : List (Json String)) {rest : List Char} (hrest : Ends rest) :
    Ends (writeMoreItems items ++ rest) := by
  cases items with
  | nil => exact hrest
  | cons item items => exact .inl rfl

theorem ends_writeMoreMembers (members : List (String × Json String)) {rest : List Char}
    (hrest : Ends rest) : Ends (writeMoreMembers members ++ rest) := by
  cases members with
  | nil => exact hrest
  | cons member members => exact .inl rfl

mutual

/-- **The text of a value is scanned into the tokens of the value**, whatever follows it that can
follow a value. -/
theorem tokensFrom_writeChars (j : Json String) (found : List Token) {rest : List Char}
    (hrest : Ends rest) :
    tokensFrom .gap found (j.writeChars ++ rest) =
      tokensFrom .gap (j.tokens.reverse ++ found) rest := by
  match j with
  | .null => rfl
  | .bool true => rfl
  | .bool false => rfl
  | .number n =>
    rw [writeChars]
    exact tokensFrom_writeNumeral found n hrest
  | .text s =>
    rw [writeChars]
    exact tokensFrom_writeText found s rest
  | .array items =>
    have hclose : Ends (']' :: rest) := .inr (.inl rfl)
    rw [writeChars, List.cons_append, List.cons_append, List.append_assoc, List.singleton_append,
      tokensFrom_gap .openBracket rfl,
      tokensFrom_writeItems items _ hclose,
      tokensFrom_gap .closeBracket rfl]
    simp [tokens]
  | .object members =>
    have hclose : Ends ('\x7d' :: rest) := .inr (.inr rfl)
    rw [writeChars, List.cons_append, List.cons_append, List.append_assoc, List.singleton_append,
      tokensFrom_gap .openBrace rfl,
      tokensFrom_writeMembers members _ hclose,
      tokensFrom_gap .closeBrace rfl]
    simp [tokens]

theorem tokensFrom_writeItems (items : List (Json String)) (found : List Token)
    {rest : List Char} (hrest : Ends rest) :
    tokensFrom .gap found (writeItems items ++ rest) =
      tokensFrom .gap ((tokensOfItems items).reverse ++ found) rest := by
  match items with
  | [] => rfl
  | item :: items =>
    rw [writeItems, List.append_assoc,
      tokensFrom_writeChars item found (ends_writeMoreItems items hrest),
      tokensFrom_writeMoreItems items _ hrest, tokensOfItems, List.reverse_append,
      List.append_assoc]

theorem tokensFrom_writeMoreItems (items : List (Json String)) (found : List Token)
    {rest : List Char} (hrest : Ends rest) :
    tokensFrom .gap found (writeMoreItems items ++ rest) =
      tokensFrom .gap ((tokensOfMoreItems items).reverse ++ found) rest := by
  match items with
  | [] => rfl
  | item :: items =>
    rw [writeMoreItems, List.cons_append, List.cons_append, List.append_assoc,
      tokensFrom_gap .comma rfl,
      tokensFrom_writeChars item _ (ends_writeMoreItems items hrest),
      tokensFrom_writeMoreItems items _ hrest]
    simp [tokensOfMoreItems]

theorem tokensFrom_writeMembers (members : List (String × Json String)) (found : List Token)
    {rest : List Char} (hrest : Ends rest) :
    tokensFrom .gap found (writeMembers members ++ rest) =
      tokensFrom .gap ((tokensOfMembers members).reverse ++ found) rest := by
  match members with
  | [] => rfl
  | (name, value) :: members =>
    simp only [writeMembers, List.append_assoc, List.cons_append]
    rw [tokensFrom_writeText, tokensFrom_gap .colon rfl,
      tokensFrom_writeChars value _ (ends_writeMoreMembers members hrest),
      tokensFrom_writeMoreMembers members _ hrest]
    simp [tokensOfMembers]

theorem tokensFrom_writeMoreMembers (members : List (String × Json String)) (found : List Token)
    {rest : List Char} (hrest : Ends rest) :
    tokensFrom .gap found (writeMoreMembers members ++ rest) =
      tokensFrom .gap ((tokensOfMoreMembers members).reverse ++ found) rest := by
  match members with
  | [] => rfl
  | (name, value) :: members =>
    simp only [writeMoreMembers, List.append_assoc, List.cons_append]
    rw [tokensFrom_gap .comma rfl, tokensFrom_writeText,
      tokensFrom_gap .colon rfl,
      tokensFrom_writeChars value _ (ends_writeMoreMembers members hrest),
      tokensFrom_writeMoreMembers members _ hrest]
    simp [tokensOfMoreMembers]

end

/-- The tokens of the text of a value. -/
theorem tokens?_writeChars (j : Json String) : tokens? j.writeChars = some j.tokens := by
  have hend : Ends [] := trivial
  have h := tokensFrom_writeChars j [] hend
  rw [List.append_nil, List.append_nil] at h
  rw [tokens?, h]
  simp [tokensFrom, Mode.finish?]

end TaskRelay.Json
