import TaskRelay.Proofs.Time.Calendar
import TaskRelay.Time.Rfc3339

/-!
# Written instants are read back

Each piece of a written instant is read by its reader, which leaves what comes after it: a number by
its digits, whose row ends where the width does or where another character comes
(`readDigits?_append`), the year with or without a sign, and the fraction by as many digits as it has.
What the pieces make together is the instant again (`read?_write`).
-/

namespace TaskRelay.Instant

/-! ## Numbers -/

section padded

variable {width n : Nat}

theorem isDigit_of_mem_padded {c : Char} (h : c ∈ padded width n) : c.isDigit = true := by
  rcases List.mem_append.1 h with hzero | hdigit
  · rw [List.eq_of_mem_replicate hzero]
    decide
  · exact Nat.isDigit_of_mem_toDigits (by decide) (by decide) hdigit

theorem padded_ne_nil : padded width n ≠ [] := by
  simp [padded, Nat.toDigits_ne_nil]

theorem exists_padded_eq_cons (width n : Nat) :
    ∃ c cs, padded width n = c :: cs ∧ c.isDigit = true := by
  cases h : padded width n with
  | nil => exact absurd h padded_ne_nil
  | cons c cs =>
    have hmem : c ∈ padded width n := by simp [h]
    exact ⟨c, cs, rfl, isDigit_of_mem_padded hmem⟩

theorem padded_append_ne {c : Char} (hc : c.isDigit = false) (rest cs : List Char) :
    padded width n ++ rest ≠ c :: cs := by
  obtain ⟨d, ds, hcons, hd⟩ := exists_padded_eq_cons width n
  intro heq
  rw [hcons, List.cons_append, List.cons.injEq] at heq
  rw [heq.1, hc] at hd
  cases hd

theorem length_padded (hwidth : 0 < width) (h : n < Nat.pow 10 width) :
    (padded width n).length = width := by
  have hle := (Nat.length_toDigits_le_iff (by decide) hwidth).2 h
  simp [padded, Nat.sub_add_cancel hle]

theorem ofDigitChars_padded : Nat.ofDigitChars 10 (padded width n) 0 = n := by
  simp [padded, Nat.ofDigitChars_append, Nat.ofDigitChars_ten_toDigits]

end padded

/-- A row of digits is read up to its end, if it is not longer than the width and no further digit
within the width comes after it. -/
theorem readDigits?_append {width : Nat} {digits rest : List Char}
    (hdigits : ∀ c ∈ digits, c.isDigit = true) (hne : digits ≠ []) (hwidth : digits.length ≤ width)
    (hrest : (rest.take (width - digits.length)).takeWhile Char.isDigit = []) :
    readDigits? width (digits ++ rest) = some (Nat.ofDigitChars 10 digits 0, rest) := by
  have hrow : ((digits ++ rest).take width).takeWhile Char.isDigit = digits := by
    rw [List.take_append, List.take_of_length_le hwidth, List.takeWhile_append_of_pos hdigits, hrest,
      List.append_nil]
  simp [readDigits?, hrow, hne]

/-- A number that has just the digits of the width is read whatever comes after it. -/
theorem readDigits?_padded {width n : Nat} (hwidth : 0 < width) (h : n < Nat.pow 10 width)
    (rest : List Char) : readDigits? width (padded width n ++ rest) = some (n, rest) := by
  have hlength := length_padded hwidth h
  rw [readDigits?_append (fun c => isDigit_of_mem_padded) padded_ne_nil (Nat.le_of_eq hlength),
    ofDigitChars_padded]
  rw [hlength, Nat.sub_self]
  rfl

/-- A number with at most as many digits as are wanted is read if another character comes after it. -/
theorem readDigits?_padded_cons {width wanted n : Nat} (hwidth : (padded width n).length ≤ wanted)
    {c : Char} (hc : c.isDigit = false) (rest : List Char) :
    readDigits? wanted (padded width n ++ c :: rest) = some (n, c :: rest) := by
  rw [readDigits?_append (fun c => isDigit_of_mem_padded) padded_ne_nil hwidth, ofDigitChars_padded]
  cases wanted - (padded width n).length with
  | zero => rfl
  | succ more => simp [hc]

@[simp] theorem skipBlank_nil : skipBlank [] = [] :=
  rfl

theorem skipBlank_cons {c : Char} (hc : Text.isBlank c = false) (cs : List Char) :
    skipBlank (c :: cs) = c :: cs := by
  simp [skipBlank, hc]

theorem isBlank_of_isDigit {c : Char} (hc : c.isDigit = true) : Text.isBlank c = false := by
  simp only [Char.isDigit, Bool.and_eq_true, decide_eq_true_eq] at hc
  have hlow : 48 ≤ c.toNat := hc.1
  have hhigh : c.toNat ≤ 57 := hc.2
  simp [Text.isBlank]
  omega

theorem skipBlank_padded (width n : Nat) (rest : List Char) :
    skipBlank (padded width n ++ rest) = padded width n ++ rest := by
  obtain ⟨c, cs, hcons, hc⟩ := exists_padded_eq_cons width n
  rw [hcons]
  exact skipBlank_cons (isBlank_of_isDigit hc) _

theorem readNumber?_padded {n : Nat} (h : n < 100) (rest : List Char) :
    readNumber? 2 (padded 2 n ++ rest) = some (n, rest) := by
  rw [readNumber?, skipBlank_padded, readDigits?_padded (by decide) h]

theorem readSeparator?_cons {c : Char} (hc : Text.isBlank c = false) (cs : List Char) :
    readSeparator? c (c :: cs) = some cs := by
  rw [readSeparator?, skipBlank_cons hc, readChar?, if_pos rfl]

/-! ## Dates -/

/-- A year without a sign. -/
theorem readYear?_padded {n : Nat} (h : n ≤ 9999) (rest : List Char) :
    readYear? (padded 4 n ++ rest) = some ((n : Int), rest) := by
  unfold readYear?
  rw [skipBlank_padded]
  split
  · next heq => exact absurd heq (padded_append_ne (by decide) _ _)
  · next heq => exact absurd heq (padded_append_ne (by decide) _ _)
  · have hdigits : n < Nat.pow 10 4 := Nat.lt_succ_of_le h
    rw [readDigits?_padded (by decide) hdigits]
    rfl

/-- The digits of a year after its sign. -/
theorem readDigits?_year (n : Nat) (rest : List Char) :
    readDigits? (padded 4 n ++ '-' :: rest).length (padded 4 n ++ '-' :: rest) =
      some (n, '-' :: rest) :=
  readDigits?_padded_cons (by simp) (by decide) rest

theorem readYear?_writeYear (year : Int) (rest : List Char) :
    readYear? (writeYear year ++ '-' :: rest) = some (year, '-' :: rest) := by
  unfold writeYear
  split
  · next hplain =>
    rw [readYear?_padded (by omega), Int.toNat_of_nonneg hplain.1]
  · by_cases hneg : year < 0
    · rw [if_pos hneg, List.cons_append, readYear?, skipBlank_cons (by decide)]
      simp only [readDigits?_year, Option.map_some, Option.some.injEq, Prod.mk.injEq, and_true]
      omega
    · rw [if_neg hneg, List.cons_append, readYear?, skipBlank_cons (by decide)]
      simp only [readDigits?_year, Option.map_some, Option.some.injEq, Prod.mk.injEq, and_true]
      omega

theorem readDate?_write {d : Date} (h : d.isValid = true) (rest : List Char) :
    readDate? (writeYear d.year ++ '-' :: (padded 2 d.month ++ '-' :: (padded 2 d.day ++ rest))) =
      some (d, rest) := by
  simp [readDate?, readYear?_writeYear, readSeparator?_cons (c := '-') (by decide),
    readNumber?_padded (Date.month_lt_of_isValid h), readNumber?_padded (Date.day_lt_of_isValid h)]

/-! ## Times of day -/

/-- The digits of a fraction, in thousandths, millionths or billionths. -/
theorem readFraction?_padded {width n : Nat} (hwidth : 0 < width) (hle : width ≤ 9)
    (h : n < Nat.pow 10 width) {c : Char} (hc : c.isDigit = false) (rest : List Char) :
    readFraction? ('.' :: padded width n ++ c :: rest) =
      some (n * Nat.pow 10 (9 - width), c :: rest) := by
  have hlength := length_padded hwidth h
  rw [List.cons_append, readFraction?, readDigits?_padded_cons (by omega) hc]
  simp [hlength, hc]

theorem readFraction?_writeFraction {nanos : Nat} (h : nanos < nanosPerSecond) (rest : List Char) :
    readFraction? (writeFraction nanos ++ 'Z' :: rest) = some (nanos, 'Z' :: rest) := by
  have hnanos : nanos < Nat.pow 10 9 := h
  unfold writeFraction
  split
  · next hzero =>
    rw [hzero]
    rfl
  · split
    · have hmillis : nanos / 1000000 < Nat.pow 10 3 := Nat.div_lt_of_lt_mul hnanos
      have hwhole : nanos / 1000000 * 1000000 = nanos := by omega
      rw [readFraction?_padded (by decide) (by decide) hmillis (by decide)]
      simp [hwhole]
    · split
      · have hmicros : nanos / 1000 < Nat.pow 10 6 := Nat.div_lt_of_lt_mul hnanos
        have hwhole : nanos / 1000 * 1000 = nanos := by omega
        rw [readFraction?_padded (by decide) (by decide) hmicros (by decide)]
        simp [hwhole]
      · rw [readFraction?_padded (by decide) (by decide) hnanos (by decide)]
        simp

theorem readTime?_write {c : ClockTime} (h : c.isValid = true) (hnanos : c.nanos < nanosPerSecond)
    (rest : List Char) :
    readTime? (padded 2 c.hour ++ ':' :: (padded 2 c.minute ++ ':' ::
        (writeSecond c.second c.nanos ++ 'Z' :: rest))) = some (c, 'Z' :: rest) := by
  simp only [ClockTime.isValid, Bool.and_eq_true, decide_eq_true_eq] at h
  obtain ⟨⟨hhour, hminute⟩, hsecond⟩ := h
  have hdigits : c.hour < 100 ∧ c.minute < 100 ∧ c.second < 100 := by omega
  rw [writeSecond, if_pos hnanos, List.append_assoc]
  simp [readTime?, readNumber?_padded hdigits.1, readNumber?_padded hdigits.2.1,
    readNumber?_padded hdigits.2.2, readSeparator?_cons (c := ':') (by decide),
    readFraction?_writeFraction hnanos]

/-- After the letter for universal time nothing is left. -/
theorem readZone?_z : readZone? (skipBlank ['Z']) = some (0, []) := by
  decide

/-! ## Instants -/

/-- The time of day of an instant. -/
def clockTime (t : Instant) : ClockTime where
  hour := t.secondOfDay / 3600
  minute := t.secondOfDay / 60 % 60
  second := t.secondOfDay % 60
  nanos := t.nanos

theorem secondOfDay_lt (t : Instant) : t.secondOfDay < 86400 := by
  unfold secondOfDay secondsPerDay
  omega

theorem isValid_clockTime (t : Instant) : t.clockTime.isValid = true := by
  have hday := t.secondOfDay_lt
  have hhour : t.secondOfDay / 3600 ≤ 23 := by omega
  have hminute : t.secondOfDay / 60 % 60 ≤ 59 := by omega
  have hsecond : t.secondOfDay % 60 ≤ 60 := by omega
  simp [ClockTime.isValid, clockTime, hhour, hminute, hsecond]

theorem seconds_clockTime (t : Instant) : t.clockTime.seconds = (t.secondOfDay, t.nanos) := by
  have hsecond : t.secondOfDay % 60 ≠ 60 := by omega
  simp only [ClockTime.seconds, clockTime, hsecond, if_false, Prod.mk.injEq, and_true]
  omega

/-- The date and the time of an instant make the instant. -/
theorem ofClock?_date_clockTime {t : Instant} (h : t.isInRange = true) :
    ofClock? t.date t.clockTime 0 = some t := by
  have hseconds : t.date.toDays * secondsPerDay + t.secondOfDay - 0 = t.seconds := by
    rw [date, Date.toDays_ofDays]
    unfold secondOfDay secondsPerDay
    omega
  have hrange := h
  simp only [isInRange, Bool.and_eq_true, decide_eq_true_eq] at hrange
  have hvalid : t.date.isValid = true := Date.isValid_ofDays _
  simp [ofClock?, hvalid, isValid_clockTime, hrange, seconds_clockTime, hseconds, h]

theorem writeChars_eq (t : Instant) :
    t.writeChars = writeYear t.date.year ++ '-' :: (padded 2 t.date.month ++ '-' ::
      (padded 2 t.date.day ++ 'T' :: (padded 2 t.clockTime.hour ++ ':' ::
        (padded 2 t.clockTime.minute ++ ':' ::
          (writeSecond t.clockTime.second t.clockTime.nanos ++ ['Z']))))) := by
  simp [writeChars, clockTime]

/-- **Instants as text.**  What is written for an instant that is not in a leap second is read as that
instant, in all years that there are. -/
theorem read?_write {t : Instant} (hrange : t.isInRange = true) (hnanos : t.nanos < nanosPerSecond) :
    read? t.write = some t := by
  have hvalid : t.date.isValid = true := Date.isValid_ofDays _
  have htime := readTime?_write t.isValid_clockTime hnanos []
  rw [read?, write, String.toList_ofList, readChars?, writeChars_eq, readDate?_write hvalid]
  simp [htime, readZone?_z, ofClock?_date_clockTime hrange]

end TaskRelay.Instant
