import TaskRelay.Time.Calendar

/-!
# Days and dates

The years come one after the other without a gap, each as long as its months together, and the year of
a day is the one that the day falls into (`Calendar.yearOfDay_spec`).  Within the year the day falls
into one of the months.  So the date of a day exists, and counting the days up to it leads back to the
day (`Date.toDays_ofDays`).
-/

namespace TaskRelay

namespace Calendar

/-! ## Years -/

theorem daysIn_monthLengths (year : Int) :
    daysIn (monthLengths year) = if isLeapYear year then 366 else 365 := by
  unfold monthLengths
  split <;> rfl

theorem isLeapYear_iff {year : Int} :
    isLeapYear year = true ↔ year % 4 = 0 ∧ (year % 100 ≠ 0 ∨ year % 400 = 0) := by
  simp [isLeapYear]

/-- A year begins where the months of the year before end. -/
theorem daysBeforeYear_add_one (year : Int) :
    daysBeforeYear (year + 1) = daysBeforeYear year + daysIn (monthLengths year) := by
  rw [daysIn_monthLengths]
  by_cases hleap : isLeapYear year = true
  · rw [if_pos hleap]
    rw [isLeapYear_iff] at hleap
    unfold daysBeforeYear
    omega
  · rw [if_neg hleap]
    rw [isLeapYear_iff] at hleap
    unfold daysBeforeYear
    omega

/-- The estimate of the year of a day is off by one year at most. -/
theorem daysBeforeYear_estimate (day : Int) :
    daysBeforeYear (400 * day / 146097 - 1) ≤ day ∧
      day < daysBeforeYear (400 * day / 146097 + 2) := by
  unfold daysBeforeYear
  omega

/-- Each day is in its year. -/
theorem yearOfDay_spec (day : Int) :
    daysBeforeYear (yearOfDay day) ≤ day ∧ day < daysBeforeYear (yearOfDay day + 1) := by
  obtain ⟨hlow, hhigh⟩ := daysBeforeYear_estimate day
  unfold yearOfDay
  simp only
  split
  · next hbefore =>
    rw [Int.sub_add_cancel]
    exact ⟨hlow, hbefore⟩
  · split
    · next hafter =>
      rw [Int.add_assoc]
      exact ⟨hafter, hhigh⟩
    · omega

/-! ## Months -/

/-- A day within the given months is in one of them, after those before it. -/
theorem monthOfDay_spec (months : Nat) (lengths : List Nat) (day : Nat) (h : day < daysIn lengths) :
    ∃ before rest, monthOfDay months lengths day = (months + before + 1, rest + 1) ∧
      before < lengths.length ∧ rest < lengths.getD before 0 ∧
      daysIn (lengths.take before) + rest = day := by
  induction lengths generalizing months day with
  | nil => cases h
  | cons length lengths ih =>
    rw [monthOfDay]
    by_cases hday : day < length
    · rw [if_pos hday]
      exact ⟨0, day, rfl, Nat.zero_lt_succ _, hday, Nat.zero_add day⟩
    · rw [if_neg hday]
      rw [daysIn] at h
      obtain ⟨before, rest, heq, hbefore, hrest, hsum⟩ := ih (months + 1) (day - length) (by omega)
      refine ⟨before + 1, rest, ?_, Nat.succ_lt_succ hbefore, hrest, ?_⟩
      · rw [heq, Nat.add_right_comm months 1 before]
        rfl
      · rw [List.take_succ_cons, daysIn]
        omega

theorem getD_monthLengths_le (year : Int) (month : Nat) :
    (monthLengths year).getD month 0 ≤ 31 := by
  rw [List.getD_eq_getElem?_getD]
  cases h : (monthLengths year)[month]? with
  | none => simp
  | some length =>
    have hmem := List.mem_of_getElem? h
    unfold monthLengths at hmem
    simp only [List.mem_cons, List.not_mem_nil, or_false] at hmem
    rw [Option.getD_some]
    split at hmem <;> omega

end Calendar

namespace Date

open Calendar

/-- The date of a day in terms of its year, its month and what is left of the day in the month. -/
theorem ofDays_spec (days : Int) :
    ∃ before rest, before < 12 ∧
      rest < (monthLengths (ofDays days).year).getD before 0 ∧
      (ofDays days).month = before + 1 ∧ (ofDays days).day = rest + 1 ∧
      daysBeforeYear (ofDays days).year +
        daysIn ((monthLengths (ofDays days).year).take before) + rest = days - yearZero := by
  have hyear : (ofDays days).year = yearOfDay (days - yearZero) := rfl
  obtain ⟨hstart, hend⟩ := yearOfDay_spec (days - yearZero)
  rw [daysBeforeYear_add_one] at hend
  obtain ⟨before, rest, heq, hbefore, hrest, hsum⟩ :=
    monthOfDay_spec 0 (monthLengths (yearOfDay (days - yearZero)))
      (days - yearZero - daysBeforeYear (yearOfDay (days - yearZero))).toNat (by omega)
  refine ⟨before, rest, hbefore, ?_, ?_, ?_, ?_⟩
  · rw [hyear]
    exact hrest
  · simp [ofDays, heq]
  · simp [ofDays, heq]
  · rw [hyear]
    omega

/-- The date of a day exists. -/
theorem isValid_ofDays (days : Int) : (ofDays days).isValid = true := by
  obtain ⟨before, rest, hbefore, hrest, hmonth, hday, -⟩ := ofDays_spec days
  simp only [isValid, hmonth, hday, Nat.add_sub_cancel, Bool.and_eq_true, decide_eq_true_eq]
  omega

/-- **Days and dates.**  Counting the days up to the date of a day leads back to the day. -/
theorem toDays_ofDays (days : Int) : (ofDays days).toDays = days := by
  obtain ⟨before, rest, -, -, hmonth, hday, hsum⟩ := ofDays_spec days
  rw [toDays, hmonth, hday, Nat.add_sub_cancel]
  omega

/-- The year 0 had a leap day. -/
example : ofDays (-719469) = { year := 0, month := 2, day := 29 } := by decide

theorem month_lt_of_isValid {d : Date} (h : d.isValid = true) : d.month < 100 := by
  simp only [isValid, Bool.and_eq_true, decide_eq_true_eq] at h
  omega

theorem day_lt_of_isValid {d : Date} (h : d.isValid = true) : d.day < 100 := by
  have hlength := getD_monthLengths_le d.year (d.month - 1)
  simp only [isValid, Bool.and_eq_true, decide_eq_true_eq] at h
  omega

end Date

end TaskRelay
