namespace SessionTickets.Time

/-- Whether a year has a 29 February. -/
def isLeapYear (year : Int) : Bool :=
  year % 4 = 0 && (year % 100 ≠ 0 || year % 400 = 0)

/-- The number of days in a month, counted from 1. -/
def daysInMonth (year : Int) (month : Nat) : Nat :=
  if month = 2 then (if isLeapYear year then 29 else 28)
  else if month = 4 ∨ month = 6 ∨ month = 9 ∨ month = 11 then 30
  else 31

/-- A day of the proleptic Gregorian calendar, which has a year zero and negative years before it. -/
@[ext] structure Date where
  year : Int
  month : Nat
  day : Nat
  month_mem : 1 ≤ month ∧ month ≤ 12
  day_mem : 1 ≤ day ∧ day ≤ daysInMonth year month
deriving DecidableEq

namespace Date

/-- The date with the given numbers, if the calendar has it. -/
def ofNumbers? (year : Int) (month day : Nat) : Option Date :=
  if h : (1 ≤ month ∧ month ≤ 12) ∧ 1 ≤ day ∧ day ≤ daysInMonth year month then
    some ⟨year, month, day, h.1, h.2⟩
  else
    none

end Date

/-- Days from 1 March of year 0 to 1 March of the given year. The leap day comes last in a year that starts in
March, so its first day is a simple sum of quotients, and so is the first day of a month within it. -/
def marchStart (year : Int) : Int :=
  365 * year + year / 4 - year / 100 + year / 400

/-- Days from 1 March to the first day of a month, the months counted from March as 0. -/
def monthStart (month : Nat) : Nat :=
  (153 * month + 2) / 5

/-- The month, counted from March as 0, that holds a day of a year that starts in March. -/
def marchMonth (dayOfYear : Nat) : Nat :=
  (5 * dayOfYear + 2) / 153

/-- The day number, from 1 March of year 0, of 1 January 1970. -/
def epochDay : Int := 719468

/-- The year, starting in March, of the day with the given number from 1 March of year 0. The mean
length of a year is 146097 / 400 days, which puts the first guess at most one year off. -/
def marchYear (n : Int) : Int :=
  let guess := 400 * n / 146097
  if n < marchStart guess then guess - 1
  else if marchStart (guess + 1) ≤ n then guess + 1
  else guess

/-- A day lies between the first day of its year and that of the next. -/
theorem marchYear_spec (n : Int) :
    marchStart (marchYear n) ≤ n ∧ n < marchStart (marchYear n + 1) := by
  rw [marchYear]
  have hguess : marchStart (400 * n / 146097 - 1) ≤ n ∧ n < marchStart (400 * n / 146097 + 1 + 1) := by
    simp only [marchStart]
    omega
  split
  · next h => rw [Int.sub_add_cancel]; exact ⟨hguess.1, h⟩
  · next h =>
    split
    · next h' => exact ⟨h', hguess.2⟩
    · next h' => omega

/-- A year that starts in March has the leap day of the calendar year in which it ends. -/
private theorem marchStart_succ (year : Int) :
    marchStart (year + 1) = marchStart year + if isLeapYear (year + 1) then 366 else 365 := by
  simp only [marchStart, isLeapYear, Bool.and_eq_true, Bool.or_eq_true, decide_eq_true_eq]
  split <;> omega

/-- First days of years come in the order of the years. -/
theorem marchStart_mono {a b : Int} (h : a ≤ b) : marchStart a ≤ marchStart b := by
  simp only [marchStart]
  omega

/-- Only one year holds a day. -/
theorem marchYear_eq {n year : Int} (h₁ : marchStart year ≤ n) (h₂ : n < marchStart (year + 1)) :
    marchYear n = year := by
  have ⟨hl, hr⟩ := marchYear_spec n
  rcases Int.lt_trichotomy (marchYear n) year with h | h | h
  · have := marchStart_mono (show marchYear n + 1 ≤ year by omega)
    omega
  · exact h
  · have := marchStart_mono (show year + 1 ≤ marchYear n by omega)
    omega

/-- A month reaches up to the first day of the next. -/
theorem marchMonth_eq_iff {dayOfYear month : Nat} :
    marchMonth dayOfYear = month ↔
      monthStart month ≤ dayOfYear ∧ dayOfYear < monthStart (month + 1) := by
  simp only [marchMonth, monthStart]
  omega

/-- The months of a year, counted from March, have the lengths of the calendar. -/
theorem day_le_daysInMonth {year : Int} {month dayOfYear : Nat} (hmonth : marchMonth dayOfYear = month)
    (hlen : dayOfYear < if isLeapYear (year + 1) then 366 else 365) :
    dayOfYear - monthStart month + 1 ≤
      if month < 10 then daysInMonth year (month + 3) else daysInMonth (year + 1) (month - 9) := by
  have ⟨hl, hr⟩ := marchMonth_eq_iff.1 hmonth
  have hlt : dayOfYear < 366 := by split at hlen <;> omega
  simp only [monthStart] at hl hr ⊢
  have hcases : month = 0 ∨ month = 1 ∨ month = 2 ∨ month = 3 ∨ month = 4 ∨ month = 5 ∨ month = 6 ∨
      month = 7 ∨ month = 8 ∨ month = 9 ∨ month = 10 ∨ month = 11 := by omega
  rcases hcases with h | h | h | h | h | h | h | h | h | h | h | h <;> subst h <;>
    simp [daysInMonth] at hl hr ⊢ <;> split at hlen <;> simp_all <;> omega

namespace Date

/-- The number of the day, 1 January 1970 being 0. -/
def toDays (d : Date) : Int :=
  if 3 ≤ d.month then
    marchStart d.year + monthStart (d.month - 3) + d.day - 1 - epochDay
  else
    marchStart (d.year - 1) + monthStart (d.month + 9) + d.day - 1 - epochDay

/-- The day of a year that starts in March, both counted from 0. -/
def ofMarch (year : Int) (dayOfYear : Nat)
    (h : dayOfYear < if isLeapYear (year + 1) then 366 else 365) : Date :=
  let month := marchMonth dayOfYear
  have hday := @day_le_daysInMonth year month dayOfYear rfl h
  have hmonth : month < 12 := by simp only [month, marchMonth]; split at h <;> omega
  if hlate : month < 10 then
    ⟨year, month + 3, dayOfYear - monthStart month + 1, by omega, by simp [hlate] at hday; omega⟩
  else
    ⟨year + 1, month - 9, dayOfYear - monthStart month + 1, by omega, by simp [hlate] at hday; omega⟩

/-- The day with a number, 1 January 1970 being 0. -/
def ofDays (n : Int) : Date :=
  ofMarch (marchYear (n + epochDay)) (n + epochDay - marchStart (marchYear (n + epochDay))).toNat (by
    have ⟨hl, hr⟩ := marchYear_spec (n + epochDay)
    rw [marchStart_succ] at hr
    split at hr <;> rename_i hleap <;> simp only [hleap] <;> simp <;> omega)

private theorem toDays_ofMarch (year : Int) (dayOfYear : Nat)
    (h : dayOfYear < if isLeapYear (year + 1) then 366 else 365) :
    (ofMarch year dayOfYear h).toDays = marchStart year + dayOfYear - epochDay := by
  have hstart := (@marchMonth_eq_iff dayOfYear _).1 rfl |>.1
  have hmonth : marchMonth dayOfYear < 12 := by simp only [marchMonth]; split at h <;> omega
  simp only [ofMarch]
  split
  · simp only [toDays, show 3 ≤ marchMonth dayOfYear + 3 by omega, if_true, Nat.add_sub_cancel]
    omega
  · have hlate : ¬ 3 ≤ marchMonth dayOfYear - 9 := by omega
    have hback : marchMonth dayOfYear - 9 + 9 = marchMonth dayOfYear := by omega
    simp only [toDays, hlate, if_false, hback, Int.add_sub_cancel]
    omega

/-- The day with a number has that number. -/
@[simp] theorem toDays_ofDays (n : Int) : (ofDays n).toDays = n := by
  have ⟨hl, _⟩ := marchYear_spec (n + epochDay)
  rw [ofDays, toDays_ofMarch]
  omega

/-- A date is a day of a year that starts in March. -/
theorem exists_eq_ofMarch (d : Date) :
    ∃ year dayOfYear, ∃ h, d = ofMarch year dayOfYear h := by
  obtain ⟨year, month, day, ⟨hm₁, hm₂⟩, hd₁, hd₂⟩ := d
  have hcases : month = 1 ∨ month = 2 ∨ month = 3 ∨ month = 4 ∨ month = 5 ∨ month = 6 ∨ month = 7 ∨
      month = 8 ∨ month = 9 ∨ month = 10 ∨ month = 11 ∨ month = 12 := by omega
  by_cases hlate : 3 ≤ month
  · have hin : marchMonth (monthStart (month - 3) + (day - 1)) = month - 3 := by
      rw [marchMonth_eq_iff]
      rcases hcases with h | h | h | h | h | h | h | h | h | h | h | h <;> subst h <;>
        simp [daysInMonth, monthStart] at * <;> omega
    refine ⟨year, monthStart (month - 3) + (day - 1), ?_, ?_⟩
    · have : monthStart (month - 3) + (day - 1) < 365 := by
        rcases hcases with h | h | h | h | h | h | h | h | h | h | h | h <;> subst h <;>
          simp [daysInMonth, monthStart] at * <;> omega
      split <;> omega
    · simp only [ofMarch, hin, show month - 3 < 10 by omega, dif_pos]
      ext <;> simp <;> omega
  · have hin : marchMonth (monthStart (month + 9) + (day - 1)) = month + 9 := by
      rw [marchMonth_eq_iff]
      have hd : day ≤ if month = 2 then 29 else 31 := by
        simp only [daysInMonth] at hd₂
        split at hd₂ <;> (try split at hd₂) <;> simp_all <;> omega
      rcases hcases with h | h | h | h | h | h | h | h | h | h | h | h <;> subst h <;>
        simp [monthStart] at * <;> omega
    refine ⟨year - 1, monthStart (month + 9) + (day - 1), ?_, ?_⟩
    · rw [Int.sub_add_cancel]
      rcases (show month = 1 ∨ month = 2 by omega) with h | h <;> subst h <;>
        by_cases hleap : isLeapYear year <;> simp [daysInMonth, monthStart, hleap] at hd₂ ⊢ <;> omega
    · simp only [ofMarch, hin, show ¬ month + 9 < 10 by omega, dif_neg, not_false_eq_true]
      ext <;> simp
      omega

/-- A date is the day with its number. -/
@[simp] theorem ofDays_toDays (d : Date) : ofDays d.toDays = d := by
  obtain ⟨year, dayOfYear, h, rfl⟩ := exists_eq_ofMarch d
  have hyear : marchYear (marchStart year + dayOfYear) = year := by
    apply marchYear_eq
    · omega
    · rw [marchStart_succ]
      split at h
      · next hleap =>
        rw [if_pos hleap]
        omega
      · next hleap =>
        rw [if_neg hleap]
        omega
  rw [toDays_ofMarch, ofDays]
  congr 1 <;> rw [Int.sub_add_cancel, hyear]
  omega

end Date

end SessionTickets.Time
