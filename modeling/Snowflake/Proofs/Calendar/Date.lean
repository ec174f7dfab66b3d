import Mathlib.Tactic.IntervalCases
import Snowflake.Calendar.Date

/-!
# Dates: the day that a day count stands for

The calendar is described here by what it says: which years are leap years and how long the
months are.  Every date has a day number in it, the days from the first of January of the
year 0 on (`dayNumber`), and `ofDays` gives the date with the right one:

    (ofDays n).Valid  and  (ofDays n).dayNumber = (⟨1970, 1, 1⟩ : Date).dayNumber + n   (ofDays_spec)

The years that begin in March come in between.  After `daysToYear_add` their days add up to
`daysInYears`, and `yearOfCycle_spec` says that a day lies in the year that is computed for it.
-/

namespace Snowflake.Date

/-! ## The calendar -/

/-- Every fourth year has a leap day, but of the hundreds only every fourth. -/
def IsLeap (year : Nat) : Prop := year % 4 = 0 ∧ (year % 100 ≠ 0 ∨ year % 400 = 0)

instance (year : Nat) : Decidable (IsLeap year) := inferInstanceAs (Decidable (_ ∧ _))

def yearLength (year : Nat) : Nat := if IsLeap year then 366 else 365

def februaryLength (year : Nat) : Nat := if IsLeap year then 29 else 28

def monthLength (year : Nat) : (month : Nat) → Nat
  | 2 => februaryLength year
  | 4 | 6 | 9 | 11 => 30
  | _ => 31

/-- Days from the first of January of the year 0 to that of the year. -/
def daysToYear : Nat → Nat
  | 0 => 0
  | year + 1 => daysToYear year + yearLength year

/-- Days in so many months from January on. -/
def daysToMonth (year : Nat) : (months : Nat) → Nat
  | 0 => 0
  | months + 1 => daysToMonth year months + monthLength year (months + 1)

/-- Days from the first of January of the year 0 to the date. -/
def dayNumber (date : Date) : Nat :=
  daysToYear date.year + daysToMonth date.year (date.month - 1) + (date.day - 1)

/-- The date is a day of the calendar. -/
structure Valid (date : Date) : Prop where
  month_pos : 0 < date.month
  month_le : date.month ≤ 12
  day_pos : 0 < date.day
  day_le : date.day ≤ monthLength date.year date.month

/-! ## Years -/

theorem februaryLength_add (year : Nat) : februaryLength year + 337 = yearLength year := by
  unfold februaryLength yearLength
  split <;> rfl

theorem yearLength_le (year : Nat) : yearLength year ≤ 366 := by
  unfold yearLength
  split <;> decide

theorem yearLength_add (cycles year : Nat) : yearLength (400 * cycles + year) = yearLength year := by
  have hleap : IsLeap (400 * cycles + year) ↔ IsLeap year := by
    unfold IsLeap
    omega
  unfold yearLength
  rw [if_congr hleap rfl rfl]

/-- A year that begins in March has the leap day of the next one. -/
theorem daysInYears_succ (years : Nat) : daysInYears (years + 1) = daysInYears years + yearLength (years + 1) := by
  have hfours : (years + 1) / 4 = years / 4 + (if (years + 1) % 4 = 0 then 1 else 0) := by
    split <;> omega
  have hhundreds : (years + 1) / 100 = years / 100 + (if (years + 1) % 100 = 0 then 1 else 0) := by
    split <;> omega
  have hcycles : (years + 1) / 400 = years / 400 + (if (years + 1) % 400 = 0 then 1 else 0) := by
    split <;> omega
  have hle : years / 100 ≤ years := Nat.div_le_self ..
  unfold daysInYears yearLength
  rw [hfours, hhundreds, hcycles]
  by_cases hleap : IsLeap (years + 1)
  · rw [if_pos hleap]
    unfold IsLeap at hleap
    rw [if_pos hleap.1]
    rcases hleap.2 with h | h
    · rw [if_neg h, if_neg (by omega)]
      omega
    · rw [if_pos h, if_pos (by omega)]
      omega
  · rw [if_neg hleap]
    unfold IsLeap at hleap
    by_cases h : (years + 1) % 4 = 0
    · rw [if_pos h, if_pos (by omega), if_neg (by omega)]
      omega
    · rw [if_neg h, if_neg (by omega), if_neg (by omega)]
      omega

theorem daysInYears_add (cycles years : Nat) :
    daysInYears (400 * cycles + years) = daysInCycle * cycles + daysInYears years := by
  unfold daysInYears daysInCycle
  omega

/-- From the end of the year 0 on, the years of January count as those of March do. -/
theorem daysToYear_add (year : Nat) : daysToYear year + yearLength year = daysInYears year + 366 := by
  induction year with
  | zero => rfl
  | succ year ih =>
    rw [daysToYear, ih, daysInYears_succ]
    omega

/-! ## The year of a day -/

section Cycle

-- a day of the cycle: its hundred of years, its four of the hundred, its year of the four
variable {hundred four year day : Nat}

theorem daysInYears_eq (hhundred : hundred < 4) (hfour : four < 25) (hyear : year < 4) :
    daysInYears (100 * hundred + 4 * four + year) = 36524 * hundred + (1461 * four + 365 * year) := by
  unfold daysInYears
  omega

theorem yearOfCycle_eq (hhundred : hundred < 4) (hyear : year < 4) (hday : day < 365 ∨ (day = 365 ∧ year = 3))
    (hlt : 1461 * four + 365 * year + day < 36524) :
    yearOfCycle (36524 * hundred + (1461 * four + 365 * year + day)) = 100 * hundred + 4 * four + year := by
  have hhundreds : (36524 * hundred + (1461 * four + 365 * year + day)) / 36524 = hundred := by omega
  have hcycle : (36524 * hundred + (1461 * four + 365 * year + day)) / 146096 = 0 := by omega
  have hfours : (36524 * hundred + (1461 * four + 365 * year + day)) / 1460
      = 25 * hundred + four + (if 1460 ≤ 24 * hundred + four + 365 * year + day then 1 else 0) := by
    split <;> omega
  unfold yearOfCycle
  rw [hhundreds, hcycle, hfours]
  split <;> omega

/-- No year is shorter than 365 days, and the fourth of a four is longer but at the end of a hundred. -/
theorem lt_yearLength (hday : day < 365 ∨ (day = 365 ∧ year = 3))
    (hlt : 1461 * four + 365 * year + day < 36524) : day < yearLength (100 * hundred + 4 * four + year + 1) := by
  unfold yearLength
  split
  · omega
  · next hleap =>
    unfold IsLeap at hleap
    omega

end Cycle

/-- A day of the cycle lies in the year that is computed for it. -/
theorem yearOfCycle_spec {day : Nat} (h : day < daysInCycle) :
    daysInYears (yearOfCycle day) ≤ day
      ∧ day - daysInYears (yearOfCycle day) < yearLength (yearOfCycle day + 1) := by
  by_cases hlast : day = 146096
  · -- the leap day that ends the cycle is one day more than its hundreds have
    subst hlast
    decide
  · obtain ⟨hundred, four, year, rest, hhundred, hfour, hyear, hrest, hlt, rfl⟩ :
        ∃ hundred four year rest, hundred < 4 ∧ four < 25 ∧ year < 4 ∧ (rest < 365 ∨ (rest = 365 ∧ year = 3))
          ∧ 1461 * four + 365 * year + rest < 36524
          ∧ day = 36524 * hundred + (1461 * four + 365 * year + rest) := by
      unfold daysInCycle at h
      refine ⟨day / 36524, day % 36524 / 1461, min (day % 36524 % 1461 / 365) 3,
        day % 36524 % 1461 - 365 * min (day % 36524 % 1461 / 365) 3, ?_, ?_, ?_, ?_, ?_, ?_⟩ <;> omega
    have hin : rest < yearLength (100 * hundred + 4 * four + year + 1) := lt_yearLength hrest hlt
    rw [yearOfCycle_eq hhundred hyear hrest hlt, daysInYears_eq hhundred hfour hyear]
    omega

/-! ## The month of a day -/

theorem daysInMonths_succ (year : Nat) {months : Nat} (h : months < 10) :
    daysInMonths (months + 1) = daysInMonths months + monthLength year (months + 3) := by
  interval_cases months <;> rfl

/-- The months from March on begin after January and February. -/
theorem daysToMonth_add (year : Nat) {months : Nat} (h : months ≤ 10) :
    daysToMonth year (months + 2) + 306 = daysInMonths months + yearLength year := by
  induction months with
  | zero =>
    have hfirst : daysToMonth year 2 = 31 + februaryLength year := rfl
    rw [hfirst, ← februaryLength_add, show daysInMonths 0 = 0 from rfl]
    omega
  | succ months ih =>
    have hsofar := ih (Nat.le_of_lt h)
    rw [show daysToMonth year (months + 1 + 2) = daysToMonth year (months + 2) + monthLength year (months + 3) from rfl,
      daysInMonths_succ year h]
    omega

theorem monthOfYear_spec (day : Nat) :
    daysInMonths (monthOfYear day) ≤ day ∧ day < daysInMonths (monthOfYear day + 1) := by
  unfold daysInMonths monthOfYear
  omega

theorem monthOfYear_lt {day : Nat} (h : day < 366) : monthOfYear day < 12 := by
  unfold monthOfYear
  omega

/-! ## The date of a day -/

/-- The date so many days after the first of March of a year. -/
def ofMarch (year dayOfYear : Nat) : Date :=
  let month := monthOfYear dayOfYear
  { year := year + (if month < 10 then 0 else 1)
    month := if month < 10 then month + 3 else month - 9
    day := dayOfYear - daysInMonths month + 1 }

theorem ofDays_eq (days : Nat) :
    ofDays days
      = ofMarch (400 * ((days + daysBefore1970) / daysInCycle) + yearOfCycle ((days + daysBefore1970) % daysInCycle))
          ((days + daysBefore1970) % daysInCycle
            - daysInYears (yearOfCycle ((days + daysBefore1970) % daysInCycle))) := rfl

theorem ofMarch_of_lt (year : Nat) {day : Nat} (h : monthOfYear day < 10) :
    ofMarch year day = ⟨year, monthOfYear day + 3, day - daysInMonths (monthOfYear day) + 1⟩ := by
  unfold ofMarch
  dsimp only
  rw [if_pos h, if_pos h, Nat.add_zero]

theorem ofMarch_of_not_lt (year : Nat) {day : Nat} (h : ¬monthOfYear day < 10) :
    ofMarch year day = ⟨year + 1, monthOfYear day - 9, day - daysInMonths (monthOfYear day) + 1⟩ := by
  unfold ofMarch
  dsimp only
  rw [if_neg h, if_neg h]

theorem dayNumber_january (year day : Nat) : dayNumber ⟨year, 1, day + 1⟩ = daysToYear year + day := rfl

theorem dayNumber_february (year day : Nat) : dayNumber ⟨year, 2, day + 1⟩ = daysToYear year + 31 + day := by
  unfold dayNumber
  rfl

/-- The months from March on are in the year of the calendar that the days are counted from. -/
theorem spec_of_lt (year : Nat) {month day : Nat} (h : month < 10) (hge : daysInMonths month ≤ day)
    (hlt : day < daysInMonths (month + 1)) :
    Valid ⟨year, month + 3, day - daysInMonths month + 1⟩
      ∧ dayNumber ⟨year, month + 3, day - daysInMonths month + 1⟩ = daysInYears year + 60 + day := by
  have hyears := daysToYear_add year
  have hlength := daysInMonths_succ year h
  have hmonths := daysToMonth_add year (Nat.le_of_lt h)
  have hnumber : dayNumber ⟨year, month + 3, day - daysInMonths month + 1⟩
      = daysToYear year + daysToMonth year (month + 2) + (day - daysInMonths month) := rfl
  refine ⟨⟨Nat.succ_pos _, Nat.succ_le_of_lt (Nat.add_lt_add_right h 2), Nat.succ_pos _, ?_⟩, ?_⟩
  · show day - daysInMonths month + 1 ≤ monthLength year (month + 3)
    omega
  · omega

/-- January and February are in the next one, and February has its leap day. -/
theorem spec_of_not_lt {year month day : Nat} (h : ¬month < 10) (hmonth : month < 12)
    (hge : daysInMonths month ≤ day) (hlt : day < daysInMonths (month + 1)) (hday : day < yearLength (year + 1)) :
    Valid ⟨year + 1, month - 9, day - daysInMonths month + 1⟩
      ∧ dayNumber ⟨year + 1, month - 9, day - daysInMonths month + 1⟩ = daysInYears year + 60 + day := by
  have hyears := daysToYear_add year
  have hfebruary := februaryLength_add (year + 1)
  have hnext : daysToYear (year + 1) = daysToYear year + yearLength year := rfl
  obtain rfl | rfl : month = 10 ∨ month = 11 := by omega
  · rw [show daysInMonths 10 = 306 from rfl] at hge ⊢
    rw [show daysInMonths (10 + 1) = 337 from rfl] at hlt
    refine ⟨⟨Nat.one_pos, Nat.succ_pos _, Nat.succ_pos _, ?_⟩, ?_⟩
    · show day - 306 + 1 ≤ 31
      omega
    · rw [dayNumber_january, hnext]
      omega
  · rw [show daysInMonths 11 = 337 from rfl] at hge ⊢
    refine ⟨⟨Nat.two_pos, Nat.le_of_ble_eq_true rfl, Nat.succ_pos _, ?_⟩, ?_⟩
    · show day - 337 + 1 ≤ februaryLength (year + 1)
      omega
    · rw [dayNumber_february, hnext]
      omega

/-- A day of a year that begins in March is a day of the calendar, counted on from the first of March. -/
theorem ofMarch_spec {year day : Nat} (h : day < yearLength (year + 1)) :
    (ofMarch year day).Valid ∧ (ofMarch year day).dayNumber = daysInYears year + 60 + day := by
  obtain ⟨hge, hlt⟩ := monthOfYear_spec day
  have hmonth := monthOfYear_lt (Nat.lt_of_lt_of_le h (yearLength_le _))
  by_cases hearly : monthOfYear day < 10
  · rw [ofMarch_of_lt year hearly]
    exact spec_of_lt year hearly hge hlt
  · rw [ofMarch_of_not_lt year hearly]
    exact spec_of_not_lt hearly hmonth hge hlt h

theorem dayNumber_1970 : dayNumber ⟨1970, 1, 1⟩ = daysBefore1970 + 60 := by
  have hyears := daysToYear_add 1970
  rw [show yearLength 1970 = 365 from rfl, show daysInYears 1970 = 719527 from rfl] at hyears
  rw [dayNumber_january, show daysBefore1970 = 719468 from rfl]
  -- the days are not to be counted year by year
  generalize daysToYear 1970 = days at hyears ⊢
  omega

/-- **Dates.**  The date of a day count is a day of the calendar, so many days after the first of
January 1970. -/
theorem ofDays_spec (days : Nat) :
    (ofDays days).Valid ∧ (ofDays days).dayNumber = dayNumber ⟨1970, 1, 1⟩ + days := by
  have hsplit := Nat.div_add_mod (days + daysBefore1970) daysInCycle
  obtain ⟨hle, hlt⟩ := yearOfCycle_spec (Nat.mod_lt (days + daysBefore1970) (by decide : 0 < daysInCycle))
  rw [ofDays_eq, dayNumber_1970]
  generalize (days + daysBefore1970) / daysInCycle = cycles at hsplit
  generalize (days + daysBefore1970) % daysInCycle = day at hsplit hle hlt
  have hyear : day - daysInYears (yearOfCycle day) < yearLength (400 * cycles + yearOfCycle day + 1) := by
    rw [Nat.add_assoc, yearLength_add]
    exact hlt
  obtain ⟨hvalid, hnumber⟩ := ofMarch_spec hyear
  refine ⟨hvalid, ?_⟩
  rw [hnumber, daysInYears_add]
  omega

/-- The leap day of a year that 400 divides. -/
example : ofDays 11016 = ⟨2000, 2, 29⟩ := by decide

end Snowflake.Date
