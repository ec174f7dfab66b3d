/-!
# Dates: the calendar day of a day count

Days are counted from the first of January 1970, forward, and dated by the Gregorian
calendar, which is taken to have been in use at all times, as `chrono` documents its dates.
The years are taken to begin on the first of March, so that a leap day is the last day of
its year; then 400 years have the same days in the same order again and again, 146097 of
them, and the lengths of the months from March on follow a line of slope 153 / 5.
-/

namespace Snowflake

structure Date where
  year : Nat
  month : Nat
  day : Nat
deriving DecidableEq, Repr

namespace Date

/-- Days in 400 years. -/
def daysInCycle : Nat := 146097

/-- Days from the first of March of the year 0 to the first of January 1970. -/
def daysBefore1970 : Nat := 719468

/-- Days in so many years from the start of a cycle on, years beginning in March. -/
def daysInYears (years : Nat) : Nat := 365 * years + years / 4 - years / 100 + years / 400

/-- The year of the cycle, 0 to 399, that a day of the cycle lies in. -/
def yearOfCycle (day : Nat) : Nat := (day - day / 1460 + day / 36524 - day / 146096) / 365

/-- Days in so many months from March on. -/
def daysInMonths (months : Nat) : Nat := (153 * months + 2) / 5

/-- The month, counted from March as 0, that a day of the year lies in. -/
def monthOfYear (day : Nat) : Nat := (5 * day + 2) / 153

/-- The date so many days after the first of January 1970. -/
def ofDays (days : Nat) : Date :=
  let count := days + daysBefore1970
  let dayOfCycle := count % daysInCycle
  let year := yearOfCycle dayOfCycle
  let dayOfYear := dayOfCycle - daysInYears year
  let month := monthOfYear dayOfYear
  { year := 400 * (count / daysInCycle) + year + (if month < 10 then 0 else 1)
    month := if month < 10 then month + 3 else month - 9
    day := dayOfYear - daysInMonths month + 1 }

end Date

end Snowflake
