import Snowflake.Calendar.Date
import Snowflake.Text.Decimal

/-!
# Instants: milliseconds since 1970 as a date and a time of day

A calendar is asked for the text of an instant, and may have none. The one given here
follows what `chrono` documents of date-times in universal time, written as RFC 3339 has
it with milliseconds and a `Z`: `2025-01-01T00:00:00.000Z`, a year of more than four digits
with a plus sign in front. Date-times end with the year 262142, so a later instant has no
text.
-/

namespace Snowflake

/-- What gives instants their texts. -/
abbrev Calendar : Type := (millis : Nat) → Option String

namespace Instant

def millisInDay : Nat := 86400000

/-- The last millisecond of the year 262142. -/
def lastMillis : Nat := 8210266876799999

def yearText (year : Nat) : String :=
  if year ≤ 9999 then Text.Decimal.writePadded 4 year else s!"+{Text.Decimal.write year}"

def dateText (date : Date) : String :=
  s!"{yearText date.year}-{Text.Decimal.writePadded 2 date.month}-{Text.Decimal.writePadded 2 date.day}"

/-- The time of day that a millisecond of the day stands for. -/
def timeText (millis : Nat) : String :=
  let hour := Text.Decimal.writePadded 2 (millis / 3600000)
  let minute := Text.Decimal.writePadded 2 (millis / 60000 % 60)
  let second := Text.Decimal.writePadded 2 (millis / 1000 % 60)
  let fraction := Text.Decimal.writePadded 3 (millis % 1000)
  s!"{hour}:{minute}:{second}.{fraction}"

def text (millis : Nat) : String :=
  s!"{dateText (Date.ofDays (millis / millisInDay))}T{timeText (millis % millisInDay)}Z"

end Instant

/-- The Gregorian calendar, up to the last instant that has a date-time. -/
def Calendar.gregorian : Calendar := fun millis =>
  if millis ≤ Instant.lastMillis then some (Instant.text millis) else none

end Snowflake
