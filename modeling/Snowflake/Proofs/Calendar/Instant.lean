import Snowflake.Calendar.Instant
import Snowflake.Proofs.Calendar.Date
import Snowflake.Proofs.Text.Plain

/-!
# Instants: what a calendar is relied on for

`Tells text millis` says that the text is that of a day of the calendar and a time of day,
and that these come so many milliseconds after 1970 began.  A calendar is relied on to have a
text for every instant of the years that have four digits, and to give no text but one that
tells its instant (`Calendar.Reliable`):

    millis ≤ endOf9999        → ∃ text, calendar millis = some text
    calendar millis = some text → Tells text millis

That such a text stands in a field of its own (`Tells.plain`) and is not the mark of a missing
one (`Tells.ne_outOfRange`) follows.  The Gregorian calendar is reliable (`gregorian_reliable`).
-/

namespace Snowflake

namespace Instant

/-- A time of day, in its hour, minute, second and millisecond. -/
structure TimeOfDay where
  hour : Nat
  minute : Nat
  second : Nat
  fraction : Nat
  hour_lt : hour < 24
  minute_lt : minute < 60
  second_lt : second < 60
  fraction_lt : fraction < 1000

namespace TimeOfDay

/-- Milliseconds since the day began. -/
def millis (time : TimeOfDay) : Nat := ((time.hour * 60 + time.minute) * 60 + time.second) * 1000 + time.fraction

def text (time : TimeOfDay) : String :=
  let hour := Text.Decimal.writePadded 2 time.hour
  let minute := Text.Decimal.writePadded 2 time.minute
  let second := Text.Decimal.writePadded 2 time.second
  let fraction := Text.Decimal.writePadded 3 time.fraction
  s!"{hour}:{minute}:{second}.{fraction}"

/-- The time of day that a millisecond of the day lies at. -/
def ofMillis (millis : Nat) (h : millis < millisInDay) : TimeOfDay where
  hour := millis / 3600000
  minute := millis / 60000 % 60
  second := millis / 1000 % 60
  fraction := millis % 1000
  hour_lt := by
    unfold millisInDay at h
    omega
  minute_lt := Nat.mod_lt _ (by decide)
  second_lt := Nat.mod_lt _ (by decide)
  fraction_lt := Nat.mod_lt _ (by decide)

theorem millis_ofMillis {m : Nat} (h : m < millisInDay) : (ofMillis m h).millis = m := by
  show ((m / 3600000 * 60 + m / 60000 % 60) * 60 + m / 1000 % 60) * 1000 + m % 1000 = m
  omega

theorem text_ofMillis {m : Nat} (h : m < millisInDay) : (ofMillis m h).text = timeText m := rfl

end TimeOfDay

/-- The last millisecond of the year 9999. -/
def endOf9999 : Nat := 253402300799999

/-- The text is that of a day of the calendar and a time of day, so many milliseconds after 1970 began. -/
def Tells (s : String) (millis : Nat) : Prop :=
  ∃ (date : Date) (time : TimeOfDay), date.Valid
    ∧ Date.dayNumber ⟨1970, 1, 1⟩ * millisInDay + millis = date.dayNumber * millisInDay + time.millis
    ∧ s = s!"{dateText date}T{time.text}Z"

/-- Every instant is told by its text. -/
theorem text_tells (millis : Nat) : Tells (text millis) millis := by
  have hlt : millis % millisInDay < millisInDay := Nat.mod_lt _ (by decide)
  obtain ⟨hvalid, hnumber⟩ := Date.ofDays_spec (millis / millisInDay)
  refine ⟨Date.ofDays (millis / millisInDay), .ofMillis _ hlt, hvalid, ?_, ?_⟩
  · rw [hnumber, TimeOfDay.millis_ofMillis, Nat.add_mul, Nat.add_assoc, Nat.div_add_mod']
  · unfold text
    rw [TimeOfDay.text_ofMillis]

/-- The year 10000 begins with the next millisecond. -/
example : text endOf9999 = "9999-12-31T23:59:59.999Z" ∧ text (endOf9999 + 1) = "+10000-01-01T00:00:00.000Z" := by
  decide +kernel

/-! ## In a field of a line -/

theorem plain_yearText (year : Nat) : Text.Plain (yearText year) := by
  unfold yearText
  split
  · exact Text.plain_writePadded ..
  · exact Text.plain_append.2 ⟨(by decide : Text.Plain "+"), Text.plain_write _⟩

theorem plain_dateText (date : Date) : Text.Plain (dateText date) := by
  have hdash : Text.Plain "-" := by decide
  unfold dateText
  simp only [toString, Text.plain_append]
  exact ⟨⟨⟨⟨plain_yearText _, hdash⟩, Text.plain_writePadded ..⟩, hdash⟩, Text.plain_writePadded ..⟩

theorem TimeOfDay.plain_text (time : TimeOfDay) : Text.Plain time.text := by
  have hcolon : Text.Plain ":" := by decide
  have hpoint : Text.Plain "." := by decide
  unfold text
  simp only [toString, Text.plain_append]
  exact ⟨⟨⟨⟨⟨⟨Text.plain_writePadded .., hcolon⟩, Text.plain_writePadded ..⟩, hcolon⟩, Text.plain_writePadded ..⟩,
    hpoint⟩, Text.plain_writePadded ..⟩

namespace Tells

variable {s : String} {millis : Nat}

theorem plain (h : Tells s millis) : Text.Plain s := by
  obtain ⟨date, time, -, -, rfl⟩ := h
  simp only [toString, Text.plain_append]
  exact ⟨⟨⟨plain_dateText _, by decide⟩, time.plain_text⟩, by decide⟩

/-- The text of an instant ends with the mark of universal time. -/
theorem mem (h : Tells s millis) : 'Z' ∈ s.toList := by
  obtain ⟨date, time, -, -, rfl⟩ := h
  show 'Z' ∈ (dateText date ++ "T" ++ time.text ++ "Z").toList
  rw [String.toList_append]
  exact List.mem_append_right _ (List.mem_singleton_self _)

theorem ne_outOfRange (h : Tells s millis) : s ≠ "out-of-range" := by
  rintro rfl
  exact absurd h.mem (by decide)

end Tells

end Instant

/-! ## Calendars -/

/-- What a calendar is relied on for. -/
structure Calendar.Reliable (calendar : Calendar) : Prop where
  /-- No instant of a year of four digits is without a text. -/
  exists_text : ∀ millis ≤ Instant.endOf9999, ∃ text, calendar millis = some text
  tells : ∀ millis text, calendar millis = some text → Instant.Tells text millis

theorem Calendar.gregorian_eq_some {millis : Nat} {text : String} :
    gregorian millis = some text ↔ millis ≤ Instant.lastMillis ∧ Instant.text millis = text := by
  unfold gregorian
  split
  · next h => rw [Option.some.injEq, and_iff_right h]
  · next h => exact iff_of_false nofun fun hsome => h hsome.1

theorem Calendar.gregorian_reliable : gregorian.Reliable where
  exists_text millis h :=
    ⟨_, gregorian_eq_some.2 ⟨Nat.le_trans h (by decide : Instant.endOf9999 ≤ Instant.lastMillis), rfl⟩⟩
  tells millis text h := by
    obtain ⟨-, rfl⟩ := gregorian_eq_some.1 h
    exact Instant.text_tells millis

end Snowflake
