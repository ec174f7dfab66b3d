import Snowflake.Clock.Basic

/-!
# A clock moved by hand

`ManualClock` stands still between parks. A park moves it to the next reading on its
script, as long as there is one; after that it moves on by the pause, or by `cap` if that
is less, and then by `extra`. Without script, cap and extra it moves by parks alone and
exactly (`ManualClock.steady`).
-/

namespace Snowflake

structure ManualClock where
  reading : Nat
  /-- The most that a park moves the clock by. -/
  cap : Option Nat := none
  /-- What every park moves the clock by on top. -/
  extra : Nat := 0
  /-- The readings after the next parks. -/
  script : List Nat := []
  reading_le : reading ≤ wordMax

namespace ManualClock

/-- A clock at this reading that parks move exactly. -/
def steady (reading : Nat) : ManualClock := { reading := saturate reading, reading_le := saturate_le _ }

/-- The clock, set to another reading. -/
def set (c : ManualClock) (reading : Nat) : ManualClock :=
  { c with reading := saturate reading, reading_le := saturate_le _ }

/-- The reading after a park that the script does not cover. -/
def advanced (c : ManualClock) (pause : Nat) : Nat :=
  saturate (saturate (c.reading + (c.cap.map (min pause)).getD pause) + c.extra)

def park (pause : Nat) (c : ManualClock) : ManualClock :=
  match c.script with
  | next :: script => { c with reading := saturate next, script, reading_le := saturate_le _ }
  | [] => c.set (c.advanced pause)

def clock : Clock ManualClock where
  read c := (c.reading, c)
  park := park
  read_le c := c.reading_le

end ManualClock

end Snowflake
