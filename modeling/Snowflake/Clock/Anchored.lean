import Snowflake.Clock.Basic

/-!
# Clocks that never go back

An anchored clock takes the time once, from a clock that may be set, and from then on
counts on by a clock of elapsed time. Whatever the first clock is set to later does not
move it. Its readings end with the greatest word; a plain sum of words would pass it where
the anchor and the elapsed time together do, half a billion years from now.
-/

namespace Snowflake.Clock

variable {σ : Type}

/-- The clock that stood at `anchor` when the elapsed time was zero. -/
def anchored (elapsed : Clock σ) (anchor : Nat) : Clock σ where
  read s := (saturate (anchor + (elapsed.read s).1), (elapsed.read s).2)
  park := elapsed.park
  read_le _ := saturate_le _

end Snowflake.Clock
