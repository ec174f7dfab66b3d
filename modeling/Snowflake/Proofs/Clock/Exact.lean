import Snowflake.Proofs.Clock.Waiting

/-!
# Clocks that parks alone move, and exactly

`c.Exact s` says that from the state `s` on the clock stands still but for its parks, and
that each of them moves it by just the pause, as far as a clock can read.  Such a clock is
waited on with one park, which ends on the first millisecond past the tick:

    c.StandsAt m s → tickAt r m ≤ tick → (tick + 1) * r ≤ wordMax →
      c.firstPast? tick r patience s = some 1                            (firstPast?_of_standsAt)

and where that millisecond is out of a clock's reach, no clock passes the tick at all
(`le_of_isPast`).
-/

namespace Snowflake

/-- What can be done to a clock. -/
inductive Clock.Use where
  | read
  | park (pause : Nat)

namespace Clock

variable {σ : Type}

/-- How far a clock is to move in a use. -/
def Use.pause : Use → Nat
  | read => 0
  | park pause => pause

/-- How far a clock is to move in all these uses. -/
def pauses : List Use → Nat
  | [] => 0
  | use :: uses => use.pause + pauses uses

/-- The clock after these uses, in order. -/
def used (c : Clock σ) : List Use → σ → σ
  | [], s => s
  | .read :: uses, s => c.used uses (c.read s).2
  | .park pause :: uses, s => c.used uses (c.park pause s)

/-- Whatever is read and parked from here on: the clock reads what it reads now and the pauses since. -/
def Exact (c : Clock σ) (s : σ) : Prop :=
  ∀ uses : List Use, (c.read s).1 + pauses uses ≤ wordMax →
    (c.read (c.used uses s)).1 = (c.read s).1 + pauses uses

/-- The clock reads `m`, and from here on parks alone move it. -/
structure StandsAt (c : Clock σ) (m : Nat) (s : σ) : Prop where
  exact : c.Exact s
  read_eq : (c.read s).1 = m

variable {c : Clock σ} {m : Nat} {s : σ}

/-! ## Readings and parks -/

theorem Exact.standsAt (h : c.Exact s) : c.StandsAt (c.read s).1 s := ⟨h, rfl⟩

theorem StandsAt.le (h : c.StandsAt m s) : m ≤ wordMax := h.read_eq ▸ c.read_le s

/-- Reading the clock does not move it. -/
theorem StandsAt.read (h : c.StandsAt m s) : c.StandsAt m (c.read s).2 := by
  have hread : (c.read (c.read s).2).1 = (c.read s).1 := by
    have := h.exact [.read] (by simpa [pauses, Use.pause] using c.read_le s)
    simpa [used, pauses, Use.pause] using this
  refine ⟨fun uses hle => ?_, hread.trans h.read_eq⟩
  rw [hread] at hle ⊢
  have := h.exact (.read :: uses) (by simpa [pauses, Use.pause] using hle)
  simpa [used, pauses, Use.pause] using this

/-- A park moves the clock by the pause. -/
theorem StandsAt.park (h : c.StandsAt m s) {pause : Nat} (hle : m + pause ≤ wordMax) :
    c.StandsAt (m + pause) (c.park pause s) := by
  have hm := h.read_eq
  have hpark : (c.read (c.park pause s)).1 = m + pause := by
    have := h.exact [.park pause] (by simpa [pauses, Use.pause, hm] using hle)
    simpa [used, pauses, Use.pause, hm] using this
  refine ⟨fun uses hsum => ?_, hpark⟩
  rw [hpark] at hsum ⊢
  have := h.exact (.park pause :: uses) (by simpa [pauses, Use.pause, hm, Nat.add_assoc] using hsum)
  simpa [used, pauses, Use.pause, hm, Nat.add_assoc] using this

/-! ## Waiting -/

variable {tick resolution : Nat}

theorem tickAt_mul (h : 0 < resolution) (n : Nat) : tickAt resolution (n * resolution) = n := by
  rw [tickAt_of_pos h, Nat.mul_div_cancel _ h]

/-- A reading is not past a tick if it comes before the next one starts. -/
theorem tickAt_le_iff (h : 0 < resolution) : tickAt resolution m ≤ tick ↔ m < (tick + 1) * resolution := by
  rw [← Nat.not_lt, lt_tickAt_iff, Nat.max_eq_left h, Nat.not_le]

theorem boundary_of_le (h : 0 < resolution) (hle : (tick + 1) * resolution ≤ wordMax) :
    boundary tick resolution = (tick + 1) * resolution := by
  rw [boundary_eq, Nat.max_eq_left h, Nat.min_eq_right hle]

/-- Past a tick there is a reading only if a clock can read the start of the next one. -/
theorem le_of_isPast (h : 0 < resolution) {i : Nat} (hpast : c.IsPast tick resolution s i) :
    (tick + 1) * resolution ≤ wordMax := by
  have hle := c.le_wordMax_of_isPast tick resolution hpast
  rwa [Nat.max_eq_left h] at hle

theorem waitPause_of_standsAt (h : c.StandsAt m s) (hpos : 0 < resolution) (hbehind : tickAt resolution m ≤ tick)
    (hle : (tick + 1) * resolution ≤ wordMax) :
    c.waitPause tick resolution s 0 = (tick + 1) * resolution - m := by
  have hlt := (tickAt_le_iff hpos).1 hbehind
  have hread : c.waitReading tick resolution s 0 = m := h.read_eq
  unfold waitPause pauseUntilPast
  rw [hread, boundary_of_le hpos hle]
  omega

/-- After one park the clock stands at the start of the next tick. -/
theorem waiting_of_standsAt (h : c.StandsAt m s) (hpos : 0 < resolution) (hbehind : tickAt resolution m ≤ tick)
    (hle : (tick + 1) * resolution ≤ wordMax) :
    c.StandsAt ((tick + 1) * resolution) (c.waiting tick resolution 1 s) := by
  have hlt := (tickAt_le_iff hpos).1 hbehind
  have hsum : m + ((tick + 1) * resolution - m) = (tick + 1) * resolution := by omega
  have hpark : c.StandsAt (m + ((tick + 1) * resolution - m)) _ := h.read.park (by omega)
  rw [hsum] at hpark
  have hpause := waitPause_of_standsAt h hpos hbehind hle
  show c.StandsAt _ (c.park (c.waitPause tick resolution s 0) (c.read s).2)
  rw [hpause]
  exact hpark

/-- One park is enough to pass a tick. -/
theorem firstPast?_of_standsAt (h : c.StandsAt m s) (hpos : 0 < resolution) (hbehind : tickAt resolution m ≤ tick)
    (hle : (tick + 1) * resolution ≤ wordMax) {patience : Nat} (hpatience : 0 < patience) :
    c.firstPast? tick resolution patience s = some 1 := by
  have hstands := waiting_of_standsAt h hpos hbehind hle
  rw [firstPast?_eq_some]
  refine ⟨hpatience, ?_, fun i hi => ?_⟩
  · unfold IsPast waitReading
    rw [hstands.read_eq, tickAt_mul hpos]
    omega
  · obtain rfl : i = 0 := by omega
    have hread : c.waitReading tick resolution s 0 = m := h.read_eq
    unfold IsPast
    rw [hread]
    omega

end Clock

end Snowflake
