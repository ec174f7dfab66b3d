import Mathlib.Algebra.Order.Floor.Div
import Snowflake.Clock.Manual
import Snowflake.Proofs.Clock.Exact

/-!
# Pace: how many parks a wait takes

A wait that returns has passed its tick, whatever the clock does.  Whether it returns, and
after how many parks, is up to how parks move the clock:

    c.Advances (fun _ => 1) s   every park moves it on, so each tick is passed in the end      (Advances.isPast)
    c.Advances id s             each by its whole pause, so one park is enough                 (Advances.isPast_one)
    c.Paced gain s              each by `gain` of its pause exactly, and nothing else moves it

With `min pause cap + extra` for the gain a wait parks up to the start of the next tick in
full steps of `cap + extra`, the last of them cut to what is left (`Paced.endsAfter`).  If
the next tick starts where no clock can read, the wait never ends.
-/

namespace Snowflake

theorem saturate_add (a b : Nat) : saturate (saturate a + b) = saturate (a + b) := by
  unfold saturate
  omega

namespace Clock

variable {σ : Type} {c : Clock σ} {gain : Nat → Nat} {tick resolution : Nat} {s : σ}

/-! ## How a wait ends -/

/-- The wait ends after exactly so many parks; with patience for fewer it is cut short. -/
def EndsAfter (c : Clock σ) (tick resolution : Nat) (s : σ) (parks : Nat) : Prop :=
  ∀ patience,
    let wait := c.waitPast tick resolution patience s
    (parks ≤ patience → wait.parks.length = parks ∧ ∃ t, wait.ending = .reached t)
      ∧ (patience < parks → ∃ pause, wait.ending = .cutShort pause)

/-- The wait goes on parking for as long as there is patience. -/
def NeverEnds (c : Clock σ) (tick resolution : Nat) (s : σ) : Prop :=
  ∀ patience,
    let wait := c.waitPast tick resolution patience s
    wait.parks.length = patience ∧ ∃ pause, wait.ending = .cutShort pause

/-- If the wait ends after a park, then on the first millisecond past the tick. -/
def NeverOversleeps (c : Clock σ) (tick resolution : Nat) (s : σ) : Prop :=
  ∀ patience t,
    let wait := c.waitPast tick resolution patience s
    wait.ending = .reached t → wait.parks ≠ [] → wait.reading = (tick + 1) * max resolution 1

/-- Every wait is the course of waiting up to some park. -/
theorem exists_waitUpTo (c : Clock σ) (tick resolution patience : Nat) (s : σ) :
    ∃ k, (∀ i < k, ¬c.IsPast tick resolution s i)
      ∧ c.waitPast tick resolution patience s = c.waitUpTo tick resolution k s := by
  cases hfirst : c.firstPast? tick resolution patience s with
  | some k =>
    obtain ⟨hk, hpast, hbefore⟩ := (c.firstPast?_eq_some ..).1 hfirst
    exact ⟨k, hbefore, c.waitPast_of_stop _ _ hk hbefore (Or.inl hpast)⟩
  | none =>
    have hnone := (c.firstPast?_eq_none ..).1 hfirst
    have hbefore : ∀ i < patience, ¬c.IsPast tick resolution s i := fun i hi => hnone i (Nat.le_of_lt hi)
    exact ⟨patience, hbefore, c.waitPast_of_stop _ _ (Nat.le_refl _) hbefore (Or.inr rfl)⟩

/-- A wait ends with the park before the first reading past the tick. -/
theorem endsAfter_of_first {k : Nat} (hpast : c.IsPast tick resolution s k)
    (hbefore : ∀ i < k, ¬c.IsPast tick resolution s i) : c.EndsAfter tick resolution s k := by
  intro patience
  constructor
  · intro hk
    have hwait := c.waitPast_of_stop tick resolution hk hbefore (Or.inl hpast)
    rw [hwait, waitUpTo_of_past c tick resolution hpast]
    exact ⟨by simp, _, rfl⟩
  · intro hk
    have hwait := c.waitPast_of_stop tick resolution (Nat.le_refl patience)
      (fun i hi => hbefore i (by omega)) (Or.inr rfl)
    rw [hwait, waitUpTo_of_not_past c tick resolution (hbefore patience hk)]
    exact ⟨_, rfl⟩

theorem neverEnds_of_lt (hlt : wordMax < (tick + 1) * max resolution 1) : c.NeverEnds tick resolution s := by
  have hnever : ∀ i, ¬c.IsPast tick resolution s i := by
    intro i hpast
    have := c.le_wordMax_of_isPast tick resolution hpast
    omega
  intro patience
  have hwait := c.waitPast_of_stop tick resolution (Nat.le_refl patience) (fun i _ => hnever i) (Or.inr rfl)
  rw [hwait, waitUpTo_of_not_past c tick resolution (hnever patience)]
  exact ⟨by simp, _, rfl⟩

/-- Each pause is asked for on the reading before it, up to the start of the next tick. -/
theorem parks_waitPast (c : Clock σ) (tick resolution patience : Nat) (s : σ) :
    let wait := c.waitPast tick resolution patience s
    wait.parks = wait.earlier.map (pauseUntilPast tick resolution)
      ∧ ∀ pause, wait.ending = .cutShort pause → pause = pauseUntilPast tick resolution wait.reading := by
  obtain ⟨k, -, hwait⟩ := c.exists_waitUpTo tick resolution patience s
  rw [hwait]
  constructor
  · exact (List.map_map ..).symm
  · intro pause hcut
    by_cases hpast : c.IsPast tick resolution s k
    · rw [waitUpTo_of_past c tick resolution hpast] at hcut
      cases hcut
    · rw [waitUpTo_of_not_past c tick resolution hpast] at hcut ⊢
      cases hcut
      rfl

theorem waitPast_of_lt (h : tick < tickAt resolution (c.read s).1) (patience : Nat) :
    c.waitPast tick resolution patience s
      = { ending := .reached (tickAt resolution (c.read s).1), reading := (c.read s).1, clock := (c.read s).2 } := by
  unfold waitPast
  exact if_pos h

/-! ## Clocks that parks move on -/

/-- Every park from here on moves the clock on by at least `gain` of its pause, as far as it can read. -/
def Advances (c : Clock σ) (gain : Nat → Nat) (s : σ) : Prop :=
  ∀ uses pause, 0 < pause →
    let s' := c.used uses s
    saturate ((c.read s').1 + gain pause) ≤ (c.read (c.park pause (c.read s').2)).1

theorem Advances.read (h : c.Advances gain s) : c.Advances gain (c.read s).2 := fun uses => h (.read :: uses)

theorem Advances.afterPause (h : c.Advances gain s) : c.Advances gain (c.afterPause tick resolution s) :=
  fun uses => h (.read :: .park (pauseUntilPast tick resolution (c.read s).1) :: uses)

theorem Advances.waitReading_succ (h : c.Advances gain s) (tick resolution i : Nat) :
    saturate (c.waitReading tick resolution s i + gain (c.waitPause tick resolution s i))
      ≤ c.waitReading tick resolution s (i + 1) := by
  induction i generalizing s with
  | zero => exact h [] _ (pauseUntilPast_pos ..)
  | succ i ih => exact ih h.afterPause

/-- After `i` parks the clock is `i` milliseconds on, or past the tick. -/
theorem Advances.le_waitReading (h : c.Advances (fun _ => 1) s) (hle : (tick + 1) * max resolution 1 ≤ wordMax)
    (i : Nat) : min ((tick + 1) * max resolution 1) ((c.read s).1 + i) ≤ c.waitReading tick resolution s i := by
  induction i with
  | zero => exact Nat.min_le_right ..
  | succ i ih =>
    have hnext := h.waitReading_succ tick resolution i
    unfold saturate at hnext
    omega

/-- A clock that every park moves on gets past any tick, if it can read the start of the next one. -/
theorem Advances.isPast (h : c.Advances (fun _ => 1) s) (hle : (tick + 1) * max resolution 1 ≤ wordMax) :
    c.IsPast tick resolution s ((tick + 1) * max resolution 1 - (c.read s).1) := by
  have hreading := h.le_waitReading hle ((tick + 1) * max resolution 1 - (c.read s).1)
  rw [isPast_iff]
  omega

/-- A clock that moves on by whole pauses gets past it with one park. -/
theorem Advances.isPast_one (h : c.Advances id s) (hle : (tick + 1) * max resolution 1 ≤ wordMax) :
    c.IsPast tick resolution s 1 := by
  have hnext := h.waitReading_succ tick resolution 0
  rw [isPast_iff]
  unfold saturate waitPause pauseUntilPast at hnext
  rw [boundary_eq, Nat.min_eq_right hle] at hnext
  simp only [id, Nat.zero_add] at hnext
  omega

/-! ## Clocks that parks move at a pace -/

/-- How far these uses move a clock whose parks move it by `gain` of their pauses. -/
def gains (gain : Nat → Nat) : List Use → Nat
  | [] => 0
  | .read :: uses => gains gain uses
  | .park pause :: uses => gain pause + gains gain uses

/-- From here on parks alone move the clock, each by `gain` of its pause, as far as the clock can read. -/
def Paced (c : Clock σ) (gain : Nat → Nat) (s : σ) : Prop :=
  ∀ uses, (c.read (c.used uses s)).1 = saturate ((c.read s).1 + gains gain uses)

namespace Paced

theorem read_read (h : c.Paced gain s) : (c.read (c.read s).2).1 = (c.read s).1 :=
  (h [.read]).trans (saturate_of_le (c.read_le s))

theorem read (h : c.Paced gain s) : c.Paced gain (c.read s).2 := by
  intro uses
  rw [h.read_read]
  exact h (.read :: uses)

theorem read_park (h : c.Paced gain s) (pause : Nat) :
    (c.read (c.park pause s)).1 = saturate ((c.read s).1 + gain pause) := h [.park pause]

theorem park (h : c.Paced gain s) (pause : Nat) : c.Paced gain (c.park pause s) := by
  intro uses
  rw [h.read_park, saturate_add, Nat.add_assoc]
  exact h (.park pause :: uses)

theorem used (h : c.Paced gain s) (uses : List Use) : c.Paced gain (c.used uses s) := by
  induction uses generalizing s with
  | nil => exact h
  | cons use uses ih =>
    cases use with
    | read => exact ih h.read
    | park pause => exact ih (h.park pause)

theorem advances (h : c.Paced gain s) {least : Nat → Nat} (hleast : ∀ pause, 0 < pause → least pause ≤ gain pause) :
    c.Advances least s := by
  intro uses pause hpause s'
  have hs' : c.Paced gain s' := h.used uses
  have hgain := hleast pause hpause
  rw [hs'.read.read_park, hs'.read_read]
  unfold saturate
  omega

/-- A clock that moves by whole pauses is exact. -/
theorem exact (h : c.Paced id s) : c.Exact s := by
  intro uses hle
  have hsum : gains id uses = pauses uses := by
    clear hle
    induction uses with
    | nil => rfl
    | cons use uses ih => cases use <;> simp [gains, pauses, Use.pause, ih]
  rw [h uses, hsum, saturate_of_le hle]

theorem waitReading_succ (h : c.Paced gain s) (i : Nat) :
    c.waitReading tick resolution s (i + 1)
      = saturate (c.waitReading tick resolution s i + gain (c.waitPause tick resolution s i)) := by
  induction i generalizing s with
  | zero =>
    show (c.read (c.park _ (c.read s).2)).1 = _
    rw [h.read.read_park, h.read_read]
    rfl
  | succ i ih => exact ih (h.read.park _)

/-- A clock that no park moves by more than its pause is never parked past the start of the next tick. -/
theorem neverOversleeps (h : c.Paced gain s) (hgain : ∀ pause, gain pause ≤ pause) :
    c.NeverOversleeps tick resolution s := by
  intro patience t wait hreached hparks
  obtain ⟨k, hbefore, hwait⟩ := c.exists_waitUpTo tick resolution patience s
  have hpast : c.IsPast tick resolution s k := by
    by_contra hnot
    rw [show wait = _ from hwait, waitUpTo_of_not_past c tick resolution hnot] at hreached
    cases hreached
  rw [show wait = _ from hwait] at hparks ⊢
  cases k with
  | zero => exact absurd rfl hparks
  | succ i =>
    -- one park before it the clock was short of the tick's end, and the park asked for no more than that
    have hle := c.le_wordMax_of_isPast tick resolution hpast
    have hshort := hbefore i (Nat.lt_succ_self i)
    have hpause := hgain (c.waitPause tick resolution s i)
    show c.waitReading tick resolution s (i + 1) = _
    rw [isPast_iff] at hpast hshort
    rw [h.waitReading_succ] at hpast ⊢
    unfold waitPause pauseUntilPast at hpast hpause ⊢
    rw [boundary_eq, Nat.min_eq_right hle] at hpast hpause ⊢
    unfold saturate at hpast ⊢
    omega

section Capped

variable {cap extra : Nat} (h : c.Paced (fun pause => min pause cap + extra) s)
  (hle : (tick + 1) * max resolution 1 ≤ wordMax)

include h hle

/-- While more than a full step is missing, every park is a full step. -/
theorem waitReading_of_lt (i : Nat) (hi : i * (cap + extra) < (tick + 1) * max resolution 1 - (c.read s).1) :
    c.waitReading tick resolution s i = (c.read s).1 + i * (cap + extra) := by
  induction i with
  | zero => simp [waitReading, waiting]
  | succ i ih =>
    rw [Nat.succ_mul i] at hi ⊢
    have hprev := ih (by omega)
    rw [h.waitReading_succ]
    unfold waitPause pauseUntilPast
    rw [boundary_eq, Nat.min_eq_right hle, hprev]
    unfold saturate
    omega

/-- When no more than a full step is missing, one park is enough. -/
theorem le_waitReading_succ (i : Nat) (hi : i * (cap + extra) < (tick + 1) * max resolution 1 - (c.read s).1)
    (hlast : (tick + 1) * max resolution 1 - (c.read s).1 ≤ (i + 1) * (cap + extra)) :
    (tick + 1) * max resolution 1 ≤ c.waitReading tick resolution s (i + 1) := by
  have hprev := h.waitReading_of_lt hle i hi
  rw [Nat.succ_mul i] at hlast
  rw [h.waitReading_succ]
  unfold waitPause pauseUntilPast
  rw [boundary_eq, Nat.min_eq_right hle, hprev]
  unfold saturate
  omega

/-- A wait takes as many parks as full steps go into what is missing, and one more for a rest. -/
theorem endsAfter (hpos : 0 < cap + extra) :
    c.EndsAfter tick resolution s (((tick + 1) * max resolution 1 - (c.read s).1) ⌈/⌉ (cap + extra)) := by
  have hceil : ∀ i, i < ((tick + 1) * max resolution 1 - (c.read s).1) ⌈/⌉ (cap + extra)
      ↔ i * (cap + extra) < (tick + 1) * max resolution 1 - (c.read s).1 := by
    intro i
    rw [← Nat.not_le, ceilDiv_le_iff_le_mul hpos, Nat.not_le, Nat.mul_comm i]
  apply endsAfter_of_first
  · rw [isPast_iff]
    cases hk : ((tick + 1) * max resolution 1 - (c.read s).1) ⌈/⌉ (cap + extra) with
    | zero =>
      have hnone := hceil 0
      rw [hk] at hnone
      show _ ≤ (c.read s).1
      omega
    | succ i =>
      have hi := hceil i
      have hlast := hceil (i + 1)
      rw [hk] at hi hlast
      exact h.le_waitReading_succ hle i (hi.1 (Nat.lt_succ_self i)) (by omega)
  · intro i hi hpast
    rw [hceil] at hi
    rw [isPast_iff, h.waitReading_of_lt hle i hi] at hpast
    omega

end Capped

/-- No pause is longer than a word, so a cap of that size is none. -/
theorem capped {extra : Nat} (h : c.Paced (· + extra) s) : c.Paced (fun pause => min pause wordMax + extra) s := by
  have hsum : ∀ uses m, saturate (m + gains (· + extra) uses)
      = saturate (m + gains (fun pause => min pause wordMax + extra) uses) := by
    intro uses
    induction uses with
    | nil => intro m; rfl
    | cons use uses ih =>
      intro m
      cases use with
      | read => exact ih m
      | park pause =>
        have hrest := ih (m + (pause + extra))
        simp only [gains]
        unfold saturate at hrest ⊢
        omega
  intro uses
  rw [h uses, hsum]

/-- Without a cap one park is enough. -/
theorem exists_endsAfter {extra : Nat} (h : c.Paced (· + extra) s) (hle : (tick + 1) * max resolution 1 ≤ wordMax) :
    ∃ parks, parks ≤ 1 ∧ c.EndsAfter tick resolution s parks := by
  have hpos : 0 < wordMax + extra := Nat.lt_of_lt_of_le (by decide : 0 < wordMax) (Nat.le_add_right ..)
  refine ⟨_, ?_, h.capped.endsAfter hle hpos⟩
  rw [ceilDiv_le_iff_le_mul hpos]
  omega

end Paced

end Clock

/-! ## Clocks moved by hand -/

namespace ManualClock

/-- Without a script, a clock moved by hand goes at the pace that its cap and extra set. -/
theorem paced {c : ManualClock} {cap : Option Nat} {extra : Nat} (hcap : c.cap = cap) (hextra : c.extra = extra)
    (hscript : c.script = []) :
    clock.Paced (fun pause => (cap.map (min pause)).getD pause + extra) c := by
  intro uses
  induction uses generalizing c with
  | nil => exact (saturate_of_le c.reading_le).symm
  | cons use uses ih =>
    cases use with
    | read => exact ih hcap hextra hscript
    | park pause =>
      have hpark : c.park pause = c.set (c.advanced pause) := by simp [ManualClock.park, hscript]
      have hmoved : (c.park pause).reading
          = saturate (c.reading + ((cap.map (min pause)).getD pause + extra)) := by
        rw [hpark, ← hcap, ← hextra]
        simp only [set, advanced, saturate]
        omega
      have hrest := @ih (c.park pause) (by rw [hpark]; exact hcap) (by rw [hpark]; exact hextra)
        (by rw [hpark]; exact hscript)
      show (clock.read (clock.used uses (c.park pause))).1 = _
      rw [hrest]
      show saturate ((c.park pause).reading + _) = _
      rw [hmoved, saturate_add, Nat.add_assoc]
      rfl

/-- Without script, cap and extra, parks alone move the clock. -/
theorem exact_steady (reading : Nat) : clock.Exact (steady reading) :=
  Clock.Paced.exact (paced rfl rfl rfl)

end ManualClock

namespace Clock

variable {σ : Type}

/-- **Waits.**  On any clock, a wait that returns gives the tick of its last reading, which is past
the one waited for; it has not parked if the first reading was.  Each pause goes up to the start of
the next tick, cut off where a clock cannot read, and is at least a millisecond.  Where the start can
be read and parks alone move the clock, by `min pause cap + extra`, the wait takes the missing
milliseconds divided by `cap + extra` and rounded up many parks, or one at most if there is no cap,
and without an extra it ends on the start exactly.  Where the start cannot be read, no wait ends. -/
theorem wait_passes_tick (c : Clock σ) (tick resolution : Nat) (s : σ) :
    let r := max resolution 1
    let stop := (tick + 1) * r
    let first := (c.read s).1
    (∀ patience,
        let wait := c.waitPast tick resolution patience s
        (∀ t, wait.ending = .reached t → t = wait.reading / r ∧ tick < t)
          ∧ (tick < first / r → wait.ending = .reached (first / r) ∧ wait.parks = [])
          ∧ wait.parks = wait.earlier.map (fun reading => max 1 (min wordMax stop - reading))
          ∧ ∀ pause, wait.ending = .cutShort pause → pause = max 1 (min wordMax stop - wait.reading))
      ∧ (stop ≤ wordMax →
          (∀ cap extra, 0 < cap + extra → c.Paced (fun pause => min pause cap + extra) s →
              c.EndsAfter tick resolution s ((stop - first) ⌈/⌉ (cap + extra))
                ∧ (extra = 0 → c.NeverOversleeps tick resolution s))
            ∧ ∀ extra, c.Paced (· + extra) s →
              (∃ parks, parks ≤ 1 ∧ c.EndsAfter tick resolution s parks)
                ∧ (extra = 0 → c.NeverOversleeps tick resolution s))
      ∧ (wordMax < stop → c.NeverEnds tick resolution s) := by
  intro r stop first
  refine ⟨fun patience => ⟨?_, ?_, ?_⟩, fun hle => ⟨?_, ?_⟩, neverEnds_of_lt⟩
  · intro t ht
    exact c.waitPast_reached ht
  · intro hpast
    rw [waitPast_of_lt hpast]
    exact ⟨rfl, rfl⟩
  · have hpause : pauseUntilPast tick resolution = fun reading => max 1 (min wordMax stop - reading) := by
      funext reading
      unfold pauseUntilPast
      rw [boundary_eq]
      exact Nat.max_comm ..
    rw [← hpause]
    obtain ⟨hparks, hcut⟩ := c.parks_waitPast tick resolution patience s
    refine ⟨hparks, fun pause h => ?_⟩
    rw [hcut pause h]
    exact congrFun hpause _
  · intro cap extra hpos hpaced
    refine ⟨hpaced.endsAfter hle hpos, ?_⟩
    rintro rfl
    exact hpaced.neverOversleeps fun pause => Nat.min_le_left ..
  · intro extra hpaced
    refine ⟨hpaced.exists_endsAfter hle, ?_⟩
    rintro rfl
    exact hpaced.neverOversleeps fun pause => Nat.le_refl _

/-- From the middle of a second, parks of 107 ms at most take 7 rounds and oversleep; on the last second
that a clock can read the same clock waits for ever, and waiting for a millisecond with resolution 0 an
exact clock parks once. -/
theorem wait_in_short_steps :
    let c : ManualClock := { reading := 12345, cap := some 100, extra := 7, reading_le := by decide }
    let wait := ManualClock.clock.waitPast 12 1000 7 c
    let exactly : ManualClock := .steady 12345
    ManualClock.clock.Paced (fun pause => min pause 100 + 7) c
      ∧ ManualClock.clock.EndsAfter 12 1000 c 7
      ∧ wait.parks = [655, 548, 441, 334, 227, 120, 13] ∧ wait.reading = 13007 ∧ wait.ending = .reached 13 ∧ 12 < 13
      ∧ ManualClock.clock.NeverEnds 18446744073709551 1000 c
      ∧ ManualClock.clock.Paced (· + 0) exactly
      ∧ (ManualClock.clock.waitPast 20000 0 1 exactly).parks = [7656]
      ∧ (ManualClock.clock.waitPast 20000 0 1 exactly).reading = 20001 := by
  obtain ⟨hwait, hpace, -⟩ := wait_passes_tick ManualClock.clock 12 1000 ⟨12345, some 100, 7, [], by decide⟩
  obtain ⟨-, -, hnever⟩ :=
    wait_passes_tick ManualClock.clock 18446744073709551 1000 ⟨12345, some 100, 7, [], by decide⟩
  obtain ⟨-, hone, -⟩ := wait_passes_tick ManualClock.clock 20000 0 (.steady 12345)
  obtain ⟨hends, -⟩ := (hpace (by decide)).1 100 7 (by decide) (ManualClock.paced rfl rfl rfl)
  obtain ⟨-, hstop⟩ := (hone (by decide)).2 0 (ManualClock.paced rfl rfl rfl)
  have hseven : (655 : Nat) ⌈/⌉ 107 = 7 := by decide
  have hreading := hstop rfl 1 20001 rfl (List.cons_ne_nil 7656 [])
  exact ⟨ManualClock.paced rfl rfl rfl, hseven ▸ hends, rfl, rfl, rfl, ((hwait 7).1 13 rfl).2, hnever (by decide),
    ManualClock.paced rfl rfl rfl, rfl, hreading⟩

end Clock

end Snowflake
