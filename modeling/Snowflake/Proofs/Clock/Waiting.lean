import Snowflake.Clock.Wait

/-!
# Waiting: the course of a wait, reading by reading

A wait that were never to end would read and park in turn for ever; `waitReading i` is
the reading it takes after `i` parks and `waitPause i` the pause it then asks for.  A
real wait is the beginning of this one, up to the first reading past the tick or up to
the last park that there is patience for:

    k ≤ patience → (no reading before k is past) → (reading k is past ∨ k = patience) →
      c.waitPast tick resolution patience s = c.waitUpTo tick resolution k s   (waitPast_of_stop)
-/

namespace Snowflake.Clock

variable {σ : Type} (c : Clock σ) (tick resolution : Nat)

/-- The clock after a reading and the pause that a wait asks for on it. -/
def afterPause (s : σ) : σ := c.park (pauseUntilPast tick resolution (c.read s).1) (c.read s).2

/-- The clock of an endless wait after so many parks. -/
def waiting : Nat → σ → σ
  | 0, s => s
  | i + 1, s => waiting i (c.afterPause tick resolution s)

/-- The reading of an endless wait after `i` parks. -/
def waitReading (s : σ) (i : Nat) : Nat := (c.read (c.waiting tick resolution i s)).1

/-- The pause that an endless wait asks for after `i` parks. -/
def waitPause (s : σ) (i : Nat) : Nat := pauseUntilPast tick resolution (c.waitReading tick resolution s i)

/-- The reading after `i` parks is past the tick. -/
def IsPast (s : σ) (i : Nat) : Prop := tick < tickAt resolution (c.waitReading tick resolution s i)

instance (s : σ) (i : Nat) : Decidable (c.IsPast tick resolution s i) := inferInstanceAs (Decidable (_ < _))

/-- The number of parks before the first reading past the tick, if the patience allows so many. -/
def firstPast? (patience : Nat) (s : σ) : Option Nat :=
  (List.range (patience + 1)).find? fun i => c.IsPast tick resolution s i

/-- An endless wait, broken off after `k` parks and one more reading. -/
def waitUpTo (k : Nat) (s : σ) : Wait σ :=
  { ending := if c.IsPast tick resolution s k then
        .reached (tickAt resolution (c.waitReading tick resolution s k))
      else .cutShort (c.waitPause tick resolution s k)
    earlier := (List.range k).map (c.waitReading tick resolution s)
    reading := c.waitReading tick resolution s k
    parks := (List.range k).map (c.waitPause tick resolution s)
    clock := (c.read (c.waiting tick resolution k s)).2 }

/-! ## Lemmas -/

/-- Where a wait parks up to: the start of the next tick, as far as a clock can read. -/
theorem boundary_eq : boundary tick resolution = min wordMax ((tick + 1) * max resolution 1) := by
  have hr : 1 ≤ max resolution 1 := Nat.le_max_right ..
  unfold boundary
  generalize max resolution 1 = r at hr ⊢
  by_cases htick : tick + 1 ≤ wordMax
  · rw [saturate_of_le htick]
    exact Nat.min_comm ..
  · -- the tick count itself is cut off, and the product with it
    have hsat : saturate (tick + 1) = wordMax := Nat.min_eq_right (by omega)
    have hword : wordMax ≤ wordMax * r := Nat.le_mul_of_pos_right _ hr
    have hstop : wordMax ≤ (tick + 1) * r := Nat.le_trans (by omega) (Nat.le_mul_of_pos_right _ hr)
    rw [hsat, Nat.min_eq_left hstop]
    exact Nat.min_eq_right hword

theorem pauseUntilPast_pos (millis : Nat) : 0 < pauseUntilPast tick resolution millis := by
  unfold pauseUntilPast
  omega

theorem lt_tickAt_iff (millis : Nat) : tick < tickAt resolution millis ↔ (tick + 1) * max resolution 1 ≤ millis :=
  Nat.le_div_iff_mul_le (by omega)

theorem isPast_iff {s : σ} {i : Nat} :
    c.IsPast tick resolution s i ↔ (tick + 1) * max resolution 1 ≤ c.waitReading tick resolution s i :=
  lt_tickAt_iff ..

/-- Past a tick there is a reading only if a clock can read the start of the next one. -/
theorem le_wordMax_of_isPast {s : σ} {i : Nat} (h : c.IsPast tick resolution s i) :
    (tick + 1) * max resolution 1 ≤ wordMax :=
  Nat.le_trans ((c.isPast_iff tick resolution).1 h) (c.read_le _)

theorem firstPast?_eq_some {patience k : Nat} {s : σ} :
    c.firstPast? tick resolution patience s = some k
      ↔ k ≤ patience ∧ c.IsPast tick resolution s k ∧ ∀ i < k, ¬ c.IsPast tick resolution s i := by
  unfold firstPast?
  rw [List.find?_range_eq_some]
  simp only [decide_eq_true_eq, List.mem_range, Nat.lt_succ_iff, Bool.not_eq_true', decide_eq_false_iff_not]
  constructor
  · rintro ⟨hpast, hk, hbefore⟩
    exact ⟨hk, hpast, hbefore⟩
  · rintro ⟨hk, hpast, hbefore⟩
    exact ⟨hpast, hk, hbefore⟩

theorem firstPast?_eq_none {patience : Nat} {s : σ} :
    c.firstPast? tick resolution patience s = none ↔ ∀ i ≤ patience, ¬ c.IsPast tick resolution s i := by
  unfold firstPast?
  rw [List.find?_eq_none]
  simp only [decide_eq_true_eq, List.mem_range, Nat.lt_succ_iff]

theorem waitUpTo_of_past {k : Nat} {s : σ} (h : c.IsPast tick resolution s k) :
    c.waitUpTo tick resolution k s
      = { ending := .reached (tickAt resolution (c.waitReading tick resolution s k))
          earlier := (List.range k).map (c.waitReading tick resolution s)
          reading := c.waitReading tick resolution s k
          parks := (List.range k).map (c.waitPause tick resolution s)
          clock := (c.read (c.waiting tick resolution k s)).2 } := by
  unfold waitUpTo
  rw [if_pos h]

theorem waitUpTo_of_not_past {k : Nat} {s : σ} (h : ¬ c.IsPast tick resolution s k) :
    c.waitUpTo tick resolution k s
      = { ending := .cutShort (c.waitPause tick resolution s k)
          earlier := (List.range k).map (c.waitReading tick resolution s)
          reading := c.waitReading tick resolution s k
          parks := (List.range k).map (c.waitPause tick resolution s)
          clock := (c.read (c.waiting tick resolution k s)).2 } := by
  unfold waitUpTo
  rw [if_neg h]

/-- One park on, the course of a wait is that of the wait from there. -/
theorem waitUpTo_succ {k : Nat} {s : σ} :
    c.waitUpTo tick resolution (k + 1) s
      = { c.waitUpTo tick resolution k (c.afterPause tick resolution s) with
          earlier := (c.read s).1
            :: (c.waitUpTo tick resolution k (c.afterPause tick resolution s)).earlier
          parks := pauseUntilPast tick resolution (c.read s).1
            :: (c.waitUpTo tick resolution k (c.afterPause tick resolution s)).parks } := by
  unfold waitUpTo
  rw [List.range_succ_eq_map, List.map_cons, List.map_cons, List.map_map, List.map_map]
  rfl

/-- **Stop.**  A wait is the course of waiting up to where it stops. -/
theorem waitPast_of_stop {k patience : Nat} {s : σ} (hk : k ≤ patience)
    (hbefore : ∀ i < k, ¬ c.IsPast tick resolution s i)
    (hstop : c.IsPast tick resolution s k ∨ k = patience) :
    c.waitPast tick resolution patience s = c.waitUpTo tick resolution k s := by
  induction k generalizing patience s with
  | zero =>
    unfold waitPast
    by_cases hpast : c.IsPast tick resolution s 0
    · rw [waitUpTo_of_past c tick resolution hpast]
      exact if_pos hpast
    · obtain rfl : 0 = patience := hstop.resolve_left hpast
      rw [waitUpTo_of_not_past c tick resolution hpast]
      exact if_neg hpast
  | succ k ih =>
    obtain ⟨patience, rfl⟩ : ∃ n, patience = n + 1 := ⟨patience - 1, by omega⟩
    have h0 : ¬ c.IsPast tick resolution s 0 := hbefore 0 (Nat.succ_pos k)
    have hrest := @ih patience (c.afterPause tick resolution s) (by omega)
      (fun i hi => hbefore (i + 1) (by omega)) (hstop.imp id (by omega))
    rw [waitUpTo_succ, ← hrest]
    conv => lhs; unfold waitPast
    exact if_neg h0

end Snowflake.Clock
