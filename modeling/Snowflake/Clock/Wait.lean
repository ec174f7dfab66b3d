import Snowflake.Clock.Basic

/-!
# Waiting for a tick to pass

`waitPast` reads the clock until its tick is past a given one, and parks between two
readings for as long as the next tick is away. A clock that does not move would be
waited on for ever, so the caller says how many parks it has the patience for; a wait
that would need one more is cut short, and that park is not made.
-/

namespace Snowflake

/-- How a wait ended. -/
inductive WaitEnd where
  | reached (tick : Nat)
  /-- Cut short, before a pause of this many milliseconds. -/
  | cutShort (pause : Nat)
deriving DecidableEq, Repr

/-- A wait, as it went. -/
structure Wait (σ : Type) where
  ending : WaitEnd
  /-- The readings that were followed by a park, in order. -/
  earlier : List Nat := []
  /-- The last reading taken. -/
  reading : Nat
  /-- The pauses asked for, in order. -/
  parks : List Nat := []
  clock : σ

/-- The first millisecond past a tick. -/
def boundary (tick resolution : Nat) : Nat :=
  saturate (saturate (tick + 1) * max resolution 1)

/-- The readings taken, in order. -/
def Wait.readings {σ : Type} (wait : Wait σ) : List Nat := wait.earlier ++ [wait.reading]

/-- How long to park when the clock has not passed the tick: up to the boundary, and never nothing. -/
def pauseUntilPast (tick resolution millis : Nat) : Nat := max (boundary tick resolution - millis) 1

namespace Clock

variable {σ : Type}

def waitPast (c : Clock σ) (tick resolution patience : Nat) (s : σ) : Wait σ :=
  let millis := (c.read s).1
  let s := (c.read s).2
  if tick < tickAt resolution millis then
    { ending := .reached (tickAt resolution millis), reading := millis, clock := s }
  else
    let pause := pauseUntilPast tick resolution millis
    match patience with
    | 0 => { ending := .cutShort pause, reading := millis, clock := s }
    | patience + 1 =>
      let rest := c.waitPast tick resolution patience (c.park pause s)
      { rest with earlier := millis :: rest.earlier, parks := pause :: rest.parks }

/-- Waits until a millisecond has passed. -/
def waitPastMilli (c : Clock σ) (millis patience : Nat) (s : σ) : Wait σ :=
  c.waitPast millis 1 patience s

/-- Waits until a second has passed. -/
def waitPastSecond (c : Clock σ) (second patience : Nat) (s : σ) : Wait σ :=
  c.waitPast second 1000 patience s

/-! ## Lemmas -/

/-- A wait that reached a tick reached the tick of its last reading, past the one waited for. -/
theorem waitPast_reached (c : Clock σ) {tick resolution patience : Nat} {s : σ} {t : Nat}
    (h : (c.waitPast tick resolution patience s).ending = .reached t) :
    t = tickAt resolution (c.waitPast tick resolution patience s).reading ∧ tick < t := by
  induction patience generalizing s with
  | zero =>
    unfold waitPast at h ⊢
    by_cases hlt : tick < tickAt resolution (c.read s).1
    · simp only [hlt, if_true, WaitEnd.reached.injEq] at h ⊢
      omega
    · simp [hlt] at h
  | succ patience ih =>
    unfold waitPast at h ⊢
    by_cases hlt : tick < tickAt resolution (c.read s).1
    · simp only [hlt, if_true, WaitEnd.reached.injEq] at h ⊢
      omega
    · simp only [hlt, if_false] at h ⊢
      exact ih h

end Clock

end Snowflake
