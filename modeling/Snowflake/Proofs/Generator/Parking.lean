import Snowflake.Proofs.Clock.Exact
import Snowflake.Proofs.Generator.Rule
import Snowflake.Proofs.Layout.Parts

/-!
# Parking: one call on a clock that parks alone move

On a clock that stands at `m` and that parks alone move, a call either settles its stamp
at once and leaves the clock at `m` (`generate_of_take`), or it parks once, up to the start
of the tick after the last stamp's, and settles number 0 of that tick there
(`generate_of_waitPast`).  It never gets past a tick that ends where no clock can read, so a
call that gave an id did one or the other (`plan_of_ok`).
-/

namespace Snowflake

namespace Generator

variable {σ : Type} {c : Clock σ} {f : Format} {g : Generator} {m : Nat} {s : σ}

/-! ## Settling -/

/-- The tick after a stamp's starts within a clock's reach, unless the stamp is of the last tick there is. -/
theorem nextTick_mul_le {stamp : Stamp} (hfits : stamp.Fits f.layout) (h : f = .id128 → stamp.tick < wordMax) :
    (stamp.tick + 1) * f.layout.tickMillis ≤ wordMax := by
  by_cases hf : f = .id128
  · subst hf
    have htick := h rfl
    show (stamp.tick + 1) * 1 ≤ wordMax
    omega
  · exact Nat.le_trans (Nat.mul_le_mul_right _ (Nat.succ_le_succ hfits.tick_le)) (Format.endTick_mul_le hf)

theorem settle_ne_interrupted (stamp : Stamp) (pause : Nat) : (settle f g stamp).1 ≠ .error (.interrupted pause) := by
  unfold settle
  split <;> simp

theorem settle_of_fits {stamp : Stamp} (h : stamp.Fits f.layout) (g : Generator) :
    settle f g stamp = (.ok (f.layout.idAt g.nodeId stamp), g.remember f stamp) :=
  if_pos ⟨h.epoch_le, h.tick_le⟩

theorem settle_of_lt {stamp : Stamp} (h : f.layout.epochTick + f.layout.maxTimestamp < stamp.tick) (g : Generator) :
    settle f g stamp = (.error (.refused (.clockRangeExceeded f stamp.tick)), g) :=
  if_neg fun hrange => Nat.not_le.2 h hrange.2

/-! ## One call -/

/-- A call that takes a stamp at once leaves the clock where it stood. -/
theorem generate_of_take (h : c.StandsAt m s) (hfits : ∀ stamp ∈ g.last.get f, stamp.Fits f.layout)
    {stamp : Stamp} (hplan : Plan.onTick f.layout.maxSequence (g.last.get f) (tickAt f.layout.tickMillis m) = .take stamp)
    (patience : Nat) :
    ∃ s', c.StandsAt m s' ∧ generate c f patience g s
      = { outcome := (settle f g stamp).1, generator := (settle f g stamp).2, readings := [m], clock := s' } := by
  refine ⟨(c.read s).2, h.read, ?_⟩
  obtain rfl := h.read_eq
  rw [generate_eq_rule c f g hfits]
  unfold followRule
  dsimp only
  rw [hplan]

/-- A call that is to wait parks once, up to the start of the next tick, and goes on from there. -/
theorem generate_of_waitPast (h : c.StandsAt m s) (hfits : ∀ stamp ∈ g.last.get f, stamp.Fits f.layout) {tick : Nat}
    (hplan : Plan.onTick f.layout.maxSequence (g.last.get f) (tickAt f.layout.tickMillis m) = .waitPast tick)
    (hle : (tick + 1) * f.layout.tickMillis ≤ wordMax) {patience : Nat} (hpatience : 0 < patience) :
    ∃ s', c.StandsAt ((tick + 1) * f.layout.tickMillis) s' ∧ generate c f patience g s
      = { outcome := (settle f g ⟨tick + 1, 0⟩).1, generator := (settle f g ⟨tick + 1, 0⟩).2
          readings := [m, m, (tick + 1) * f.layout.tickMillis], waits := 1
          parks := [(tick + 1) * f.layout.tickMillis - m], clock := s' } := by
  have hpos := f.layout.tickMillis_pos
  obtain ⟨stamp, -, -, hbehind, -⟩ := Plan.of_waitPast hplan
  have hstands := Clock.waiting_of_standsAt h.read hpos hbehind hle
  have hfirst := Clock.firstPast?_of_standsAt h.read hpos hbehind hle hpatience
  have hpause := Clock.waitPause_of_standsAt h.read hpos hbehind hle
  have hread0 : c.waitReading tick f.layout.tickMillis (c.read s).2 0 = m := h.read.read_eq
  have hread1 : c.waitReading tick f.layout.tickMillis (c.read s).2 1 = (tick + 1) * f.layout.tickMillis :=
    hstands.read_eq
  refine ⟨_, hstands.read, ?_⟩
  rw [generate_eq_rule c f g hfits]
  unfold followRule
  dsimp only
  rw [h.read_eq, hplan]
  dsimp only
  rw [hfirst]
  simp only [List.range_succ, List.range_zero, List.nil_append, List.singleton_append, List.map_cons, List.map_nil,
    hread0, hread1, hpause, Clock.tickAt_mul hpos]

/-- What a call that gave an id had planned: to take a stamp, or to wait for a tick that a clock can read. -/
theorem plan_of_ok (h : c.StandsAt m s) (hfits : ∀ stamp ∈ g.last.get f, stamp.Fits f.layout) {patience id : Nat}
    (hok : (generate c f patience g s).outcome = .ok id) :
    (∃ stamp, Plan.onTick f.layout.maxSequence (g.last.get f) (tickAt f.layout.tickMillis m) = .take stamp)
      ∨ ∃ tick, Plan.onTick f.layout.maxSequence (g.last.get f) (tickAt f.layout.tickMillis m) = .waitPast tick
        ∧ (tick + 1) * f.layout.tickMillis ≤ wordMax := by
  rw [generate_eq_rule c f g hfits] at hok
  unfold followRule at hok
  dsimp only at hok
  rw [h.read_eq] at hok
  cases hplan : Plan.onTick f.layout.maxSequence (g.last.get f) (tickAt f.layout.tickMillis m) with
  | take stamp => exact Or.inl ⟨stamp, rfl⟩
  | waitPast tick =>
    rw [hplan] at hok
    dsimp only at hok
    cases hfirst : c.firstPast? tick f.layout.tickMillis patience (c.read s).2 with
    | none =>
      rw [hfirst] at hok
      cases hok
    | some k =>
      obtain ⟨-, hpast, -⟩ := (c.firstPast?_eq_some ..).1 hfirst
      exact Or.inr ⟨tick, rfl, Clock.le_of_isPast f.layout.tickMillis_pos hpast⟩

/-- A call that gave an id left the clock standing, at its last reading and in the id's tick. -/
theorem standsAt_of_ok (h : c.StandsAt m s) (hfits : ∀ stamp ∈ g.last.get f, stamp.Fits f.layout) {patience id : Nat}
    (hpatience : 0 < patience) (hok : (generate c f patience g s).outcome = .ok id) :
    ∃ reading stamp, (generate c f patience g s).readings.getLast? = some reading
      ∧ c.StandsAt reading (generate c f patience g s).clock ∧ stamp.tick = tickAt f.layout.tickMillis reading
      ∧ stamp.Fits f.layout ∧ id = f.layout.idAt g.nodeId stamp
      ∧ (generate c f patience g s).generator = g.remember f stamp := by
  rcases generate_cases c f g hfits patience s with
    ⟨stamp, reading, hstamp, -, hlast, htick, hid, hgen⟩ | ⟨failure, hfail, -⟩
  · have hclock : c.StandsAt reading (generate c f patience g s).clock := by
      rcases plan_of_ok h hfits hok with ⟨taken, hplan⟩ | ⟨tick, hplan, hle⟩
      · obtain ⟨s', hstands, hcall⟩ := generate_of_take h hfits hplan patience
        rw [hcall] at hlast ⊢
        cases hlast
        exact hstands
      · obtain ⟨s', hstands, hcall⟩ := generate_of_waitPast h hfits hplan hle hpatience
        rw [hcall] at hlast ⊢
        cases hlast
        exact hstands
    rw [hid] at hok
    cases hok
    exact ⟨reading, stamp, hlast, hclock, htick, hstamp, rfl, hgen⟩
  · rw [hfail] at hok
    cases hok

end Generator

end Snowflake
