import Snowflake.Proofs.Clock.Pace
import Snowflake.Proofs.Generator.History
import Snowflake.Proofs.Generator.Parking

/-!
# Blocking: how long a call can take

On a clock that parks alone move, a call parks if the last id's tick is used up or still to
come, and then once, up to the start of the tick after it:

    (L.epochTick + L.timestamp last + 1) * L.tickMillis - m

where `m` is the clock's reading.  So a call whose tick is used up blocks for one tick at
most; a clock that was set back costs one tick and the whole way back to the last id's.  The
id that a blocked call gives out is number 0 of the next tick.
-/

namespace Snowflake.Generator

variable {σ τ : Type} {c : Clock σ} {f : Format} {g : Generator} {m : Nat} {s : σ} {patience : Nat}

/-! ## One call -/

/-- The last stamp's tick is still to come, or it is the present one and used up. -/
def Blocked (f : Format) (last : Stamp) (m : Nat) : Prop :=
  m / f.layout.tickMillis < last.tick
    ∨ (m / f.layout.tickMillis = last.tick ∧ last.sequence = f.layout.maxSequence)

theorem plan_of_blocked {last : Stamp} (hlast : g.last.get f = some last) (h : Blocked f last m) :
    Plan.onTick f.layout.maxSequence (g.last.get f) (tickAt f.layout.tickMillis m) = .waitPast last.tick := by
  rw [hlast, tickAt_of_pos f.layout.tickMillis_pos]
  apply Plan.onTick_eq_waitPast rfl
  unfold Blocked at h
  omega

theorem plan_of_not_blocked {last : Stamp} (hlast : g.last.get f = some last) (hfits : last.Fits f.layout)
    (h : ¬Blocked f last m) :
    ∃ stamp, Plan.onTick f.layout.maxSequence (g.last.get f) (tickAt f.layout.tickMillis m) = .take stamp := by
  cases hplan : Plan.onTick f.layout.maxSequence (g.last.get f) (tickAt f.layout.tickMillis m) with
  | take stamp => exact ⟨stamp, rfl⟩
  | waitPast tick =>
    obtain ⟨stamp, hstamp, rfl, hle, hfull⟩ := Plan.of_waitPast hplan
    rw [hlast] at hstamp
    cases hstamp
    rw [tickAt_of_pos f.layout.tickMillis_pos] at hle hfull
    have hsequence := hfits.sequence_le
    exact absurd (by unfold Blocked; omega) h

/-- A blocked call parks once, up to the start of the next tick; its id is number 0 of that tick. -/
theorem generate_of_blocked (h : c.StandsAt m s) (hfits : ∀ stamp ∈ g.last.get f, stamp.Fits f.layout)
    (hpatience : 0 < patience) {last : Stamp} (hlast : g.last.get f = some last)
    (hle : (last.tick + 1) * f.layout.tickMillis ≤ wordMax) (hblocked : Blocked f last m) :
    let call := generate c f patience g s
    call.parks = [(last.tick + 1) * f.layout.tickMillis - m]
      ∧ (∀ pause, call.outcome ≠ .error (.interrupted pause))
      ∧ ∀ id, call.outcome = .ok id →
        f.layout.timestamp id = last.tick + 1 - f.layout.epochTick ∧ f.layout.sequence id = 0 := by
  obtain ⟨s', -, hcall⟩ := generate_of_waitPast h hfits (plan_of_blocked hlast hblocked) hle hpatience
  dsimp only
  rw [hcall]
  refine ⟨rfl, settle_ne_interrupted _, fun id hok => ?_⟩
  dsimp only at hok
  rcases settle_cases f g ⟨last.tick + 1, 0⟩ (Nat.zero_le _) with ⟨hnext, heq⟩ | heq
  · rw [heq] at hok
    cases hok
    exact ⟨Layout.timestamp_idAt _ hnext, Layout.sequence_idAt _ hnext⟩
  · rw [heq] at hok
    cases hok

/-- A call that takes its stamp at once does not park. -/
theorem parks_of_take (h : c.StandsAt m s) (hfits : ∀ stamp ∈ g.last.get f, stamp.Fits f.layout) {stamp : Stamp}
    (hplan : Plan.onTick f.layout.maxSequence (g.last.get f) (tickAt f.layout.tickMillis m) = .take stamp)
    (patience : Nat) :
    let call := generate c f patience g s
    call.parks = [] ∧ ∀ pause, call.outcome ≠ .error (.interrupted pause) := by
  obtain ⟨s', -, hcall⟩ := generate_of_take h hfits hplan patience
  dsimp only
  rw [hcall]
  exact ⟨rfl, settle_ne_interrupted _⟩

/-- A call after a stamp parks when it is blocked and not otherwise, and then up to the start of the
next tick. -/
theorem parks_after (h : c.StandsAt m s) (hfits : ∀ stamp ∈ g.last.get f, stamp.Fits f.layout)
    (hpatience : 0 < patience) {last : Stamp} (hlast : g.last.get f = some last)
    (hle : (last.tick + 1) * f.layout.tickMillis ≤ wordMax) :
    let call := generate c f patience g s
    (∀ pause, call.outcome ≠ .error (.interrupted pause))
      ∧ (call.parks = [] ∨ call.parks = [(last.tick + 1) * f.layout.tickMillis - m])
      ∧ (call.parks ≠ [] ↔ Blocked f last m)
      ∧ (call.parks ≠ [] → call.parks.sum = (last.tick + 1) * f.layout.tickMillis - m
        ∧ ∀ id, call.outcome = .ok id →
          f.layout.timestamp id = last.tick + 1 - f.layout.epochTick ∧ f.layout.sequence id = 0) := by
  intro call
  by_cases hblocked : Blocked f last m
  · obtain ⟨hparks, hends, hnext⟩ := generate_of_blocked h hfits hpatience hlast hle hblocked
    have hone : call.parks = [(last.tick + 1) * f.layout.tickMillis - m] := hparks
    have hne : call.parks ≠ [] := by simp [hone]
    refine ⟨hends, Or.inr hone, ⟨fun _ => hblocked, fun _ => hne⟩, fun _ => ⟨?_, hnext⟩⟩
    rw [hone]
    exact List.sum_singleton
  · obtain ⟨stamp, hplan⟩ := plan_of_not_blocked hlast (hfits last hlast) hblocked
    obtain ⟨hparks, hends⟩ := parks_of_take h hfits hplan patience
    have hnone : call.parks = [] := hparks
    exact ⟨hends, Or.inl hnone, ⟨fun hne => absurd hnone hne, fun hb => absurd hb hblocked⟩,
      fun hne => absurd hnone hne⟩

/-! ## How long -/

section Length

variable {T l : Nat}

/-- In the tick itself, its end is a tick away at most. -/
theorem pause_of_eq (hT : 0 < T) (h : m / T = l) : 1 ≤ (l + 1) * T - m ∧ (l + 1) * T - m ≤ T := by
  subst h
  have hdiv := Nat.div_add_mod m T
  have hmod := Nat.mod_lt m hT
  rw [Nat.succ_mul, Nat.mul_comm (m / T)]
  omega

/-- Behind the tick, its end is one tick further away than its start. -/
theorem pause_of_lt (hT : 0 < T) (h : m / T < l) : m < l * T ∧ (l + 1) * T - m = T + (l * T - m) := by
  have hlt : m < l * T := (Nat.div_lt_iff_lt_mul hT).1 h
  rw [Nat.succ_mul]
  omega

end Length

/-! ## In every state that a run can leave -/

/-- **Blocking.**  In every state that a run can leave, on a clock that parks alone move, with the widest
format's last tick excepted: a call returns, and it has parked either not at all or once, up to the start
of the tick after the last id's.  It parks exactly if its reading is behind that id's tick, or in it with
all numbers given out.  In the tick it blocks for a tick at most; behind it, for a tick and the way to its
start.  An id that it then gives out is number 0 of the next tick. -/
theorem blocks_into_next_tick {nodeId : Nat} (hg : ofNodeId nodeId = .ok g) (c : Clock σ) (s : σ)
    (steps : List (Step σ)) (f : Format) (c' : Clock τ) (s' : τ) (hexact : c'.Exact s') (hpatience : 0 < patience)
    (hrange : f = .id128 → ∀ last, (issued f (run c g s steps)).getLast? = some last →
      f.layout.epochTick + f.layout.timestamp last < wordMax) :
    let L := f.layout
    let T := L.tickMillis
    let ids := issued f (run c g s steps)
    let call := generate c' f patience (after g (run c g s steps)) s'
    let m := (c'.read s').1
    (∀ pause, call.outcome ≠ .error (.interrupted pause))
      ∧ (ids = [] → call.parks = [])
      ∧ ∀ last, ids.getLast? = some last →
        let l := L.epochTick + L.timestamp last
        (call.parks = [] ∨ call.parks = [(l + 1) * T - m])
          ∧ (call.parks ≠ [] ↔ m / T < l ∨ (m / T = l ∧ L.sequence last = L.maxSequence))
          ∧ (call.parks ≠ [] →
              (m / T = l → 1 ≤ call.parks.sum ∧ call.parks.sum ≤ T)
                ∧ (m / T < l → m < l * T ∧ call.parks.sum = T + (l * T - m))
                ∧ ∀ id, call.outcome = .ok id → L.timestamp id = l + 1 - L.epochTick ∧ L.sequence id = 0) := by
  intro L T ids call m
  have hfits := (run_progress c (sound_of_fresh hg) s steps).sound (sound_of_fresh hg) f
  have hlast : (after g (run c g s steps)).last.get f = ids.getLast?.map L.stampOf := last_after hg c s steps f
  have hstands : c'.StandsAt m s' := hexact.standsAt
  cases hid : ids.getLast? with
  | none =>
    rw [hid, Option.map_none] at hlast
    have hplan : Plan.onTick L.maxSequence ((after g (run c g s steps)).last.get f) (tickAt T m)
        = .take ⟨tickAt T m, 0⟩ := by
      rw [hlast]
      rfl
    obtain ⟨hparks, hends⟩ := parks_of_take hstands hfits hplan patience
    refine ⟨hends, fun _ => hparks, ?_⟩
    rintro last ⟨⟩
  | some last =>
    rw [hid, Option.map_some] at hlast
    have hle : (L.epochTick + L.timestamp last + 1) * T ≤ wordMax :=
      nextTick_mul_le (hfits (L.stampOf last) hlast) fun hf => hrange hf last hid
    obtain ⟨hends, hparks, hwhen, hlong⟩ := parks_after hstands hfits hpatience hlast hle
    refine ⟨hends, ?_, ?_⟩
    · intro hnil
      rw [hnil] at hid
      cases hid
    · rintro _ ⟨⟩
      refine ⟨hparks, hwhen, fun hne => ?_⟩
      obtain ⟨hsum, hnext⟩ := hlong hne
      refine ⟨?_, ?_, hnext⟩
      · intro hsame
        rw [hsum]
        exact pause_of_eq f.layout.tickMillis_pos hsame
      · intro hbehind
        rw [hsum]
        exact pause_of_lt f.layout.tickMillis_pos hbehind

/-- With the narrowest format's tick used up, a call parks until it is over.  On a clock set back from the
last tick but one of the widest format, it parks into the last. -/
theorem blocked_into_the_last_tick :
    ∃ g, ofNodeId 5 = .ok g ∧
      let busy : ManualClock := .steady (customEpochMillis + 24321)
      let call := generate ManualClock.clock .tiny 1
        (after g (run ManualClock.clock g busy [.burst .number .tiny 16 0])) busy
      let ahead : ManualClock := .steady (wordMax - 1)
      let back : ManualClock := .steady (wordMax - 4)
      let late := generate ManualClock.clock .id128 1
        (after g (run ManualClock.clock g ahead [.generate .number .id128 0])) back
      call.parks = [5679] ∧ call.parks.sum ≤ 10000 ∧ late.parks = [4] ∧ late.parks.sum = 1 + 3
        ∧ ∃ id, late.outcome = .ok id ∧ Format.id128.layout.timestamp id = wordMax
          ∧ Format.id128.layout.sequence id = 0 := by
  have hg : ofNodeId 5 = .ok { nodeId := 5, nodeId_le := by decide } := rfl
  obtain ⟨-, -, hcall⟩ :=
    blocks_into_next_tick hg ManualClock.clock (.steady (customEpochMillis + 24321)) [.burst .number .tiny 16 0]
      .tiny ManualClock.clock (.steady (customEpochMillis + 24321)) (ManualClock.exact_steady _) Nat.one_pos
      (fun h => nomatch h)
  obtain ⟨-, -, hlate⟩ :=
    blocks_into_next_tick hg ManualClock.clock (.steady (wordMax - 1)) [.generate .number .id128 0]
      .id128 ManualClock.clock (.steady (wordMax - 4)) (ManualClock.exact_steady _) Nat.one_pos
      (fun _ last hlast => Option.some.inj hlast ▸ by decide)
  obtain ⟨hfull, hwhen, hlong⟩ := hcall 159 rfl
  obtain ⟨hback, hwhen', hlong'⟩ := hlate 340282366920938463426481119284349435904 rfl
  have hparks := hwhen.2 (Or.inr ⟨by decide, by decide⟩)
  have hparks' := hwhen'.2 (Or.inl (by decide))
  obtain ⟨hbusy, -⟩ := hlong hparks
  obtain ⟨-, hbehind, hnext⟩ := hlong' hparks'
  exact ⟨_, hg, hfull.resolve_left hparks, (hbusy (by decide)).2, hback.resolve_left hparks',
    (hbehind (by decide)).2, _, rfl, hnext _ rfl⟩

end Snowflake.Generator
