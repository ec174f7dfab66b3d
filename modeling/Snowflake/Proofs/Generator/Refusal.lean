import Snowflake.Proofs.Generator.History

/-!
# Refusals: when a clock is out of a format's range

A call is refused for the tick of its last reading, if that lies before the format's epoch
or past its last timestamp, and never for anything else (`of_refused`).  A refused tick is
never behind the last stamp: a clock that went back is waited for, wherever it reads
(`waits_of_behind`).  As stamps are in range, a tick before the epoch is refused only while
the format has no stamp, so only before its first id.
-/

namespace Snowflake.Generator

variable {σ τ : Type} {c : Clock σ} {f : Format} {g : Generator} {s : σ} {patience : Nat}

/-! ## One call -/

theorem of_settle_refused {stamp : Stamp} {e : Error} (h : (settle f g stamp).1 = .error (.refused e)) :
    e = .clockRangeExceeded f stamp.tick
      ∧ (stamp.tick < f.layout.epochTick ∨ f.layout.epochTick + f.layout.maxTimestamp < stamp.tick) := by
  unfold settle at h
  split at h
  · cases h
  · cases h
    exact ⟨rfl, by omega⟩

/-- A refused call was refused for the tick of its last reading, which is out of the format's range and
not behind the last stamp. -/
theorem of_refused (hfits : ∀ stamp ∈ g.last.get f, stamp.Fits f.layout) {e : Error}
    (h : (generate c f patience g s).outcome = .error (.refused e)) :
    ∃ reading, (generate c f patience g s).readings.getLast? = some reading
      ∧ e = .clockRangeExceeded f (tickAt f.layout.tickMillis reading)
      ∧ (tickAt f.layout.tickMillis reading < f.layout.epochTick
        ∨ f.layout.epochTick + f.layout.maxTimestamp < tickAt f.layout.tickMillis reading)
      ∧ ∀ last ∈ g.last.get f, last.tick ≤ tickAt f.layout.tickMillis reading := by
  rw [generate_eq_rule c f g hfits] at h ⊢
  unfold followRule at h ⊢
  dsimp only at h ⊢
  cases hplan : Plan.onTick f.layout.maxSequence (g.last.get f) (tickAt f.layout.tickMillis (c.read s).1) with
  | take stamp =>
    rw [hplan] at h
    dsimp only at h ⊢
    obtain ⟨htick, hfollows, -⟩ := Plan.of_take hplan
    obtain ⟨he, hrange⟩ := of_settle_refused h
    rw [htick] at he hrange
    refine ⟨(c.read s).1, rfl, he, hrange, fun last hlast => ?_⟩
    rw [Option.mem_def.1 hlast] at hfollows
    rw [← htick]
    unfold Stamp.Follows at hfollows
    omega
  | waitPast tick =>
    rw [hplan] at h
    dsimp only at h ⊢
    cases hfirst : c.firstPast? tick f.layout.tickMillis patience (c.read s).2 with
    | none =>
      rw [hfirst] at h
      cases h
    | some k =>
      rw [hfirst] at h
      dsimp only at h ⊢
      obtain ⟨he, hrange⟩ := of_settle_refused h
      refine ⟨c.waitReading tick f.layout.tickMillis (c.read s).2 k, ?_, he, hrange, fun last hlast => ?_⟩
      · rw [List.range_succ, List.map_append, ← List.cons_append]
        exact List.getLast?_concat ..
      · obtain ⟨stamp, hstamp, rfl, -, -⟩ := Plan.of_waitPast hplan
        obtain ⟨-, hpast, -⟩ := (c.firstPast?_eq_some ..).1 hfirst
        rw [hstamp] at hlast
        cases hlast
        exact Nat.le_of_lt hpast

/-- On a clock behind the last stamp's tick, a call waits. -/
theorem waits_of_behind (hfits : ∀ stamp ∈ g.last.get f, stamp.Fits f.layout) {last : Stamp}
    (hlast : g.last.get f = some last) (h : tickAt f.layout.tickMillis (c.read s).1 < last.tick) :
    (generate c f patience g s).waits = 1 := by
  have hplan : Plan.onTick f.layout.maxSequence (g.last.get f) (tickAt f.layout.tickMillis (c.read s).1)
      = .waitPast last.tick := by
    rw [hlast]
    exact Plan.onTick_eq_waitPast rfl (Or.inl h)
  rw [generate_eq_rule c f g hfits]
  unfold followRule
  dsimp only
  rw [hplan]
  cases hfirst : c.firstPast? last.tick f.layout.tickMillis patience (c.read s).2 with
  | none => simp only [hfirst]
  | some k => simp only [hfirst]

/-- On a clock in range and past the last stamp's tick, a call gives an id. -/
theorem ok_of_past (hfits : ∀ stamp ∈ g.last.get f, stamp.Fits f.layout)
    (hepoch : f.layout.epochTick ≤ tickAt f.layout.tickMillis (c.read s).1)
    (hmax : tickAt f.layout.tickMillis (c.read s).1 ≤ f.layout.epochTick + f.layout.maxTimestamp)
    (hpast : ∀ last ∈ g.last.get f, last.tick < tickAt f.layout.tickMillis (c.read s).1) :
    ∃ id, (generate c f patience g s).outcome = .ok id := by
  refine ⟨f.layout.idAt g.nodeId ⟨tickAt f.layout.tickMillis (c.read s).1, 0⟩, ?_⟩
  rw [generate_eq_rule c f g hfits]
  unfold followRule
  dsimp only
  rw [Plan.onTick_past hpast]
  dsimp only
  unfold settle
  rw [if_pos ⟨hepoch, hmax⟩]

/-! ## In every state that a run can leave -/

/-- **Refusals.**  In every state that a run can leave, on any clock: a call is refused only for the
tick of its last reading, if that is out of the format's range, and it is before the epoch only if
the format has given out no id yet.  On a clock behind the last id's tick a call waits, and if it is
refused then for a tick past the range.  On a clock in range and past the last id's tick, if there is
one, a call gives an id. -/
theorem refused_only_out_of_range {nodeId : Nat} (hg : ofNodeId nodeId = .ok g) (c : Clock σ) (s : σ)
    (steps : List (Step σ)) (f : Format) (c' : Clock τ) (patience : Nat) (s' : τ) :
    let L := f.layout
    let ids := issued f (run c g s steps)
    let call := generate c' f patience (after g (run c g s steps)) s'
    let tick := (c'.read s').1 / L.tickMillis
    (∀ e, call.outcome = .error (.refused e) →
        ∃ reading, call.readings.getLast? = some reading ∧ e = .clockRangeExceeded f (reading / L.tickMillis)
          ∧ ((reading / L.tickMillis < L.epochTick ∧ ids = [])
            ∨ L.epochTick + L.maxTimestamp < reading / L.tickMillis))
      ∧ (∀ last, ids.getLast? = some last → tick < L.epochTick + L.timestamp last →
          call.waits = 1 ∧ ∀ e, call.outcome = .error (.refused e) →
            ∃ past, e = .clockRangeExceeded f past ∧ L.epochTick + L.maxTimestamp < past)
      ∧ (L.epochTick ≤ tick → tick ≤ L.epochTick + L.maxTimestamp →
          (∀ last, ids.getLast? = some last → L.epochTick + L.timestamp last < tick) →
          ∃ id, call.outcome = .ok id) := by
  intro L ids call tick
  have hfits := (run_progress c (sound_of_fresh hg) s steps).sound (sound_of_fresh hg) f
  have hlast : (after g (run c g s steps)).last.get f = ids.getLast?.map L.stampOf := last_after hg c s steps f
  have hpos : 0 < L.tickMillis := f.layout.tickMillis_pos
  have htick : tickAt L.tickMillis (c'.read s').1 = tick := tickAt_of_pos hpos _
  have hrefused : ∀ e, call.outcome = .error (.refused e) →
      ∃ reading, call.readings.getLast? = some reading ∧ e = .clockRangeExceeded f (reading / L.tickMillis)
        ∧ ((reading / L.tickMillis < L.epochTick ∧ ids = [])
          ∨ L.epochTick + L.maxTimestamp < reading / L.tickMillis) := by
    intro e he
    obtain ⟨reading, hreading, herror, hrange, hbehind⟩ := of_refused hfits he
    rw [tickAt_of_pos f.layout.tickMillis_pos] at herror hrange hbehind
    refine ⟨reading, hreading, herror, hrange.imp (fun hbefore => ⟨hbefore, ?_⟩) id⟩
    -- the stamp of an id is in range, so the tick would be behind it
    rw [← List.getLast?_eq_none_iff]
    cases hid : ids.getLast? with
    | none => rfl
    | some id =>
      rw [hid, Option.map_some] at hlast
      have hepoch := (hfits _ hlast).epoch_le
      have hle := hbehind _ hlast
      exact absurd hbefore (Nat.not_lt.2 (Nat.le_trans hepoch hle))
  refine ⟨hrefused, fun last hid hlt => ⟨?_, fun e he => ?_⟩, fun hepoch hmax hpast => ?_⟩
  · rw [hid, Option.map_some] at hlast
    exact waits_of_behind hfits hlast (htick.trans_lt hlt)
  · obtain ⟨reading, -, herror, ⟨-, hnone⟩ | hrange⟩ := hrefused e he
    · rw [hnone] at hid
      cases hid
    · exact ⟨_, herror, hrange⟩
  · refine ok_of_past hfits (htick.symm ▸ hepoch) (htick.symm ▸ hmax) fun stamp hstamp => ?_
    rw [hlast] at hstamp
    obtain ⟨id, hid, rfl⟩ := Option.map_eq_some_iff.1 hstamp
    exact htick.symm ▸ hpast id hid

/-- Before its first id a generator is refused at reading 5.  After it, set back to 5, it waits; the
clock then jumps past the end of the narrowest format, and it is refused for that. -/
theorem refused_after_waiting_before_the_epoch :
    ∃ g, ofNodeId 5 = .ok g ∧
      let early : ManualClock := { reading := 5, script := [2500000000000], reading_le := by decide }
      let dones := run ManualClock.clock g (.steady (customEpochMillis + 20000)) [.generate .number .tiny 3]
      let call := generate ManualClock.clock .tiny 3 (after g dones) early
      (generate ManualClock.clock .tiny 3 g early).outcome = .error (.refused (.clockRangeExceeded .tiny 0))
        ∧ issued .tiny dones = [144] ∧ call.waits = 1
        ∧ call.outcome = .error (.refused (.clockRangeExceeded .tiny 250000000))
        ∧ ∃ past, Error.clockRangeExceeded .tiny 250000000 = .clockRangeExceeded .tiny past
          ∧ Format.tiny.layout.epochTick + Format.tiny.layout.maxTimestamp < past := by
  have hg : ofNodeId 5 = .ok { nodeId := 5, nodeId_le := by decide } := rfl
  have h := refused_only_out_of_range hg ManualClock.clock (.steady (customEpochMillis + 20000))
    [.generate .number .tiny 3] .tiny ManualClock.clock 3
    { reading := 5, script := [2500000000000], reading_le := by decide }
  obtain ⟨hwaits, hrefused⟩ := h.2.1 144 rfl (by decide)
  exact ⟨_, hg, rfl, rfl, hwaits, rfl, hrefused _ rfl⟩

end Snowflake.Generator
