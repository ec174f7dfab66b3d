import Snowflake.Proofs.Clock.Pace
import Snowflake.Proofs.Generator.History
import Snowflake.Proofs.Generator.Parking

/-!
# Calls in a row, on a clock that parks alone move

After a call that gave out the number `n` of a tick, each further call counts on by one,
and from the last number of a tick to number 0 of the next.  With `k` numbers to a tick the
`i`-th further call is on the stamp

    L.stampAfter stamp i = ⟨stamp.tick + (stamp.sequence + i) / k, (stamp.sequence + i) % k⟩

The clock is parked on only from tick to tick: first up to the start of the next one, then
by whole ticks (`pausesAfter`).  The row ends with the format's range, and all calls after
that are refused with the first tick past it.
-/

namespace Snowflake

namespace Layout

variable (L : Layout)

/-- The stamp `i` calls after this one, if the clock waits for each tick that is needed. -/
def stampAfter (stamp : Stamp) (i : Nat) : Stamp :=
  { tick := stamp.tick + (stamp.sequence + i) / L.idsPerTick, sequence := (stamp.sequence + i) % L.idsPerTick }

/-- What the clock reads when so many ticks were waited for, `m` in the tick being its first reading. -/
def readingAfter (m tick : Nat) : Nat → Nat
  | 0 => m
  | k + 1 => (tick + k + 1) * L.tickMillis

/-- The pauses until so many ticks have passed: up to the start of the next one, then whole ticks. -/
def pausesAfter (m tick : Nat) : Nat → List Nat
  | 0 => []
  | k + 1 => ((tick + 1) * L.tickMillis - m) :: List.replicate k L.tickMillis

/-! ## Counting on -/

variable {L}

theorem stampAfter_zero {stamp : Stamp} (h : stamp.sequence ≤ L.maxSequence) : L.stampAfter stamp 0 = stamp := by
  have hlt : stamp.sequence < L.idsPerTick := Nat.lt_succ_of_le h
  unfold stampAfter
  rw [Nat.add_zero, Nat.div_eq_of_lt hlt, Nat.mod_eq_of_lt hlt, Nat.add_zero]

/-- One more call takes the next number of the tick, if there is one left. -/
theorem stampAfter_succ_of_lt {stamp : Stamp} {i : Nat} (h : (L.stampAfter stamp i).sequence < L.maxSequence) :
    (stamp.sequence + (i + 1)) / L.idsPerTick = (stamp.sequence + i) / L.idsPerTick
      ∧ L.stampAfter stamp (i + 1)
        = ⟨(L.stampAfter stamp i).tick, (L.stampAfter stamp i).sequence + 1⟩ := by
  have hpos : 0 < L.idsPerTick := Nat.succ_pos _
  have hlt : (stamp.sequence + i) % L.idsPerTick + 1 < L.idsPerTick := Nat.succ_lt_succ h
  have hdiv := Nat.div_add_mod (stamp.sequence + i) L.idsPerTick
  have hnext : (stamp.sequence + (i + 1)) / L.idsPerTick = (stamp.sequence + i) / L.idsPerTick
      ∧ (stamp.sequence + (i + 1)) % L.idsPerTick = (stamp.sequence + i) % L.idsPerTick + 1 := by
    rw [Nat.div_mod_unique hpos]
    omega
  unfold stampAfter
  rw [hnext.1, hnext.2]
  exact ⟨rfl, rfl⟩

/-- After the last number of a tick comes number 0 of the next one. -/
theorem stampAfter_succ_of_not_lt {stamp : Stamp} {i : Nat} (h : ¬(L.stampAfter stamp i).sequence < L.maxSequence) :
    (stamp.sequence + (i + 1)) / L.idsPerTick = (stamp.sequence + i) / L.idsPerTick + 1
      ∧ L.stampAfter stamp (i + 1) = ⟨(L.stampAfter stamp i).tick + 1, 0⟩ := by
  have hpos : 0 < L.idsPerTick := Nat.succ_pos _
  have hlast : (stamp.sequence + i) % L.idsPerTick + 1 = L.idsPerTick :=
    Nat.le_antisymm (Nat.mod_lt _ hpos) (Nat.succ_le_succ (Nat.le_of_not_lt h))
  have hdiv := Nat.div_add_mod (stamp.sequence + i) L.idsPerTick
  have hnext : (stamp.sequence + (i + 1)) / L.idsPerTick = (stamp.sequence + i) / L.idsPerTick + 1
      ∧ (stamp.sequence + (i + 1)) % L.idsPerTick = 0 := by
    rw [Nat.div_mod_unique hpos, Nat.mul_succ]
    omega
  unfold stampAfter
  rw [hnext.1, hnext.2]
  exact ⟨rfl, rfl⟩

theorem pausesAfter_succ (m tick k : Nat) :
    L.pausesAfter m tick (k + 1) = L.pausesAfter m tick k ++ [(tick + k + 1) * L.tickMillis - L.readingAfter m tick k] := by
  cases k with
  | zero => rfl
  | succ k =>
    have hwhole : (tick + (k + 1) + 1) * L.tickMillis - (tick + k + 1) * L.tickMillis = L.tickMillis := by
      rw [Nat.succ_mul (tick + (k + 1)), Nat.add_assoc]
      exact Nat.add_sub_cancel_left ..
    show _ :: List.replicate (k + 1) L.tickMillis = _ :: List.replicate k L.tickMillis ++ [_ - (tick + k + 1) * _]
    rw [hwhole, List.replicate_succ', List.cons_append]

theorem length_pausesAfter (m tick k : Nat) : (L.pausesAfter m tick k).length = k := by
  cases k with
  | zero => rfl
  | succ k =>
    unfold pausesAfter
    rw [List.length_cons, List.length_replicate]

end Layout

namespace Generator

variable {σ τ : Type}

/-- The calls in a row, counted from 0, each on the generator and the clock that the one before left. -/
def inRow (c : Clock σ) (f : Format) (patience : Nat) (g : Generator) (s : σ) : Nat → Call σ Nat
  | 0 => generate c f patience g s
  | i + 1 => generate c f patience (inRow c f patience g s i).generator (inRow c f patience g s i).clock

/-- The pauses of the calls after the first, up to the `i`-th, in order. -/
def furtherParks (call : Nat → Call σ Nat) (i : Nat) : List Nat := (List.range i).flatMap fun j => (call (j + 1)).parks

theorem furtherParks_succ (call : Nat → Call σ Nat) (i : Nat) :
    furtherParks call (i + 1) = furtherParks call i ++ (call (i + 1)).parks := by
  unfold furtherParks
  rw [List.range_succ, List.flatMap_append, List.flatMap_singleton]

/-! ## From one call to the next -/

/-- The call gave out the id of `stamp` and left the clock at `m`, in the stamp's tick. -/
structure Gave (c : Clock σ) (f : Format) (nodeId : Nat) (stamp : Stamp) (m : Nat) (call : Call σ Nat) : Prop where
  fits : stamp.Fits f.layout
  outcome : call.outcome = .ok (f.layout.idAt nodeId stamp)
  nodeId_eq : call.generator.nodeId = nodeId
  last_eq : call.generator.last.get f = some stamp
  standsAt : c.StandsAt m call.clock
  tick_eq : tickAt f.layout.tickMillis m = stamp.tick

/-- The call was refused and left the clock in the first tick past the range, which no stamp has reached. -/
structure RanOut (c : Clock σ) (f : Format) (call : Call σ Nat) : Prop where
  outcome : call.outcome
    = .error (.refused (.clockRangeExceeded f (f.layout.epochTick + f.layout.maxTimestamp + 1)))
  fits : ∀ stamp ∈ call.generator.last.get f, stamp.Fits f.layout
  standsAt : ∃ m, c.StandsAt m call.clock
    ∧ tickAt f.layout.tickMillis m = f.layout.epochTick + f.layout.maxTimestamp + 1

variable {c : Clock σ} {f : Format} {nodeId : Nat} {stamp : Stamp} {m patience : Nat} {call : Call σ Nat}

theorem Gave.fits_last (h : Gave c f nodeId stamp m call) :
    ∀ last ∈ call.generator.last.get f, last.Fits f.layout := by
  intro last hlast
  rw [h.last_eq] at hlast
  cases hlast
  exact h.fits

/-- A call that gave an id gave the id of some stamp, and left the clock at its last reading. -/
theorem gave_of_ok {g : Generator} {s : σ} {id : Nat} (h : c.Exact s)
    (hfits : ∀ last ∈ g.last.get f, last.Fits f.layout) (hpatience : 0 < patience)
    (hok : (generate c f patience g s).outcome = .ok id) :
    ∃ reading stamp, (generate c f patience g s).readings.getLast? = some reading
      ∧ id = f.layout.idAt g.nodeId stamp ∧ Gave c f g.nodeId stamp reading (generate c f patience g s) := by
  obtain ⟨reading, stamp, hlast, hstands, htick, hstamp, hid, hgen⟩ :=
    standsAt_of_ok h.standsAt hfits hpatience hok
  refine ⟨reading, stamp, hlast, hid, hstamp, hid ▸ hok, ?_, ?_, hstands, htick.symm⟩
  · rw [hgen, nodeId_remember]
  · rw [hgen, last_remember_self]

/-- While the tick has a number left, the next call takes it at once. -/
theorem Gave.next_of_lt (h : Gave c f nodeId stamp m call) (hlt : stamp.sequence < f.layout.maxSequence) :
    Gave c f nodeId ⟨stamp.tick, stamp.sequence + 1⟩ m (generate c f patience call.generator call.clock)
      ∧ (generate c f patience call.generator call.clock).parks = [] := by
  have hplan : Plan.onTick f.layout.maxSequence (call.generator.last.get f) (tickAt f.layout.tickMillis m)
      = .take ⟨stamp.tick, stamp.sequence + 1⟩ := by
    simp [Plan.onTick, h.last_eq, h.tick_eq, hlt]
  have hfits : Stamp.Fits f.layout ⟨stamp.tick, stamp.sequence + 1⟩ := ⟨h.fits.epoch_le, h.fits.tick_le, hlt⟩
  obtain ⟨s', hstands, hcall⟩ := generate_of_take h.standsAt h.fits_last hplan patience
  rw [hcall, settle_of_fits hfits, h.nodeId_eq]
  exact ⟨⟨hfits, rfl, h.nodeId_eq, last_remember_self .., hstands, h.tick_eq⟩, rfl⟩

theorem Gave.plan_of_full (h : Gave c f nodeId stamp m call) (hfull : ¬stamp.sequence < f.layout.maxSequence) :
    Plan.onTick f.layout.maxSequence (call.generator.last.get f) (tickAt f.layout.tickMillis m)
      = .waitPast stamp.tick := by
  rw [h.last_eq, h.tick_eq]
  exact Plan.onTick_eq_waitPast rfl (Or.inr ⟨rfl, Nat.le_of_not_lt hfull⟩)

/-- When the tick is full and there is a next one in range, the next call parks up to it. -/
theorem Gave.next_of_full (h : Gave c f nodeId stamp m call) (hfull : ¬stamp.sequence < f.layout.maxSequence)
    (hrange : stamp.tick + 1 ≤ f.layout.epochTick + f.layout.maxTimestamp) (hpatience : 0 < patience) :
    Gave c f nodeId ⟨stamp.tick + 1, 0⟩ ((stamp.tick + 1) * f.layout.tickMillis)
        (generate c f patience call.generator call.clock)
      ∧ (generate c f patience call.generator call.clock).parks = [(stamp.tick + 1) * f.layout.tickMillis - m] := by
  have hle : (stamp.tick + 1) * f.layout.tickMillis ≤ wordMax :=
    Nat.le_trans (Nat.mul_le_mul_right _ hrange) f.lastTick_mul_le
  have hfits : Stamp.Fits f.layout ⟨stamp.tick + 1, 0⟩ := ⟨Nat.le_succ_of_le h.fits.epoch_le, hrange, Nat.zero_le _⟩
  obtain ⟨s', hstands, hcall⟩ := generate_of_waitPast h.standsAt h.fits_last (h.plan_of_full hfull) hle hpatience
  rw [hcall, settle_of_fits hfits, h.nodeId_eq]
  exact ⟨⟨hfits, rfl, h.nodeId_eq, last_remember_self .., hstands, Clock.tickAt_mul f.layout.tickMillis_pos _⟩, rfl⟩

/-- When the last tick of the range is full, the next call parks up to its end and is refused. -/
theorem Gave.next_of_last (h : Gave c f nodeId stamp m call) (hfull : ¬stamp.sequence < f.layout.maxSequence)
    (hlast : stamp.tick = f.layout.epochTick + f.layout.maxTimestamp) (hf : f ≠ .id128) (hpatience : 0 < patience) :
    RanOut c f (generate c f patience call.generator call.clock) := by
  have hplan := h.plan_of_full hfull
  rw [hlast] at hplan
  obtain ⟨s', hstands, hcall⟩ :=
    generate_of_waitPast h.standsAt h.fits_last hplan (Format.endTick_mul_le hf) hpatience
  rw [hcall, settle_of_lt (Nat.lt_succ_self _)]
  exact ⟨rfl, h.fits_last, _, hstands, Clock.tickAt_mul f.layout.tickMillis_pos _⟩

/-- Once the range is left, it stays so. -/
theorem RanOut.next (h : RanOut c f call) (patience : Nat) :
    RanOut c f (generate c f patience call.generator call.clock) := by
  obtain ⟨m, hstands, htick⟩ := h.standsAt
  have hplan : Plan.onTick f.layout.maxSequence (call.generator.last.get f) (tickAt f.layout.tickMillis m)
      = .take ⟨f.layout.epochTick + f.layout.maxTimestamp + 1, 0⟩ := by
    rw [htick]
    exact Plan.onTick_past fun stamp hstamp => Nat.lt_succ_of_le (h.fits stamp hstamp).tick_le
  obtain ⟨s', hstands', hcall⟩ := generate_of_take hstands h.fits hplan patience
  rw [hcall, settle_of_lt (Nat.lt_succ_self _)]
  exact ⟨rfl, h.fits, m, hstands', htick⟩

/-! ## The row -/

variable {g : Generator} {s : σ}

/-- In range, the calls of a row count on from the first, and park from tick to tick. -/
theorem gave_inRow (h : Gave c f nodeId stamp m (inRow c f patience g s 0)) (hpatience : 0 < patience) (i : Nat)
    (hrange : (f.layout.stampAfter stamp i).tick ≤ f.layout.epochTick + f.layout.maxTimestamp) :
    let k := (stamp.sequence + i) / f.layout.idsPerTick
    Gave c f nodeId (f.layout.stampAfter stamp i) (f.layout.readingAfter m stamp.tick k) (inRow c f patience g s i)
      ∧ furtherParks (inRow c f patience g s) i = f.layout.pausesAfter m stamp.tick k := by
  induction i with
  | zero =>
    intro k
    have hk : k = 0 := Nat.div_eq_of_lt (Nat.lt_succ_of_le h.fits.sequence_le)
    rw [hk, Layout.stampAfter_zero h.fits.sequence_le]
    exact ⟨h, rfl⟩
  | succ i ih =>
    intro k
    have hk : k = (stamp.sequence + (i + 1)) / f.layout.idsPerTick := rfl
    rw [furtherParks_succ, hk]
    by_cases hlt : (f.layout.stampAfter stamp i).sequence < f.layout.maxSequence
    · obtain ⟨hdiv, hnext⟩ := Layout.stampAfter_succ_of_lt hlt
      rw [hnext] at hrange
      obtain ⟨hgave, hparks⟩ := ih hrange
      obtain ⟨hgave', hparks'⟩ := hgave.next_of_lt hlt
      rw [hdiv, hnext, hparks]
      exact ⟨hgave', by rw [inRow, hparks', List.append_nil]⟩
    · obtain ⟨hdiv, hnext⟩ := Layout.stampAfter_succ_of_not_lt hlt
      rw [hnext] at hrange
      dsimp only at hrange
      obtain ⟨hgave, hparks⟩ := ih (by omega)
      obtain ⟨hgave', hparks'⟩ := hgave.next_of_full hlt hrange hpatience
      rw [hdiv, hnext, hparks, Layout.pausesAfter_succ]
      exact ⟨hgave', by rw [inRow, hparks']; rfl⟩

/-- Past the range, all calls of a row are refused. -/
theorem ranOut_inRow (h : Gave c f nodeId stamp m (inRow c f patience g s 0)) (hf : f ≠ .id128)
    (hpatience : 0 < patience) (i : Nat)
    (hpast : f.layout.epochTick + f.layout.maxTimestamp < (f.layout.stampAfter stamp i).tick) :
    RanOut c f (inRow c f patience g s i) := by
  induction i with
  | zero =>
    have := h.fits.tick_le
    rw [Layout.stampAfter_zero h.fits.sequence_le] at hpast
    omega
  | succ i ih =>
    rcases Nat.lt_or_ge (f.layout.epochTick + f.layout.maxTimestamp) (f.layout.stampAfter stamp i).tick with hout | hin
    · exact (ih hout).next patience
    · -- the first call past the range: the tick before it is the last one, and full
      obtain ⟨hgave, -⟩ := gave_inRow h hpatience i hin
      have hfull : ¬(f.layout.stampAfter stamp i).sequence < f.layout.maxSequence := by
        intro hlt
        rw [(Layout.stampAfter_succ_of_lt hlt).2] at hpast
        exact Nat.not_le.2 hpast hin
      have hlast : (f.layout.stampAfter stamp i).tick = f.layout.epochTick + f.layout.maxTimestamp := by
        rw [(Layout.stampAfter_succ_of_not_lt hfull).2] at hpast
        exact Nat.le_antisymm hin (Nat.le_of_lt_succ hpast)
      exact hgave.next_of_last hfull hlast hf hpatience

/-- **Bursts.**  In every state that a run can leave, on a clock that parks alone move: after a call
that gave out number `n` of timestamp `t`, the `i`-th further call gives out number `(n + i) % k` of
timestamp `t + (n + i) / k`, where `k` ids go into a tick.  So far the calls after the first have
parked `(n + i) / k` times, up to the start of the next tick and then by whole ticks.  Past the
range, but for the widest format, every call is refused with the first tick past it. -/
theorem burst_counts_on {g : Generator} (hg : ofNodeId nodeId = .ok g) (c : Clock σ) (s : σ) (steps : List (Step σ))
    (f : Format) (c' : Clock τ) (s' : τ) (hexact : c'.Exact s') {patience id : Nat} (hpatience : 0 < patience)
    (h : (generate c' f patience (after g (run c g s steps)) s').outcome = .ok id) :
    let L := f.layout
    let call := inRow c' f patience (after g (run c g s steps)) s'
    let t := L.timestamp id
    let n := L.sequence id
    ∃ reading, (call 0).readings.getLast? = some reading ∧ reading / L.tickMillis = L.epochTick + t
      ∧ (∀ i, t + (n + i) / L.idsPerTick ≤ L.maxTimestamp →
          (∃ id', (call i).outcome = .ok id' ∧ L.timestamp id' = t + (n + i) / L.idsPerTick
            ∧ L.sequence id' = (n + i) % L.idsPerTick)
          ∧ furtherParks call i = L.pausesAfter reading (L.epochTick + t) ((n + i) / L.idsPerTick)
          ∧ (furtherParks call i).length = (n + i) / L.idsPerTick)
      ∧ (f ≠ .id128 → ∀ i, L.maxTimestamp < t + (n + i) / L.idsPerTick →
          (call i).outcome = .error (.refused (.clockRangeExceeded f (L.epochTick + L.maxTimestamp + 1)))) := by
  intro L call t n
  have hfits := (run_progress c (sound_of_fresh hg) s steps).sound (sound_of_fresh hg) f
  obtain ⟨reading, stamp, hlast, rfl, hfirst⟩ := gave_of_ok hexact hfits hpatience h
  have ht : L.epochTick + t = stamp.tick := by
    have hepoch : L.epochTick ≤ stamp.tick := hfirst.fits.epoch_le
    have ht : t = stamp.tick - L.epochTick := Layout.timestamp_idAt _ hfirst.fits
    omega
  have hn : n = stamp.sequence := Layout.sequence_idAt _ hfirst.fits
  have hafter : ∀ i, (L.stampAfter stamp i).tick = L.epochTick + (t + (n + i) / L.idsPerTick) := by
    intro i
    rw [← Nat.add_assoc, ht, hn]
    rfl
  refine ⟨reading, hlast, ?_, fun i hrange => ?_, fun hf i hpast => ?_⟩
  · rw [ht, ← hfirst.tick_eq, tickAt_of_pos f.layout.tickMillis_pos]
  · have hin : (L.stampAfter stamp i).tick ≤ L.epochTick + L.maxTimestamp := by
      rw [hafter]
      omega
    obtain ⟨hgave, hparks⟩ := gave_inRow hfirst hpatience i hin
    rw [← hn, ← ht] at hparks
    refine ⟨⟨_, hgave.outcome, ?_, ?_⟩, hparks, ?_⟩
    · rw [Layout.timestamp_idAt _ hgave.fits, hafter]
      exact Nat.add_sub_cancel_left ..
    · rw [Layout.sequence_idAt _ hgave.fits, hn]
      rfl
    · rw [hparks, Layout.length_pausesAfter]
  · have hout : L.epochTick + L.maxTimestamp < (L.stampAfter stamp i).tick := by
      rw [hafter]
      omega
    exact (ranOut_inRow hfirst hf hpatience i hout).outcome

/-- From the middle of the last tick but one of the narrowest format, with two numbers left in it: one
park to the last tick, all of that, and refusals from then on. -/
theorem burst_into_the_last_tick :
    ∃ g, ofNodeId 5 = .ok g ∧
      let start : ManualClock := .steady 2406778224321
      let g' := after g (run ManualClock.clock g start [.burst .number .tiny 14 0])
      let call := inRow ManualClock.clock .tiny 1 g' start
      (call 0).outcome = .ok 4294967198
        ∧ (∃ id, (call 17).outcome = .ok id ∧ Format.tiny.layout.timestamp id = 67108863
          ∧ Format.tiny.layout.sequence id = 15)
        ∧ furtherParks call 17 = [5679]
        ∧ (call 18).outcome = .error (.refused (.clockRangeExceeded .tiny 240677824))
        ∧ (call 1000).outcome = .error (.refused (.clockRangeExceeded .tiny 240677824)) := by
  have hg : ofNodeId 5 = .ok { nodeId := 5, nodeId_le := by decide } := rfl
  obtain ⟨reading, hlast, -, hin, hout⟩ :=
    burst_counts_on hg ManualClock.clock (.steady 2406778224321) [.burst .number .tiny 14 0] .tiny
      ManualClock.clock (.steady 2406778224321) (ManualClock.exact_steady _) Nat.one_pos rfl
  obtain rfl : 2406778224321 = reading := Option.some.inj hlast
  obtain ⟨hid, hparks, -⟩ := hin 17 (by decide)
  exact ⟨_, hg, rfl, hid, hparks, hout (by decide) 18 (by decide), hout (by decide) 1000 (by decide)⟩

end Generator

end Snowflake
