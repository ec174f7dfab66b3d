import Snowflake.Proofs.Clock.Pace
import Snowflake.Proofs.Generator.History
import Snowflake.Proofs.Generator.Parking

/-!
# Returning: when a call comes to an end

`Laps c f g n patience reading s call` goes by one verdict after the other without a bound
on their number, and says that after `n` of them the call `call` has come out.  Whatever
the clock reads, a call takes two laps at most and waits once at most (`laps_generate`), so
it is for its wait alone to end.  `SettlesAfter k` says that the call does after `k` parks,
with an id or a refusal, and that more patience makes no difference:

    c.Advances (fun _ => 1) s → ∃ k, SettlesAfter c f g s k
    c.Advances id s → ∃ k, k ≤ 1 ∧ SettlesAfter c f g s k

unless the widest format is at the last tick that a clock can read and needs a later one.
-/

namespace Snowflake

/-- What one lap of a call comes to. -/
inductive Lap (σ : Type) where
  | ends (call : Call σ Nat)
  /-- A wait has ended past its tick, and its last reading is next. -/
  | again (wait : Wait σ)

namespace Generator

variable {σ τ : Type}

/-- One lap: the verdict on a reading, and the wait if it is to wait. -/
def lap (c : Clock σ) (f : Format) (g : Generator) (patience reading : Nat) (s : σ) : Lap σ :=
  let tick := tickAt f.layout.tickMillis reading
  match Verdict.onTick f.layout (g.last.get f) tick with
  | .issue timestamp stamp =>
    .ends { outcome := .ok (f.layout.pack timestamp g.nodeId stamp.sequence)
            generator := g.remember f stamp, readings := [reading], clock := s }
  | .refuse =>
    .ends { outcome := .error (.refused (.clockRangeExceeded f tick)), generator := g,
            readings := [reading], clock := s }
  | .wait past =>
    let wait := c.waitPast past f.layout.tickMillis patience s
    match wait.ending with
    | .cutShort pause =>
      .ends { outcome := .error (.interrupted pause), generator := g,
              readings := reading :: wait.readings, waits := 1, parks := wait.parks, clock := wait.clock }
    | .reached _ => .again wait

/-- From this reading on the call takes `n` laps and then is over. -/
inductive Laps (c : Clock σ) (f : Format) (g : Generator) : Nat → Nat → Nat → σ → Call σ Nat → Prop
  | ends {patience reading : Nat} {s : σ} {call : Call σ Nat} :
      lap c f g patience reading s = .ends call → Laps c f g 1 patience reading s call
  | again {n patience reading : Nat} {s : σ} {wait : Wait σ} {call : Call σ Nat} :
      lap c f g patience reading s = .again wait →
      Laps c f g n (patience - wait.parks.length) wait.reading wait.clock call →
      Laps c f g (n + 1) patience reading s (call.afterWait reading wait)

/-- The call gave an id, or was refused as out of the format's range. -/
def Settled (f : Format) (call : Call σ Nat) : Prop :=
  (∃ id, call.outcome = .ok id) ∨ ∃ tick, call.outcome = .error (.refused (.clockRangeExceeded f tick))

/-- The call is settled after exactly so many parks, and more patience makes no difference. -/
def SettlesAfter (c : Clock σ) (f : Format) (g : Generator) (s : σ) (parks : Nat) : Prop :=
  Settled f (generate c f parks g s) ∧ (generate c f parks g s).parks.length = parks
    ∧ ∀ patience, parks ≤ patience → generate c f patience g s = generate c f parks g s

/-! ## Laps -/

section Laps

variable {c : Clock σ} {f : Format} {g : Generator} {patience reading : Nat} {s : σ}

/-- The laps that a call takes, and what comes out, are settled by its start. -/
theorem Laps.unique {n n' : Nat} {call call' : Call σ Nat} (h : Laps c f g n patience reading s call)
    (h' : Laps c f g n' patience reading s call') : n' = n ∧ call' = call := by
  induction h generalizing n' call' with
  | ends hends =>
    cases h' with
    | ends hends' =>
      rw [hends] at hends'
      cases hends'
      exact ⟨rfl, rfl⟩
    | again hagain' _ =>
      rw [hends] at hagain'
      cases hagain'
  | again hagain _ ih =>
    cases h' with
    | ends hends' =>
      rw [hagain] at hends'
      cases hends'
    | again hagain' hrest' =>
      rw [hagain] at hagain'
      cases hagain'
      obtain ⟨rfl, rfl⟩ := ih hrest'
      exact ⟨rfl, rfl⟩

/-- A round of the loop is a lap, and the rest of the rounds if that ends with a wait. -/
theorem rounds_succ (n : Nat) :
    rounds c f g (n + 1) patience reading s
      = match lap c f g patience reading s with
        | .ends call => call
        | .again wait =>
          (rounds c f g n (patience - wait.parks.length) wait.reading wait.clock).afterWait reading wait := by
  conv => lhs; unfold rounds
  unfold lap
  dsimp only
  cases Verdict.onTick f.layout (g.last.get f) (tickAt f.layout.tickMillis reading) with
  | issue timestamp stamp => rfl
  | refuse => rfl
  | wait past =>
    dsimp only
    cases (c.waitPast past f.layout.tickMillis patience s).ending with
    | cutShort pause => rfl
    | reached t => rfl

/-- On a reading past the last stamp there is nothing to wait for. -/
theorem lap_of_fresh (c : Clock σ) (patience : Nat) (s : σ)
    (h : ∀ stamp ∈ g.last.get f, stamp.tick < tickAt f.layout.tickMillis reading) :
    ∃ call, lap c f g patience reading s = .ends call ∧ call.waits = 0 := by
  have hverdict : Verdict.onTick f.layout (g.last.get f) (tickAt f.layout.tickMillis reading)
      = Verdict.onRange f.layout (g.last.get f) (tickAt f.layout.tickMillis reading) := by
    cases hlast : g.last.get f with
    | none => exact Verdict.onTick_none ..
    | some stamp => exact Verdict.onTick_of_le _ (Nat.le_of_lt (h stamp hlast))
  unfold lap
  dsimp only
  rw [hverdict, Verdict.onRange_of_fresh _ h]
  cases f.layout.timestampOf? (tickAt f.layout.tickMillis reading) with
  | none => exact ⟨_, rfl, rfl⟩
  | some timestamp => exact ⟨_, rfl, rfl⟩

/-- A lap that does not end the call leaves a reading past the last stamp; one that does has waited once
at most. -/
theorem lap_cases (c : Clock σ) (f : Format) (g : Generator) (patience reading : Nat) (s : σ) :
    (∃ call, lap c f g patience reading s = .ends call ∧ call.waits ≤ 1)
      ∨ ∃ wait, lap c f g patience reading s = .again wait
        ∧ ∀ stamp ∈ g.last.get f, stamp.tick < tickAt f.layout.tickMillis wait.reading := by
  unfold lap
  dsimp only
  cases hverdict : Verdict.onTick f.layout (g.last.get f) (tickAt f.layout.tickMillis reading) with
  | issue timestamp stamp => exact Or.inl ⟨_, rfl, Nat.zero_le _⟩
  | refuse => exact Or.inl ⟨_, rfl, Nat.zero_le _⟩
  | wait past =>
    dsimp only
    cases hending : (c.waitPast past f.layout.tickMillis patience s).ending with
    | cutShort pause => exact Or.inl ⟨_, rfl, Nat.le_refl _⟩
    | reached t =>
      refine Or.inr ⟨_, rfl, ?_⟩
      intro stamp hstamp
      obtain ⟨last, hlast, rfl⟩ := Verdict.eq_of_onTick_eq_wait hverdict
      obtain ⟨rfl, hlt⟩ := c.waitPast_reached hending
      rw [hlast] at hstamp
      cases hstamp
      exact hlt

/-- Whatever the clock reads, a call is over after two laps and has waited once at most. -/
theorem laps_generate (c : Clock σ) (f : Format) (g : Generator) (patience : Nat) (s : σ) :
    (generate c f patience g s).waits ≤ 1
      ∧ ∃ n, n ≤ 2 ∧ Laps c f g n patience (c.read s).1 (c.read s).2 (generate c f patience g s) := by
  unfold generate
  rw [rounds_succ]
  rcases lap_cases c f g patience (c.read s).1 (c.read s).2 with ⟨call, hends, hwaits⟩ | ⟨wait, hagain, hpast⟩
  · rw [hends]
    exact ⟨hwaits, 1, by omega, .ends hends⟩
  · obtain ⟨call, hends, hwaits⟩ := lap_of_fresh c (patience - wait.parks.length) wait.clock hpast
    rw [hagain]
    dsimp only
    rw [rounds_succ, hends]
    refine ⟨?_, 2, Nat.le_refl _, .again hagain (.ends hends)⟩
    show call.waits + 1 ≤ 1
    omega

end Laps

/-! ## What a call waits for -/

section Wait

variable {c : Clock σ} {f : Format} {g : Generator} {s : σ}

theorem settled_settle (stamp : Stamp) {call : Call σ Nat} (h : call.outcome = (settle f g stamp).1) :
    Settled f call := by
  unfold Settled
  rw [h]
  unfold settle
  split
  · exact Or.inl ⟨_, rfl⟩
  · exact Or.inr ⟨_, rfl⟩

/-- A call that takes its stamp at once is settled without a park. -/
theorem settlesAfter_of_take {stamp : Stamp}
    (hplan : Plan.onTick f.layout.maxSequence (g.last.get f) (tickAt f.layout.tickMillis (c.read s).1) = .take stamp) :
    SettlesAfter c f g s 0 := by
  have hcall := generate_of_plan c f g hplan
  refine ⟨?_, ?_, fun patience _ => ?_⟩
  · exact settled_settle stamp (by rw [hcall])
  · rw [hcall]
    rfl
  · rw [hcall, hcall]

/-- A call that is to wait is settled with the first reading past the tick. -/
theorem settlesAfter_of_first (hfits : ∀ stamp ∈ g.last.get f, stamp.Fits f.layout) {tick k : Nat}
    (hplan : Plan.onTick f.layout.maxSequence (g.last.get f) (tickAt f.layout.tickMillis (c.read s).1) = .waitPast tick)
    (hpast : c.IsPast tick f.layout.tickMillis (c.read s).2 k)
    (hbefore : ∀ i < k, ¬c.IsPast tick f.layout.tickMillis (c.read s).2 i) : SettlesAfter c f g s k := by
  have hcall := fun patience (hk : k ≤ patience) =>
    rounds_of_first_past c f g hfits hplan ((c.firstPast?_eq_some ..).2 ⟨hk, hpast, hbefore⟩) 0
  refine ⟨?_, ?_, fun patience hk => ?_⟩
  · exact settled_settle _ (congrArg Call.outcome (hcall k (Nat.le_refl k)))
  · have hparks := congrArg Call.parks (hcall k (Nat.le_refl k))
    show (rounds ..).parks.length = k
    rw [hparks]
    simp
  · exact (hcall patience hk).trans (hcall k (Nat.le_refl k)).symm

theorem exists_settlesAfter (hfits : ∀ stamp ∈ g.last.get f, stamp.Fits f.layout) {tick k : Nat}
    (hplan : Plan.onTick f.layout.maxSequence (g.last.get f) (tickAt f.layout.tickMillis (c.read s).1) = .waitPast tick)
    (hpast : c.IsPast tick f.layout.tickMillis (c.read s).2 k) : ∃ parks, parks ≤ k ∧ SettlesAfter c f g s parks := by
  have hsome : ∃ i, c.IsPast tick f.layout.tickMillis (c.read s).2 i := ⟨k, hpast⟩
  refine ⟨Nat.find hsome, Nat.find_le hpast, ?_⟩
  exact settlesAfter_of_first hfits hplan (Nat.find_spec hsome) fun i hi => Nat.find_min hsome hi

/-- If the next tick starts where no clock can read, the call waits as long as it is let. -/
theorem interrupted_of_lt (hfits : ∀ stamp ∈ g.last.get f, stamp.Fits f.layout) {tick : Nat}
    (hplan : Plan.onTick f.layout.maxSequence (g.last.get f) (tickAt f.layout.tickMillis (c.read s).1) = .waitPast tick)
    (hlt : wordMax < (tick + 1) * f.layout.tickMillis) (patience : Nat) :
    (generate c f patience g s).parks.length = patience
      ∧ ∃ pause, (generate c f patience g s).outcome = .error (.interrupted pause) := by
  have hnone : ∀ i ≤ patience, ¬c.IsPast tick f.layout.tickMillis (c.read s).2 i := by
    intro i _ hpast
    have hle := Clock.le_of_isPast f.layout.tickMillis_pos hpast
    omega
  have hcall := rounds_of_none_past c f g hfits hplan hnone 1
  unfold generate
  rw [hcall]
  exact ⟨by simp, _, rfl⟩

end Wait

/-! ## The end of the widest format -/

section End

variable {f : Format} {g : Generator} {last : Stamp} {m : Nat}

/-- The widest format's last stamp is of the last tick that a clock can read, and a later one is needed. -/
def AtTheEnd (f : Format) (last : Stamp) (m : Nat) : Prop :=
  f = .id128 ∧ last.tick = wordMax ∧ (last.sequence = f.layout.maxSequence ∨ m < wordMax)

theorem plan_of_atTheEnd (hlast : g.last.get f = some last) (hm : m ≤ wordMax) (h : AtTheEnd f last m) :
    Plan.onTick f.layout.maxSequence (g.last.get f) (tickAt f.layout.tickMillis m) = .waitPast wordMax := by
  obtain ⟨rfl, htick, hneeded⟩ := h
  have hreading : tickAt Format.id128.layout.tickMillis m = m := Nat.div_one m
  rw [hlast, hreading]
  apply Plan.onTick_eq_waitPast htick
  omega

/-- Everywhere else a clock can read the start of the tick that is waited for. -/
theorem mul_le_of_not_atTheEnd (hlast : g.last.get f = some last) (hfits : last.Fits f.layout) {tick : Nat}
    (hplan : Plan.onTick f.layout.maxSequence (g.last.get f) (tickAt f.layout.tickMillis m) = .waitPast tick)
    (h : ¬AtTheEnd f last m) : (tick + 1) * f.layout.tickMillis ≤ wordMax := by
  obtain ⟨stamp, hstamp, rfl, hle, hfull⟩ := Plan.of_waitPast hplan
  rw [hlast] at hstamp
  cases hstamp
  apply nextTick_mul_le hfits
  rintro rfl
  have hreading : tickAt Format.id128.layout.tickMillis m = m := Nat.div_one m
  rw [hreading] at hle hfull
  have htick : last.tick ≤ 0 + wordMax := hfits.tick_le
  have hsequence := hfits.sequence_le
  apply Nat.lt_of_le_of_ne (by omega)
  intro hend
  apply h
  refine ⟨rfl, hend, ?_⟩
  omega

/-- A call that is not at the end is settled at once, or waits for a tick whose start a clock can read. -/
theorem settles_or_waits {c : Clock σ} {s : σ} (hfits : ∀ stamp ∈ g.last.get f, stamp.Fits f.layout)
    (h : ∀ last ∈ g.last.get f, ¬AtTheEnd f last (c.read s).1) :
    SettlesAfter c f g s 0
      ∨ ∃ tick, Plan.onTick f.layout.maxSequence (g.last.get f) (tickAt f.layout.tickMillis (c.read s).1)
          = .waitPast tick
        ∧ (tick + 1) * max f.layout.tickMillis 1 ≤ wordMax := by
  cases hplan : Plan.onTick f.layout.maxSequence (g.last.get f) (tickAt f.layout.tickMillis (c.read s).1) with
  | take stamp => exact Or.inl (settlesAfter_of_take hplan)
  | waitPast tick =>
    refine Or.inr ⟨tick, rfl, ?_⟩
    obtain ⟨stamp, hstamp, -⟩ := Plan.of_waitPast hplan
    rw [Nat.max_eq_left f.layout.tickMillis_pos]
    exact mul_le_of_not_atTheEnd hstamp (hfits stamp hstamp) hplan (h stamp hstamp)

end End

/-! ## In every state that a run can leave -/

/-- **Returning.**  In every state that a run can leave, whatever a clock reads, a call takes two laps at
most and waits once at most.  On a clock that every park moves on it returns with an id or a refusal, and
after one park at most if parks move the clock by their whole pause; except if the widest format's last
id is of the last tick that a clock can read, and that tick is used up or the clock is behind it.  Then no
clock lets the call return: it parks as often as it is let. -/
theorem returns_unless_at_the_end {nodeId : Nat} {g : Generator} (hg : ofNodeId nodeId = .ok g) (c : Clock σ)
    (s : σ) (steps : List (Step σ)) (f : Format) (c' : Clock τ) (s' : τ) :
    let L := f.layout
    let ids := issued f (run c g s steps)
    let g' := after g (run c g s steps)
    let first := (c'.read s').1
    let atTheEnd := f = .id128 ∧ ∃ last, ids.getLast? = some last ∧ L.epochTick + L.timestamp last = wordMax
      ∧ (L.sequence last = L.maxSequence ∨ first < wordMax)
    (∀ patience,
        let call := generate c' f patience g' s'
        call.waits ≤ 1 ∧ ∃ laps, laps ≤ 2
          ∧ ∀ n call', Laps c' f g' n patience first (c'.read s').2 call' ↔ n = laps ∧ call' = call)
      ∧ (¬atTheEnd → c'.Advances (fun _ => 1) s' → ∃ parks, SettlesAfter c' f g' s' parks)
      ∧ (¬atTheEnd → c'.Advances id s' → ∃ parks, parks ≤ 1 ∧ SettlesAfter c' f g' s' parks)
      ∧ (atTheEnd → ∀ patience,
          let call := generate c' f patience g' s'
          call.parks.length = patience ∧ ∃ pause, call.outcome = .error (.interrupted pause)) := by
  intro L ids g' first atTheEnd
  have hfits := (run_progress c (sound_of_fresh hg) s steps).sound (sound_of_fresh hg) f
  have hlast : g'.last.get f = ids.getLast?.map L.stampOf := last_after hg c s steps f
  have hnotLast : ¬atTheEnd → ∀ last ∈ g'.last.get f, ¬AtTheEnd f last first := by
    rintro hnot stamp hstamp ⟨hf, htick, hneeded⟩
    rw [hlast] at hstamp
    obtain ⟨id, hid, rfl⟩ := Option.map_eq_some_iff.1 hstamp
    exact hnot ⟨hf, id, hid, htick, hneeded⟩
  refine ⟨fun patience => ?_, fun hnot hadvances => ?_, fun hnot hadvances => ?_, ?_⟩
  · obtain ⟨hwaits, laps, hle, hlaps⟩ := laps_generate c' f g' patience s'
    refine ⟨hwaits, laps, hle, fun n call' => ⟨hlaps.unique, ?_⟩⟩
    rintro ⟨rfl, rfl⟩
    exact hlaps
  · rcases settles_or_waits hfits (hnotLast hnot) with hsettles | ⟨tick, hplan, hle⟩
    · exact ⟨0, hsettles⟩
    · obtain ⟨parks, -, hsettles⟩ := exists_settlesAfter hfits hplan (hadvances.read.isPast hle)
      exact ⟨parks, hsettles⟩
  · rcases settles_or_waits hfits (hnotLast hnot) with hsettles | ⟨tick, hplan, hle⟩
    · exact ⟨0, Nat.zero_le _, hsettles⟩
    · exact exists_settlesAfter hfits hplan (hadvances.read.isPast_one hle)
  · rintro ⟨hf, last, hid, htick, hneeded⟩ patience
    rw [hid, Option.map_some] at hlast
    have hplan := plan_of_atTheEnd hlast (c'.read_le s') ⟨hf, htick, hneeded⟩
    have hpos := f.layout.tickMillis_pos
    exact interrupted_of_lt hfits hplan (Nat.lt_of_lt_of_le (Nat.lt_succ_self _) (Nat.le_mul_of_pos_right _ hpos)) patience

/-- On a clock that moves 4 seconds at a time a call behind the last id's tick returns after three parks.
At the last tick that a clock can read the widest format returns at once while it has numbers left, and
never if the clock is a millisecond behind. -/
theorem returns_late_or_never :
    ∃ g, ofNodeId 5 = .ok g ∧
      let slow : ManualClock := { reading := customEpochMillis + 19000, cap := some 4000, reading_le := by decide }
      let g' := after g (run ManualClock.clock g (.steady (customEpochMillis + 20000)) [.generate .number .tiny 0])
      let spent := after g (run ManualClock.clock g (.steady wordMax) [.generate .number .id128 0])
      ManualClock.clock.Advances (fun _ => 1) slow
        ∧ (∃ parks, SettlesAfter ManualClock.clock .tiny g' slow parks)
        ∧ (generate ManualClock.clock .tiny 3 g' slow).parks = [11000, 7000, 3000]
        ∧ ManualClock.clock.Advances id (.steady wordMax)
        ∧ (∃ parks, parks ≤ 1 ∧ SettlesAfter ManualClock.clock .id128 spent (.steady wordMax) parks)
        ∧ ∀ patience,
          let call := generate ManualClock.clock .id128 patience spent (.steady (wordMax - 1))
          call.parks.length = patience ∧ ∃ pause, call.outcome = .error (.interrupted pause) := by
  have hg : ofNodeId 5 = .ok { nodeId := 5, nodeId_le := by decide } := rfl
  have hslow : ManualClock.clock.Advances (fun _ => 1) ⟨customEpochMillis + 19000, some 4000, 0, [], by decide⟩ :=
    (ManualClock.paced rfl rfl rfl).advances fun pause hpause => by
      show 1 ≤ min pause 4000 + 0
      omega
  have hsteady : ManualClock.clock.Advances id (.steady wordMax) :=
    (ManualClock.paced rfl rfl rfl).advances fun pause _ => Nat.le_refl pause
  obtain ⟨-, hlate, -, -⟩ := returns_unless_at_the_end hg ManualClock.clock (.steady (customEpochMillis + 20000))
    [.generate .number .tiny 0] .tiny ManualClock.clock ⟨customEpochMillis + 19000, some 4000, 0, [], by decide⟩
  obtain ⟨-, -, honce, -⟩ := returns_unless_at_the_end hg ManualClock.clock (.steady wordMax)
    [.generate .number .id128 0] .id128 ManualClock.clock (.steady wordMax)
  obtain ⟨-, -, -, hnever⟩ := returns_unless_at_the_end hg ManualClock.clock (.steady wordMax)
    [.generate .number .id128 0] .id128 ManualClock.clock (.steady (wordMax - 1))
  have hleft : ¬(Format.id128 = .id128 ∧ ∃ last, some 340282366920938463444927863358058987520 = some last
      ∧ Format.id128.layout.epochTick + Format.id128.layout.timestamp last = wordMax
      ∧ (Format.id128.layout.sequence last = Format.id128.layout.maxSequence ∨ wordMax < wordMax)) := by
    rintro ⟨-, last, hlast, -, hneeded⟩
    cases hlast
    revert hneeded
    decide
  exact ⟨_, hg, hslow, hlate (fun h => nomatch h.1) hslow, rfl, hsteady, honce hleft hsteady,
    hnever ⟨rfl, 340282366920938463444927863358058987520, rfl, rfl, Or.inr (by decide)⟩⟩

end Generator

end Snowflake
