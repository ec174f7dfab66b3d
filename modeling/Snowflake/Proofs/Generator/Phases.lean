import Snowflake.Proofs.Generator.Parking
import Snowflake.Proofs.Generator.Refusal
import Snowflake.Proofs.Generator.Separation

/-!
# Phases: before the epoch, in range, past the end

On a clock that does not go back, the calls for ids of one format go through three phases: refused
before the format's epoch, given ids, and refused past its last timestamp.

* The calls of a run are a `Succession`: each one starts from the memory that the one before left
  (`run_succession`).  So once a stamp is remembered, no tick before the epoch is refused any more.
* A call whose first reading is past the end is refused on this reading, without a park
  (`refusedAt_of_past`), as no stamp is past the end.  So the format stays at its end.

A call that is cut short waited for the tick of a stamp, and so belongs to the second phase
(`stamped_or_refused`).
-/

namespace Snowflake

variable {σ α : Type}

/-- The call was refused for this tick of the format. -/
def Call.RefusedAt (call : Call σ α) (f : Format) (tick : Nat) : Prop :=
  call.outcome = .error (.refused (.clockRangeExceeded f tick))

/-- The call gave an id. -/
def Call.Gives (call : Call σ α) : Prop := ∃ a, call.outcome = .ok a

/-- The call was still waiting when its patience ended. -/
def Call.Hangs (call : Call σ α) : Prop := ∃ pause, call.outcome = .error (.interrupted pause)

theorem Call.RefusedAt.tick_eq {call : Call σ α} {f : Format} {tick tick' : Nat} (h : call.RefusedAt f tick)
    (h' : call.RefusedAt f tick') : tick = tick' := by
  cases h.symm.trans h'
  rfl

theorem Call.RefusedAt.not_gives {call : Call σ α} {f : Format} {tick : Nat} (h : call.RefusedAt f tick) :
    ¬call.Gives := by
  rintro ⟨a, ha⟩
  cases h.symm.trans ha

theorem Call.RefusedAt.not_hangs {call : Call σ α} {f : Format} {tick : Nat} (h : call.RefusedAt f tick) :
    ¬call.Hangs := by
  rintro ⟨pause, hpause⟩
  cases h.symm.trans hpause

/-- The last tick of a format. -/
def Format.endTick (f : Format) : Nat := f.layout.epochTick + f.layout.maxTimestamp

namespace Generator

/-! ## The calls of a run -/

/-- The calls that a step makes, in order. -/
def Step.calls (c : Clock σ) (g : Generator) (s : σ) : Step σ → List (Call σ Issue)
  | .generate form f patience => [generateAs c form f patience g s]
  | .burst form f count patience => (Generator.burst c form f count patience g s).calls
  | .move _ | .now _ | .node => []

/-- The calls for ids of a format that a run makes, in order. -/
def callsOf (c : Clock σ) (f : Format) : Generator → σ → List (Step σ) → List (Call σ Issue)
  | _, _, [] => []
  | g, s, step :: steps =>
    let done := perform c g s step
    (if step.format? = some f then step.calls c g s else []) ++ callsOf c f done.generator done.clock steps

theorem callsOf_cons (c : Clock σ) (f : Format) (g : Generator) (s : σ) (step : Step σ) (steps : List (Step σ)) :
    callsOf c f g s (step :: steps)
      = (if step.format? = some f then step.calls c g s else [])
        ++ callsOf c f (perform c g s step).generator (perform c g s step).clock steps := rfl

/-- Calls for ids of a format, each from the stamp that the one before remembered. -/
inductive Succession (c : Clock σ) (f : Format) :
    (last : Option Stamp) → List (Call σ Issue) → (last' : Option Stamp) → Prop
  | nil (last : Option Stamp) : Succession c f last [] last
  | cons {last' : Option Stamp} {calls : List (Call σ Issue)} {g : Generator} (form : Form) (patience : Nat) (s : σ) :
      g.Sound → Succession c f ((generateAs c form f patience g s).generator.last.get f) calls last' →
      Succession c f (g.last.get f) (generateAs c form f patience g s :: calls) last'

variable {c : Clock σ} {f : Format} {g : Generator} {s : σ}

namespace Succession

variable {last last' last'' : Option Stamp} {calls calls' : List (Call σ Issue)}

theorem single (form : Form) (patience : Nat) (hg : g.Sound) (s : σ) :
    Succession c f (g.last.get f) [generateAs c form f patience g s]
      ((generateAs c form f patience g s).generator.last.get f) := .cons form patience s hg (.nil _)

theorem append (h : Succession c f last calls last') (h' : Succession c f last' calls' last'') :
    Succession c f last (calls ++ calls') last'' := by
  induction h with
  | nil => exact h'
  | cons form patience s hg _ ih => exact .cons form patience s hg (ih h')

/-- Every call of a succession is one on a sound generator. -/
theorem exists_generateAs (h : Succession c f last calls last') {call : Call σ Issue} (hcall : call ∈ calls) :
    ∃ (g : Generator) (form : Form) (patience : Nat) (s : σ), g.Sound ∧ call = generateAs c form f patience g s := by
  induction h with
  | nil => cases hcall
  | cons form patience s hg _ ih =>
    rcases List.mem_cons.1 hcall with rfl | hcall
    · exact ⟨_, form, patience, s, hg, rfl⟩
    · exact ih hcall

end Succession

/-- A burst goes on with a succession of calls. -/
theorem continueBurst_succession (form : Form) (patience n : Nat) {last : Option Stamp} {b : Burst σ}
    (hg : b.generator.Sound) (hb : Succession c f last b.calls (b.generator.last.get f)) :
    Succession c f last (continueBurst c form f patience n b).calls
      ((continueBurst c form f patience n b).generator.last.get f) := by
  induction n generalizing b with
  | zero => exact hb
  | succ n ih =>
    unfold continueBurst
    split
    · exact hb
    · refine ih ((generateAs_progress c form f patience hg b.clock).sound hg) ?_
      rw [Burst.calls_add]
      exact hb.append (.single form patience hg b.clock)

theorem step_succession (hg : g.Sound) (s : σ) {step : Step σ} (h : step.format? = some f) :
    Succession c f (g.last.get f) (step.calls c g s) ((perform c g s step).generator.last.get f) := by
  cases step with
  | move _ | now _ | node => cases h
  | generate form f' patience =>
    cases h
    exact .single form patience hg s
  | burst form f' count patience =>
    cases h
    exact continueBurst_succession form patience count (b := { generator := g, clock := s }) hg (.nil _)

/-- **Succession.**  The calls that a run makes for ids of a format follow each other, whatever comes between them. -/
theorem run_succession (hg : g.Sound) (s : σ) (steps : List (Step σ)) :
    Succession c f (g.last.get f) (callsOf c f g s steps) ((after g (run c g s steps)).last.get f) := by
  induction steps generalizing g s with
  | nil => exact .nil _
  | cons step steps ih =>
    have hrest := ih ((perform_progress c hg s step).sound hg) (perform c g s step).clock
    rw [callsOf_cons]
    split
    · next h => exact (step_succession hg s h).append hrest
    · next h =>
      rw [last_eq_of_only_eq (only_perform c s h)] at hrest
      exact hrest

/-- The ids of a step are those that its calls give. -/
theorem idsOf_perform_eq (c : Clock σ) (g : Generator) (s : σ) {step : Step σ} (h : step.format? = some f) :
    (perform c g s step).answer.idsOf f = (step.calls c g s).flatMap fun call => idsOf call.outcome := by
  cases step with
  | move _ | now _ | node => cases h
  | generate form f' patience =>
    cases h
    unfold perform Step.calls
    dsimp only
    rw [List.flatMap_singleton]
    cases (generateAs c form f patience g s).outcome with
    | ok issue => exact if_pos rfl
    | error failure => rfl
  | burst form f' count patience =>
    cases h
    have hids : (perform c g s (.burst form f count patience)).answer.idsOf f
        = (burst c form f count patience g s).issues.map Issue.raw := if_pos rfl
    rw [hids]
    unfold Burst.issues Step.calls
    rw [List.filterMap_eq_flatMap_toList, List.map_flatMap]
    rfl

/-- **Ids.**  The ids of a format that a run gives out are those that its calls give. -/
theorem issued_eq_idsOf_calls (c : Clock σ) (f : Format) (g : Generator) (s : σ) (steps : List (Step σ)) :
    issued f (run c g s steps) = (callsOf c f g s steps).flatMap fun call => idsOf call.outcome := by
  induction steps generalizing g s with
  | nil => rfl
  | cons step steps ih =>
    have hsplit : issued f (run c g s (step :: steps))
        = (perform c g s step).answer.idsOf f
          ++ issued f (run c (perform c g s step).generator (perform c g s step).clock steps) := rfl
    rw [hsplit, ih, callsOf_cons, List.flatMap_append]
    split
    · next h => rw [idsOf_perform_eq c g s h]
    · next h => rw [idsOf_perform c s h, List.flatMap_nil]

/-- A step takes the readings of its calls. -/
theorem readings_perform (c : Clock σ) (g : Generator) (s : σ) {step : Step σ} (h : step.format? = some f) :
    (perform c g s step).readings = (step.calls c g s).flatMap Call.readings := by
  cases step with
  | move _ | now _ | node => cases h
  | generate form f' patience => exact (List.append_nil _).symm
  | burst form f' count patience => rfl

/-- The readings of the calls are among those of the run, in the same order. -/
theorem readings_sublist (c : Clock σ) (f : Format) (g : Generator) (s : σ) (steps : List (Step σ)) :
    ((callsOf c f g s steps).flatMap Call.readings).Sublist ((run c g s steps).flatMap Done.readings) := by
  induction steps generalizing g s with
  | nil => exact .slnil
  | cons step steps ih =>
    rw [callsOf_cons, List.flatMap_append]
    refine .append ?_ (ih _ _)
    split
    · next h =>
      rw [readings_perform c g s h]
    · exact List.nil_sublist _

/-! ## Past the end -/

/-- A call whose first reading is past the end is refused for it, without a park. -/
theorem refusedAt_of_past (form : Form) (patience : Nat) (hg : g.Sound)
    (h : f.endTick < tickAt f.layout.tickMillis (c.read s).1) :
    (generateAs c form f patience g s).RefusedAt f (tickAt f.layout.tickMillis (c.read s).1)
      ∧ (generateAs c form f patience g s).parks = [] := by
  let stamp : Stamp := ⟨tickAt f.layout.tickMillis (c.read s).1, 0⟩
  have hplan : Plan.onTick f.layout.maxSequence (g.last.get f) (tickAt f.layout.tickMillis (c.read s).1) = .take stamp :=
    Plan.onTick_past fun last hlast => Nat.lt_of_le_of_lt (hg f last hlast).tick_le h
  have hend : f.layout.epochTick + f.layout.maxTimestamp < stamp.tick := h
  unfold Call.RefusedAt
  rw [generateAs_eq_map c form f patience hg, generate_of_plan c f g hplan, settle_of_lt hend]
  exact ⟨rfl, rfl⟩

/-- Every call reads the clock first. -/
theorem read_mem_readings (form : Form) (patience : Nat) (hg : g.Sound) (s : σ) :
    (c.read s).1 ∈ (generateAs c form f patience g s).readings := by
  rw [generateAs_eq_map c form f patience hg]
  show _ ∈ (generate c f patience g s).readings
  rw [generate_eq_rule c f g (hg f)]
  unfold followRule
  dsimp only
  split
  · exact List.mem_cons_self
  · split <;> exact List.mem_cons_self

/-- A call that failed in a form failed as `generate` does. -/
theorem outcome_of_generateAs {form : Form} {patience : Nat} (hg : g.Sound) {failure : Failure}
    (h : (generateAs c form f patience g s).outcome = .error failure) :
    (generate c f patience g s).outcome = .error failure := by
  rw [generateAs_eq_map c form f patience hg] at h
  unfold Call.map at h
  dsimp only at h
  cases ho : (generate c f patience g s).outcome with
  | ok id =>
    rw [ho] at h
    cases h
  | error failure' =>
    rw [ho] at h
    cases h
    rfl

/-- A refused call was refused for the tick of a reading that it took, which is out of the format's range
and not behind the last stamp. -/
theorem of_generateAs_refused {form : Form} {patience : Nat} (hg : g.Sound) {e : Error}
    (h : (generateAs c form f patience g s).outcome = .error (.refused e)) :
    ∃ reading ∈ (generateAs c form f patience g s).readings,
      e = .clockRangeExceeded f (tickAt f.layout.tickMillis reading)
        ∧ (tickAt f.layout.tickMillis reading < f.layout.epochTick ∨ f.endTick < tickAt f.layout.tickMillis reading)
        ∧ ∀ last ∈ g.last.get f, last.tick ≤ tickAt f.layout.tickMillis reading := by
  obtain ⟨reading, hlast, hrest⟩ := of_refused (hg f) (outcome_of_generateAs hg h)
  rw [generateAs_eq_map c form f patience hg]
  exact ⟨reading, List.mem_of_getLast? hlast, hrest⟩

/-- A call that hangs waits for the tick of a stamp to pass. -/
theorem last_ne_none_of_hangs {form : Form} {patience : Nat} (hg : g.Sound)
    (h : (generateAs c form f patience g s).Hangs) : g.last.get f ≠ none := by
  obtain ⟨pause, ho⟩ := h
  intro hnone
  have hplan : Plan.onTick f.layout.maxSequence (g.last.get f) (tickAt f.layout.tickMillis (c.read s).1)
      = .take ⟨tickAt f.layout.tickMillis (c.read s).1, 0⟩ := by
    rw [hnone]
    rfl
  have hinterrupted := outcome_of_generateAs hg ho
  rw [generate_of_plan c f g hplan] at hinterrupted
  exact settle_ne_interrupted _ pause hinterrupted

/-- After a call there is a stamp, or the call was refused. -/
theorem stamped_or_refused (form : Form) (patience : Nat) (hg : g.Sound) (s : σ) :
    let call := generateAs c form f patience g s
    ((call.Gives ∨ call.Hangs) ∧ call.generator.last.get f ≠ none)
      ∨ ∃ tick, call.RefusedAt f tick ∧ (tick < f.layout.epochTick ∨ f.endTick < tick)
        ∧ ∀ last ∈ g.last.get f, last.tick ≤ tick := by
  intro call
  rcases generateAs_cases c form f patience hg s with ⟨stamp, _, _, _, _, _, ho, hgen⟩ | ⟨failure, ho, hgen⟩
  · refine Or.inl ⟨Or.inl ⟨_, ho⟩, ?_⟩
    rw [hgen, last_remember_self]
    exact Option.some_ne_none _
  · cases failure with
    | interrupted pause =>
      refine Or.inl ⟨Or.inr ⟨_, ho⟩, ?_⟩
      rw [hgen]
      exact last_ne_none_of_hangs hg ⟨_, ho⟩
    | refused e =>
      obtain ⟨reading, -, rfl, hrange, hbehind⟩ := of_generateAs_refused hg ho
      exact Or.inr ⟨_, ho, hrange, hbehind⟩

/-- Once the first call is refused past the end, so is the second, without a park and for no earlier tick. -/
def StaysPast (f : Format) (a b : Call σ Issue) : Prop :=
  ∀ tick, f.endTick < tick → a.RefusedAt f tick → b.parks = [] ∧ ∃ tick', tick ≤ tick' ∧ b.RefusedAt f tick'

theorem staysPast_of_readings {a b : Call σ Issue} {last last' : Option Stamp} {calls : List (Call σ Issue)}
    (h : Succession c f last calls last') (ha : a ∈ calls) (hb : b ∈ calls)
    (hle : ∀ x ∈ a.readings, ∀ y ∈ b.readings, x ≤ y) : StaysPast f a b := by
  intro tick hend hrefused
  obtain ⟨gA, formA, patienceA, sA, hgA, rfl⟩ := h.exists_generateAs ha
  obtain ⟨gB, formB, patienceB, sB, hgB, rfl⟩ := h.exists_generateAs hb
  obtain ⟨reading, hreading, he, -, -⟩ := of_generateAs_refused hgA hrefused
  cases he
  have hmono : tickAt f.layout.tickMillis reading ≤ tickAt f.layout.tickMillis (c.read sB).1 :=
    Nat.div_le_div_right (hle reading hreading _ (read_mem_readings formB patienceB hgB sB))
  obtain ⟨hrefused', hparks⟩ := refusedAt_of_past formB patienceB hgB (Nat.lt_of_lt_of_le hend hmono)
  exact ⟨hparks, _, hmono, hrefused'⟩

theorem Succession.pairwise_staysPast {last last' : Option Stamp} {calls : List (Call σ Issue)}
    (h : Succession c f last calls last') (hclock : (calls.flatMap Call.readings).Pairwise (· ≤ ·)) :
    calls.Pairwise (StaysPast f) := by
  obtain ⟨-, hpairs⟩ := List.pairwise_flatMap.1 hclock
  exact hpairs.imp_of_mem fun ha hb hle => staysPast_of_readings h ha hb hle

/-! ## The three phases -/

/-- Calls refused past the end, all of them. -/
def AllPast (f : Format) (calls : List (Call σ Issue)) : Prop :=
  ∀ call ∈ calls, ∃ tick, f.endTick < tick ∧ call.RefusedAt f tick

/-- Calls that give ids, but for those that hang, and then calls refused past the end. -/
def Opened (f : Format) (calls : List (Call σ Issue)) : Prop :=
  ∃ given late, calls = given ++ late ∧ (∀ call ∈ given, call.Gives ∨ call.Hangs) ∧ AllPast f late

/-- Calls refused before the epoch, and then those of the other two phases. -/
def InPhases (f : Format) (calls : List (Call σ Issue)) : Prop :=
  ∃ early rest, calls = early ++ rest ∧ (∀ call ∈ early, ∃ tick < f.layout.epochTick, call.RefusedAt f tick)
    ∧ Opened f rest

variable {a : Call σ Issue} {calls : List (Call σ Issue)}

theorem allPast_cons {tick : Nat} (h : ∀ b ∈ calls, StaysPast f a b) (hend : f.endTick < tick)
    (ha : a.RefusedAt f tick) : AllPast f (a :: calls) := by
  intro call hcall
  rcases List.mem_cons.1 hcall with rfl | hcall
  · exact ⟨tick, hend, ha⟩
  · obtain ⟨-, tick', hle, hrefused⟩ := h call hcall tick hend ha
    exact ⟨tick', Nat.lt_of_lt_of_le hend hle, hrefused⟩

theorem AllPast.opened (h : AllPast f calls) : Opened f calls := ⟨[], calls, rfl, List.forall_mem_nil _, h⟩

theorem Opened.cons (h : Opened f calls) (ha : a.Gives ∨ a.Hangs) : Opened f (a :: calls) := by
  obtain ⟨given, late, rfl, hgiven, hlate⟩ := h
  exact ⟨a :: given, late, rfl, List.forall_mem_cons.2 ⟨ha, hgiven⟩, hlate⟩

theorem Opened.inPhases (h : Opened f calls) : InPhases f calls := ⟨[], calls, rfl, List.forall_mem_nil _, h⟩

theorem InPhases.cons {tick : Nat} (h : InPhases f calls) (htick : tick < f.layout.epochTick)
    (ha : a.RefusedAt f tick) : InPhases f (a :: calls) := by
  obtain ⟨early, rest, rfl, hearly, hrest⟩ := h
  exact ⟨a :: early, rest, rfl, List.forall_mem_cons.2 ⟨⟨tick, htick, ha⟩, hearly⟩, hrest⟩

/-- Once the first phase is over, all refusals are past the end. -/
theorem Opened.past_of_refusedAt (h : Opened f calls) (ha : a ∈ calls) {tick : Nat} (hrefused : a.RefusedAt f tick) :
    f.endTick < tick := by
  obtain ⟨given, late, rfl, hgiven, hlate⟩ := h
  rcases List.mem_append.1 ha with ha | ha
  · exact ((hgiven a ha).elim hrefused.not_gives hrefused.not_hangs).elim
  · obtain ⟨tick', hend, hrefused'⟩ := hlate a ha
    rw [hrefused.tick_eq hrefused']
    exact hend

/-- After the first id, all refusals are past the end. -/
theorem InPhases.pairwise (h : InPhases f calls) :
    calls.Pairwise fun a b => a.Gives → ∀ tick, b.RefusedAt f tick → f.endTick < tick := by
  obtain ⟨early, rest, rfl, hearly, hrest⟩ := h
  have hnone : ∀ a ∈ early, ¬a.Gives := by
    intro a ha
    obtain ⟨tick, -, hrefused⟩ := hearly a ha
    exact hrefused.not_gives
  refine List.pairwise_append.2 ⟨?_, ?_, ?_⟩
  · exact List.pairwise_of_forall_mem_list fun a ha b _ hgives => (hnone a ha hgives).elim
  · exact List.pairwise_of_forall_mem_list fun a _ b hb _ tick => hrest.past_of_refusedAt hb
  · exact fun a ha b _ hgives => (hnone a ha hgives).elim

namespace Succession

variable {last last' : Option Stamp}

/-- Once a stamp is remembered, the first phase is over: no tick behind the stamp is refused. -/
theorem opened (h : Succession c f last calls last') (hpast : calls.Pairwise (StaysPast f)) (hlast : last ≠ none) :
    Opened f calls := by
  induction h with
  | nil => exact AllPast.opened (List.forall_mem_nil _)
  | @cons last' calls g form patience s hg _ ih =>
    obtain ⟨hstays, hpast⟩ := List.pairwise_cons.1 hpast
    rcases stamped_or_refused form patience hg s with ⟨hcall, hsome⟩ | ⟨tick, hrefused, hrange, hbehind⟩
    · exact (ih hpast hsome).cons hcall
    · obtain ⟨stamp, hstamp⟩ := Option.ne_none_iff_exists'.1 hlast
      have hepoch := Nat.le_trans (hg f stamp hstamp).epoch_le (hbehind stamp hstamp)
      exact (allPast_cons hstays (hrange.resolve_left (Nat.not_lt.2 hepoch)) hrefused).opened

/-- **Phases.**  A succession of calls goes through the three phases, if the format stays past its end. -/
theorem inPhases (h : Succession c f last calls last') (hpast : calls.Pairwise (StaysPast f)) :
    InPhases f calls := by
  induction h with
  | nil => exact Opened.inPhases (AllPast.opened (List.forall_mem_nil _))
  | @cons last' calls g form patience s hg hrest ih =>
    obtain ⟨hstays, hpast⟩ := List.pairwise_cons.1 hpast
    rcases stamped_or_refused form patience hg s with ⟨hcall, hsome⟩ | ⟨tick, hrefused, hbefore | hend, -⟩
    · exact ((hrest.opened hpast hsome).cons hcall).inPhases
    · exact (ih hpast).cons hbefore hrefused
    · exact (allPast_cons hstays hend hrefused).opened.inPhases

end Succession

/-! ## In every run on a clock that does not go back -/

/-- **The end is for good.**  From every state that a run can leave, in a run whose readings never decrease:
once a call for an id of the format is refused past the format's last tick, so is every later one, without a
park and for no earlier tick.  After the first id no tick before the epoch is refused, and the calls are some
refused before the epoch, then some that give ids, but for those that hang, then some refused past the end. -/
theorem past_the_end_for_good {nodeId : Nat} (hg : Reachable nodeId g) (c : Clock σ) (s : σ) (steps : List (Step σ))
    (f : Format) (hclock : ((run c g s steps).flatMap Done.readings).Pairwise (· ≤ ·)) :
    let calls := callsOf c f g s steps
    calls.Pairwise (StaysPast f)
      ∧ (calls.Pairwise fun a b => a.Gives → ∀ tick, b.RefusedAt f tick → f.endTick < tick)
      ∧ ∃ early given late, calls = early ++ (given ++ late)
        ∧ (∀ call ∈ early, ∃ tick < f.layout.epochTick, call.RefusedAt f tick)
        ∧ (∀ call ∈ given, call.Gives ∨ call.Hangs)
        ∧ ∀ call ∈ late, ∃ tick, f.endTick < tick ∧ call.RefusedAt f tick := by
  intro calls
  have hrow : Succession c f _ calls _ := run_succession hg.sound s steps
  have hstays := hrow.pairwise_staysPast (hclock.sublist (readings_sublist c f g s steps))
  have hphases := hrow.inPhases hstays
  refine ⟨hstays, hphases.pairwise, ?_⟩
  obtain ⟨early, _, hcalls, hearly, given, late, rfl, hgiven, hlate⟩ := hphases
  exact ⟨early, given, late, hcalls, hearly, hgiven, hlate⟩

/-- Of the narrowest format: a call before the epoch is refused.  On the last tick a burst gives the 16 ids and
hangs; the next call waits past the end and is refused, and so is the burst after it, at its first call. -/
theorem past_the_end_of_a_burst :
    ∃ g, Reachable 5 g ∧
      let last := 2406778230000
      let steps : List (Step ManualClock) :=
        [.generate .number .tiny 0, .move (·.set last), .burst (.text .hex) .tiny 17 0, .now 1000,
          .generate .typed .tiny 1, .move (·.set (last + 25000)), .burst .number .tiny 2 1]
      let calls := callsOf ManualClock.clock .tiny g (.steady 5) steps
      calls.map (fun call => (idsOf call.outcome).length) = [0] ++ List.replicate 16 1 ++ [0, 0, 0]
        ∧ calls.map Call.parks = List.replicate 18 [] ++ [[10000], []]
        ∧ calls.Pairwise (StaysPast .tiny)
        ∧ (calls.Pairwise fun a b => a.Gives → ∀ tick, b.RefusedAt .tiny tick → Format.tiny.endTick < tick)
        ∧ ∃ early given late, calls = early ++ (given ++ late)
          ∧ (∀ call ∈ early, ∃ tick < Format.tiny.layout.epochTick, call.RefusedAt .tiny tick)
          ∧ (∀ call ∈ given, call.Gives ∨ call.Hangs)
          ∧ ∀ call ∈ late, ∃ tick, Format.tiny.endTick < tick ∧ call.RefusedAt .tiny tick := by
  have hg : ofNodeId 5 = .ok { nodeId := 5, nodeId_le := by decide } := rfl
  have hreach : Reachable 5 _ := ⟨_, hg, _, ManualClock.clock, .steady 0, [], rfl⟩
  refine ⟨_, hreach, ?_, ?_, past_the_end_for_good hreach ManualClock.clock (.steady 5) _ .tiny ?_⟩
  · decide +kernel
  · decide +kernel
  · decide +kernel

end Generator

end Snowflake
