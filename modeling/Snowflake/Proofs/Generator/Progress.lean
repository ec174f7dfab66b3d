import Snowflake.Generator.Step
import Snowflake.Proofs.Generator.Forms

/-!
# Progress: how calls, bursts and runs move a generator

`Progress g g' readings ids` says that a generator went from `g` to `g'`, took these
readings and gave out the ids `ids f` of each format `f` on the way: as an `Issuance` from
one memory to the other, and every id on the tick of one of the readings.  Whatever the
clock does, and whether calls succeed or fail, a call makes progress, a burst does, a step
does, and so does a run from its start to its end (`run_progress`).  A sound generator
stays sound on the way.
-/

namespace Snowflake.Generator

/-! ## Progress -/

/-- The generator went on to `g'`, took these readings and gave out the ids `ids f` of each format. -/
structure Progress (g g' : Generator) (readings : List Nat) (ids : Format → List Nat) : Prop where
  nodeId_eq : g'.nodeId = g.nodeId
  issuance : ∀ f, Issuance f.layout g.nodeId (g.last.get f) (ids f) (g'.last.get f)
  reading : ∀ f, ∀ id ∈ ids f, ∃ reading ∈ readings,
    tickAt f.layout.tickMillis reading = f.layout.epochTick + f.layout.timestamp id

/-- These ids of one format, and none of the others. -/
def idsFor (f : Format) (ids : List Nat) : Format → List Nat := fun f' => if f = f' then ids else []

theorem idsFor_nil (f : Format) : idsFor f [] = fun _ => [] := by
  funext f'
  exact ite_self _

theorem idsFor_append (f : Format) (ids ids' : List Nat) :
    idsFor f (ids ++ ids') = fun f' => idsFor f ids f' ++ idsFor f ids' f' := by
  funext f'
  unfold idsFor
  by_cases h : f = f'
  · rw [if_pos h, if_pos h, if_pos h]
  · rw [if_neg h, if_neg h, if_neg h, List.nil_append]

namespace Progress

variable {g g' g'' : Generator} {readings readings' : List Nat} {ids ids' : Format → List Nat}

theorem refl (g : Generator) (readings : List Nat) : Progress g g readings fun _ => [] :=
  ⟨rfl, fun _ => .nil _, fun _ _ hid => (nomatch hid)⟩

theorem trans (h : Progress g g' readings ids) (h' : Progress g' g'' readings' ids') :
    Progress g g'' (readings ++ readings') fun f => ids f ++ ids' f := by
  refine ⟨h'.nodeId_eq.trans h.nodeId_eq, ?_, ?_⟩
  · intro f
    have hrest := h'.issuance f
    rw [h.nodeId_eq] at hrest
    exact (h.issuance f).append hrest
  · intro f id hid
    rcases List.mem_append.1 hid with hid | hid
    · obtain ⟨reading, hmem, htick⟩ := h.reading f id hid
      exact ⟨reading, List.mem_append_left _ hmem, htick⟩
    · obtain ⟨reading, hmem, htick⟩ := h'.reading f id hid
      exact ⟨reading, List.mem_append_right _ hmem, htick⟩

theorem sound (h : Progress g g' readings ids) (hg : g.Sound) : g'.Sound :=
  fun f => (h.issuance f).fits_last (hg f)

end Progress

variable {σ : Type} (c : Clock σ)

/-- Issuing one id on the tick of a reading moves the memory of its format alone. -/
theorem remember_progress {g : Generator} {f : Format} {stamp : Stamp} (hfits : stamp.Fits f.layout)
    (hfollows : stamp.Follows (g.last.get f)) {readings : List Nat} {reading : Nat}
    (hmem : reading ∈ readings) (htick : stamp.tick = tickAt f.layout.tickMillis reading) :
    Progress g (g.remember f stamp) readings (idsFor f [f.layout.idAt g.nodeId stamp]) := by
  have hother : ∀ f', f ≠ f' → idsFor f [f.layout.idAt g.nodeId stamp] f' = [] := fun f' h => if_neg h
  have hsame : idsFor f [f.layout.idAt g.nodeId stamp] f = [f.layout.idAt g.nodeId stamp] := if_pos rfl
  refine ⟨rfl, ?_, ?_⟩
  · intro f'
    by_cases h : f = f'
    · subst h
      rw [hsame, last_remember_self]
      exact .single hfits hfollows
    · rw [hother f' h, last_remember_of_ne g stamp (Ne.symm h)]
      exact .nil _
  · intro f' id hid
    by_cases h : f = f'
    · subst h
      rw [hsame] at hid
      obtain rfl := List.mem_singleton.1 hid
      have hle := hfits.epoch_le
      refine ⟨reading, hmem, ?_⟩
      rw [Layout.timestamp_idAt g.nodeId hfits]
      omega
    · rw [hother f' h] at hid
      cases hid

/-! ## Calls -/

theorem generateAs_progress (form : Form) (f : Format) (patience : Nat) {g : Generator} (hg : g.Sound) (s : σ) :
    Progress g (generateAs c form f patience g s).generator (generateAs c form f patience g s).readings
      (idsFor f (idsOf (generateAs c form f patience g s).outcome)) := by
  rcases generateAs_cases c form f patience hg s with
    ⟨stamp, reading, hfits, hfollows, hlast, htick, ho, hgen⟩ | ⟨failure, ho, hgen⟩
  · rw [ho, hgen]
    exact remember_progress hfits hfollows (List.mem_of_getLast? hlast) htick
  · rw [ho, hgen]
    show Progress g g _ (idsFor f [])
    rw [idsFor_nil]
    exact .refl g _

/-! ## Bursts -/

theorem readings_add (b : Burst σ) (call : Call σ Issue) : (b.add call).readings = b.readings ++ call.readings := by
  unfold Burst.readings
  rw [Burst.calls_add, List.flatMap_append, List.flatMap_singleton]

theorem parks_add (b : Burst σ) (call : Call σ Issue) : (b.add call).parks = b.parks ++ call.parks := by
  unfold Burst.parks
  rw [Burst.calls_add, List.flatMap_append, List.flatMap_singleton]

theorem raws_add (b : Burst σ) (call : Call σ Issue) :
    (b.add call).issues.map Issue.raw = b.issues.map Issue.raw ++ idsOf call.outcome := by
  rw [Burst.issues_add, List.map_append]
  rfl

/-- What a burst has done so far, and every call after it, adds up. -/
theorem continueBurst_progress (form : Form) (f : Format) (patience : Nat) {g : Generator} (hg : g.Sound)
    (n : Nat) {b : Burst σ}
    (hb : Progress g b.generator b.readings (idsFor f (b.issues.map Issue.raw))) :
    Progress g (continueBurst c form f patience n b).generator (continueBurst c form f patience n b).readings
      (idsFor f ((continueBurst c form f patience n b).issues.map Issue.raw)) := by
  induction n generalizing b with
  | zero => exact hb
  | succ n ih =>
    unfold continueBurst
    split
    · exact hb
    · apply ih
      rw [readings_add, raws_add, idsFor_append]
      exact hb.trans (generateAs_progress c form f patience (hb.sound hg) b.clock)

/-! ## Steps and runs -/

/-- The generator after a run. -/
def after (g : Generator) : List (Done σ) → Generator
  | [] => g
  | done :: dones => after done.generator dones

/-- The ids of a format that a run gives out, in order. -/
def issued (f : Format) (dones : List (Done σ)) : List Nat := dones.flatMap fun done => done.answer.idsOf f

theorem perform_progress {g : Generator} (hg : g.Sound) (s : σ) (step : Step σ) :
    Progress g (perform c g s step).generator (perform c g s step).readings
      fun f => (perform c g s step).answer.idsOf f := by
  cases step with
  | move f => exact .refl g _
  | now resolution => exact .refl g _
  | node => exact .refl g _
  | generate form f patience =>
    have h := generateAs_progress c form f patience hg s
    unfold perform
    dsimp only
    cases ho : (generateAs c form f patience g s).outcome with
    | ok issue =>
      rw [ho] at h
      exact h
    | error failure =>
      rw [ho, show idsOf (.error failure) = [] from rfl, idsFor_nil] at h
      exact h
  | burst form f count patience =>
    refine continueBurst_progress c form f patience hg count ?_
    show Progress g g [] (idsFor f [])
    rw [idsFor_nil]
    exact .refl g _

/-- **Runs.**  A run makes progress from its first generator to its last. -/
theorem run_progress {g : Generator} (hg : g.Sound) (s : σ) (steps : List (Step σ)) :
    Progress g (after g (run c g s steps)) ((run c g s steps).flatMap Done.readings)
      fun f => issued f (run c g s steps) := by
  induction steps generalizing g s with
  | nil => exact .refl g _
  | cons step steps ih =>
    have hstep := perform_progress c hg s step
    exact hstep.trans (ih (hstep.sound hg) _)

end Snowflake.Generator
