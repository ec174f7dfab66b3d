import Snowflake.Proofs.Generator.Atomicity
import Snowflake.Proofs.Generator.Honesty
import Snowflake.Proofs.Generator.Refusal
import Snowflake.Proofs.Generator.Row
import Snowflake.Proofs.Generator.TimeOrder

/-!
# Journals: a burst, call by call

A burst makes the calls of a row, up to the first that fails.  Its journal has an entry for
each call that gave an id: the id, the last reading made for it, and the number that the
generator remembers for it.  The entries and the end of a burst tell its row
(`burst_journal`), and what the burst gave out is what the entries say, written down:

    (burst c form f count patience g s).issues = entries.map (form.issue f ·.id)
-/

namespace Snowflake

/-- An id that was given out, the last reading made for it, and its number in the reading's tick. -/
structure Entry where
  id : Nat
  reading : Nat
  number : Nat
deriving DecidableEq, Repr

variable {σ : Type}

/-- The call of a node gave out the entry's id, on the tick of its last reading; its generator remembers
the number in this tick, and the parts of the id are the start of the tick, the node and the number. -/
structure Call.Enters (call : Call σ Nat) (f : Format) (nodeId : Nat) (entry : Entry) : Prop where
  issuedAt : call.IssuedAt entry.id entry.reading
  last_eq : call.generator.last.get f = some ⟨entry.reading / f.layout.tickMillis, entry.number⟩
  fits : f.layout.Fits entry.id
  parts_eq : f.layout.parts entry.id
    = { timestampMillis := entry.reading / f.layout.tickMillis * f.layout.tickMillis,
        nodeId := nodeId &&& f.layout.maxNodeField, sequence := entry.number }

/-- The call failed.  A refusal is for the tick of its last reading, which is out of the format's range; a call
is cut short only by a wait that did not end with all the parks that there was patience for. -/
structure Call.FailsWith (call : Call σ Nat) (f : Format) (patience : Nat) (failure : Failure) : Prop where
  outcome_eq : call.outcome = .error failure
  refused : ∀ e, failure = .refused e → ∃ reading, call.readings.getLast? = some reading
    ∧ e = .clockRangeExceeded f (reading / f.layout.tickMillis)
    ∧ (reading / f.layout.tickMillis < f.layout.epochTick
      ∨ f.layout.epochTick + f.layout.maxTimestamp < reading / f.layout.tickMillis)
  interrupted : ∀ pause, failure = .interrupted pause → call.waits = 1 ∧ call.parks.length = patience

/-- The calls of a row, up to so many or up to the first that fails: an entry for each id, and the failure. -/
structure Journal (row : Nat → Call σ Nat) (f : Format) (patience nodeId count : Nat) (entries : List Entry)
    (failure : Option Failure) : Prop where
  enters : ∀ i entry, entries[i]? = some entry → (row i).Enters f nodeId entry
  ended : (failure = none ∧ entries.length = count)
    ∨ ∃ x, failure = some x ∧ entries.length < count ∧ (row entries.length).FailsWith f patience x

namespace Journal

variable {row : Nat → Call σ Nat} {f : Format} {patience nodeId count : Nat} {entries : List Entry}
  {failure : Option Failure}

theorem nil : Journal row f patience nodeId 0 [] none := ⟨fun _ _ h => (nomatch h), Or.inl ⟨rfl, rfl⟩⟩

theorem failed {x : Failure} (h : (row 0).FailsWith f patience x) : Journal row f patience nodeId (count + 1) [] (some x) :=
  ⟨fun _ _ h => (nomatch h), Or.inr ⟨x, rfl, Nat.succ_pos _, h⟩⟩

/-- The entry of the first call stands before the journal of the others. -/
theorem cons {entry : Entry} (h : (row 0).Enters f nodeId entry)
    (hrest : Journal (fun i => row (i + 1)) f patience nodeId count entries failure) :
    Journal row f patience nodeId (count + 1) (entry :: entries) failure := by
  refine ⟨fun i other hother => ?_, ?_⟩
  · cases i with
    | zero =>
      cases hother
      exact h
    | succ i => exact hrest.enters i other hother
  · rcases hrest.ended with ⟨hnone, hlength⟩ | ⟨x, hsome, hlt, hfails⟩
    · exact Or.inl ⟨hnone, congrArg (· + 1) hlength⟩
    · exact Or.inr ⟨x, hsome, Nat.succ_lt_succ hlt, hfails⟩

theorem fits (h : Journal row f patience nodeId count entries failure) {entry : Entry} (hentry : entry ∈ entries) :
    f.layout.Fits entry.id := by
  obtain ⟨i, hi⟩ := List.getElem?_of_mem hentry
  exact (h.enters i entry hi).fits

theorem parts_eq (h : Journal row f patience nodeId count entries failure) {entry : Entry} (hentry : entry ∈ entries) :
    f.layout.parts entry.id
      = { timestampMillis := entry.reading / f.layout.tickMillis * f.layout.tickMillis,
          nodeId := nodeId &&& f.layout.maxNodeField, sequence := entry.number } := by
  obtain ⟨i, hi⟩ := List.getElem?_of_mem hentry
  exact (h.enters i entry hi).parts_eq

/-- A row comes to its end if and only if nothing fails. -/
theorem failure_eq_none_iff (h : Journal row f patience nodeId count entries failure) :
    failure = none ↔ entries.length = count := by
  rcases h.ended with ⟨hnone, hlength⟩ | ⟨x, hsome, hlt, -⟩
  · exact iff_of_true hnone hlength
  · rw [hsome]
    exact iff_of_false nofun (Nat.ne_of_lt hlt)

/-- No generator is refused for its node id. -/
theorem failure_ne_invalidNodeId (h : Journal row f patience nodeId count entries failure) (n : Nat) :
    failure ≠ some (.refused (.invalidNodeId n)) := by
  rintro rfl
  rcases h.ended with ⟨hnone, -⟩ | ⟨x, hsome, -, hfails⟩
  · cases hnone
  · cases hsome
    obtain ⟨reading, -, he, -⟩ := hfails.refused _ rfl
    cases he

end Journal

namespace Generator

variable {c : Clock σ} {f : Format} {patience : Nat} {g : Generator} {s : σ}

/-! ## One call -/

theorem nodeField_eq_mask (g : Generator) (f : Format) : g.nodeField f = g.nodeId &&& f.layout.maxNodeField :=
  (and_mask g.nodeId f.layout.nodeBits).symm

/-- A call that gave an id has an entry. -/
theorem exists_enters (hg : g.Sound) {id : Nat} (h : (generate c f patience g s).outcome = .ok id) :
    ∃ entry : Entry, entry.id = id ∧ (generate c f patience g s).Enters f g.nodeId entry := by
  obtain ⟨reading, ⟨tick, number⟩, hlast, hparts, rfl, -, hgen, hfits⟩ := generate_parts c f hg patience s h
  refine ⟨{ id, reading, number }, rfl, ⟨h, hlast⟩, ?_, hfits, ?_⟩
  · rw [hgen, last_remember_self]
  · rw [hparts, nodeField_eq_mask]

/-- A call is cut short by a wait that was parked on to the end of the patience. -/
theorem parks_of_interrupted (hfits : ∀ stamp ∈ g.last.get f, stamp.Fits f.layout) {pause : Nat}
    (h : (generate c f patience g s).outcome = .error (.interrupted pause)) :
    (generate c f patience g s).waits = 1 ∧ (generate c f patience g s).parks.length = patience := by
  rw [generate_eq_rule c f g hfits] at h ⊢
  unfold followRule at h ⊢
  dsimp only at h ⊢
  cases hplan : Plan.onTick f.layout.maxSequence (g.last.get f) (tickAt f.layout.tickMillis (c.read s).1) with
  | take stamp =>
    rw [hplan] at h
    exact absurd h (settle_ne_interrupted stamp pause)
  | waitPast tick =>
    rw [hplan] at h
    dsimp only at h ⊢
    cases hfirst : c.firstPast? tick f.layout.tickMillis patience (c.read s).2 with
    | none => exact ⟨rfl, by rw [List.length_map, List.length_range]⟩
    | some k =>
      rw [hfirst] at h
      exact absurd h (settle_ne_interrupted _ pause)

theorem failsWith_of_error (hg : g.Sound) {failure : Failure}
    (h : (generate c f patience g s).outcome = .error failure) :
    (generate c f patience g s).FailsWith f patience failure := by
  refine ⟨h, ?_, ?_⟩
  · rintro e rfl
    obtain ⟨reading, hlast, he, hrange, -⟩ := of_refused (hg f) h
    rw [tickAt_of_pos f.layout.tickMillis_pos] at he hrange
    exact ⟨reading, hlast, he, hrange⟩
  · rintro pause rfl
    exact parks_of_interrupted (hg f) h

/-- Without its first call, a row is the row from where that call left off. -/
theorem inRow_succ (c : Clock σ) (f : Format) (patience : Nat) (g : Generator) (s : σ) (i : Nat) :
    inRow c f patience g s (i + 1)
      = inRow c f patience (generate c f patience g s).generator (generate c f patience g s).clock i := by
  induction i with
  | zero => rfl
  | succ i ih =>
    rw [inRow, ih]
    rfl

/-! ## Bursts -/

/-- A burst that has not failed goes on with the row from there, and gives out what its entries say. -/
theorem continueBurst_journal (c : Clock σ) (form : Form) (f : Format) (patience : Nat) {b : Burst σ}
    (hb : b.generator.Sound) (hok : b.failure = none) (n : Nat) :
    ∃ entries, Journal (inRow c f patience b.generator b.clock) f patience b.generator.nodeId n entries
        (continueBurst c form f patience n b).failure
      ∧ (continueBurst c form f patience n b).issues = b.issues ++ entries.map fun entry => form.issue f entry.id := by
  induction n generalizing b with
  | zero =>
    rw [show (continueBurst c form f patience 0 b).failure = none from hok]
    exact ⟨[], .nil, (List.append_nil _).symm⟩
  | succ n ih =>
    have hprogress := generateAs_progress c form f patience hb b.clock
    rw [continueBurst_succ c form f patience hok]
    rw [generateAs_eq_map c form f patience hb] at hprogress ⊢
    cases ho : (generate c f patience b.generator b.clock).outcome with
    | error failure =>
      have hfailed : ((generate c f patience b.generator b.clock).map (form.issue f)).outcome = .error failure :=
        congrArg (Except.map _) ho
      rw [continueBurst_of_failure c form f patience (failure_add_error b hfailed), failure_add_error b hfailed,
        Burst.issues_add, hfailed]
      exact ⟨[], .failed (failsWith_of_error hb ho), rfl⟩
    | ok id =>
      have hissued : ((generate c f patience b.generator b.clock).map (form.issue f)).outcome
          = .ok (form.issue f id) := congrArg (Except.map _) ho
      have hrow : (fun i => inRow c f patience b.generator b.clock (i + 1)) = inRow c f patience _ _ :=
        funext (inRow_succ c f patience b.generator b.clock)
      obtain ⟨entry, rfl, henters⟩ := exists_enters hb ho
      obtain ⟨entries, hrest, hissues⟩ := ih (hprogress.sound hb) (failure_add_ok b hissued)
      refine ⟨entry :: entries, .cons henters ?_, ?_⟩
      · rw [hrow, ← hprogress.nodeId_eq]
        exact hrest
      · rw [hissues, Burst.issues_add, hissued, List.append_assoc]
        rfl

/-- **Bursts.**  A burst has a journal of its row, and gives out what the entries say, written down. -/
theorem burst_journal (c : Clock σ) (form : Form) (f : Format) (count patience : Nat) (hg : g.Sound) (s : σ) :
    ∃ entries, Journal (inRow c f patience g s) f patience g.nodeId count entries (burst c form f count patience g s).failure
      ∧ (burst c form f count patience g s).issues = entries.map fun entry => form.issue f entry.id :=
  continueBurst_journal c form f patience (b := { generator := g, clock := s }) hg rfl count

/-- The ids of a burst increase. -/
theorem pairwise_lt_burst (c : Clock σ) (form : Form) (f : Format) (count patience : Nat) (hg : g.Sound) (s : σ) :
    ((burst c form f count patience g s).issues.map Issue.raw).Pairwise (· < ·) := by
  have hprogress := (perform_progress c hg s (.burst form f count patience)).issuance f
  have hids : (perform c g s (.burst form f count patience)).answer.idsOf f
      = (burst c form f count patience g s).issues.map Issue.raw := if_pos rfl
  rw [hids] at hprogress
  exact hprogress.pairwise_lt

end Generator

end Snowflake
