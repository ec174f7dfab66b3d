import Snowflake.Proofs.Generator.History
import Snowflake.Proofs.Layout.Parts

/-!
# Time order: ids sort by the time they were issued

Ids that fit compare as their fields do, timestamp first (`lt_iff_fields_lt`), so the
greater of two ids was not issued earlier (`millis_le_millis`).  A call issues its id in
the tick of its last reading (`IssuedAt.tick_eq`); so whatever nodes and clocks two calls
have, the one whose last reading lies in an earlier tick gave out the lesser id.
-/

namespace Snowflake

namespace Layout

variable (L : Layout)

/-- The fields of an id, from high to low. -/
def fields (raw : Nat) : List Nat := [L.timestamp raw, L.nodeField raw, L.sequence raw]

/-- Ids that fit compare as their fields do, the first difference deciding. -/
theorem lt_iff_fields_lt {a b : Nat} (ha : L.Fits a) (hb : L.Fits b) : a < b ↔ L.fields a < L.fields b := by
  unfold fields
  rw [L.lt_iff_fields ha hb, List.cons_lt_cons_iff, List.cons_lt_cons_iff, List.cons_lt_cons_iff]
  simp only [List.not_lt_nil, and_false, or_false]

theorem timestamp_le_timestamp {a b : Nat} (ha : L.Fits a) (hb : L.Fits b) (h : a ≤ b) :
    L.timestamp a ≤ L.timestamp b := by
  rcases Nat.lt_or_eq_of_le h with hlt | rfl
  · rcases (L.lt_iff_fields ha hb).1 hlt with ht | ⟨ht, -⟩
    · exact Nat.le_of_lt ht
    · exact Nat.le_of_eq ht
  · exact Nat.le_refl _

end Layout

/-- Of two ids that fit, the greater one is not of an earlier time. -/
theorem Format.millis_le_millis (f : Format) {a b : Nat} (ha : f.layout.Fits a) (hb : f.layout.Fits b)
    (h : a ≤ b) : f.layout.millis a ≤ f.layout.millis b := by
  have ht := f.layout.timestamp_le_timestamp ha hb h
  rw [f.millis_eq, f.millis_eq]
  exact Nat.mul_le_mul_right _ (Nat.add_le_add_right ht _)

/-! ## Calls -/

/-- The call gave out this id, and this is the last reading it took. -/
structure Call.IssuedAt {σ : Type} (call : Call σ Nat) (id reading : Nat) : Prop where
  outcome_eq : call.outcome = .ok id
  getLast?_readings : call.readings.getLast? = some reading

namespace Generator

variable {σ : Type}

/-- An id that a call issued fits, and its timestamp is the tick of the call's last reading. -/
theorem tick_of_issuedAt {g : Generator} (hg : g.Sound) {c : Clock σ} {f : Format} {patience : Nat} {s : σ}
    {id reading : Nat} (h : (generate c f patience g s).IssuedAt id reading) :
    f.layout.Fits id ∧ f.layout.epochTick + f.layout.timestamp id = reading / f.layout.tickMillis := by
  obtain ⟨hid, hreading⟩ := h
  rcases generate_cases c f g (hg f) patience s with
    ⟨stamp, last, hfits, -, hlast, htick, hok, -⟩ | ⟨failure, hfail, -⟩
  · rw [hok] at hid
    rw [hlast] at hreading
    cases hid
    cases hreading
    have hepoch := hfits.epoch_le
    rw [tickAt_of_pos f.layout.tickMillis_pos] at htick
    refine ⟨f.layout.fits_idAt .., ?_⟩
    rw [Layout.timestamp_idAt g.nodeId hfits, ← htick]
    omega
  · rw [hfail] at hid
    cases hid

/-- **Time order.**  Ids of a format that fit compare as their fields do, timestamp first, and the
greater of two is not of an earlier time.  Of two ids that any two generators issued, on any clocks,
the one whose call read last in an earlier tick is the lesser one. -/
theorem ids_sort_by_time (f : Format) :
    let L := f.layout
    (∀ a b, L.Fits a → L.Fits b → (a < b ↔ L.fields a < L.fields b) ∧ (a ≤ b → L.millis a ≤ L.millis b))
      ∧ ∀ (nodeA nodeB : Nat) (gA gB : Generator), Reachable nodeA gA → Reachable nodeB gB →
        ∀ {σ τ : Type} (cA : Clock σ) (cB : Clock τ) (patienceA patienceB : Nat) (sA : σ) (sB : τ)
          (a b readingA readingB : Nat),
          (generate cA f patienceA gA sA).IssuedAt a readingA →
          (generate cB f patienceB gB sB).IssuedAt b readingB →
          readingA / L.tickMillis < readingB / L.tickMillis → a < b := by
  intro L
  refine ⟨fun a b ha hb => ⟨L.lt_iff_fields_lt ha hb, f.millis_le_millis ha hb⟩, ?_⟩
  intro nodeA nodeB gA gB hA hB σ τ cA cB patienceA patienceB sA sB a b readingA readingB ha hb hlt
  obtain ⟨hfitsA, htickA⟩ := tick_of_issuedAt hA.sound ha
  obtain ⟨hfitsB, htickB⟩ := tick_of_issuedAt hB.sound hb
  have hearlier : L.timestamp a < L.timestamp b := by
    rw [← htickA, ← htickB] at hlt
    exact Nat.lt_of_add_lt_add_left hlt
  exact (L.lt_iff_fields hfitsA hfitsB).2 (Or.inl hearlier)

/-- The fourth id of node 3 in a tick, with the greatest node field there is, comes before the first
id of node 0 in the next tick. -/
theorem order_across_nodes :
    ∃ gA gB, Reachable 3 gA ∧ Reachable 0 gB ∧
      let cA : ManualClock := .steady (customEpochMillis + 29999)
      let cB : ManualClock := .steady (customEpochMillis + 30000)
      let callA := generate ManualClock.clock .tiny 0 gA cA
      let callB := generate ManualClock.clock .tiny 0 gB cB
      callA.IssuedAt 179 (customEpochMillis + 29999) ∧ callB.IssuedAt 192 (customEpochMillis + 30000)
        ∧ 179 < 192 ∧ Format.tiny.layout.fields 179 = [2, 3, 3] ∧ Format.tiny.layout.fields 192 = [3, 0, 0]
        ∧ Format.tiny.layout.fields 179 < Format.tiny.layout.fields 192
        ∧ Format.tiny.layout.millis 179 ≤ Format.tiny.layout.millis 192 := by
  have hA : ofNodeId 3 = .ok { nodeId := 3, nodeId_le := by decide } := rfl
  have hB : ofNodeId 0 = .ok { nodeId := 0, nodeId_le := by decide } := rfl
  let burst : List (Step ManualClock) := [.burst .number .tiny 3 0]
  obtain ⟨hsort, htime⟩ := ids_sort_by_time .tiny
  have hreachA : Reachable 3 _ := ⟨_, hA, _, ManualClock.clock, .steady (customEpochMillis + 20000), burst, rfl⟩
  have hreachB : Reachable 0 _ := ⟨_, hB, _, ManualClock.clock, .steady 0, [], rfl⟩
  have hlt := htime 3 0 _ _ hreachA hreachB ManualClock.clock ManualClock.clock 0 0
    (.steady (customEpochMillis + 29999)) (.steady (customEpochMillis + 30000)) 179 192
    (customEpochMillis + 29999) (customEpochMillis + 30000) ⟨rfl, rfl⟩ ⟨rfl, rfl⟩ (by decide)
  obtain ⟨hfields, hmillis⟩ := hsort 179 192 (by decide) (by decide)
  exact ⟨_, _, hreachA, hreachB, ⟨rfl, rfl⟩, ⟨rfl, rfl⟩, hlt, rfl, rfl, hfields.1 hlt, hmillis (Nat.le_of_lt hlt)⟩

end Generator

end Snowflake
