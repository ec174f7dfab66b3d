import Snowflake.Proofs.Generator.History

/-!
# Overlap: two generators with one node field

Two generators, built apart and each on its own clock, may have the same node field: a
node id that is used again after a restart, or two node ids that a narrow field cannot
tell apart.  Each starts every tick with number 0, so they give out a common id as soon
as both use one tick, and only then.
-/

namespace Snowflake

namespace Issuance

variable {L : Layout} {nodeA nodeB : Nat} {lastA lastB : Option Stamp} {A B : List Nat}

/-- The number 0 of a tick that the other node used too was given out by both. -/
theorem mem_of_timestamp_eq (hA : Issuance L nodeA none A lastA) (hB : Issuance L nodeB none B lastB)
    (hnode : nodeA % capacity L.nodeBits = nodeB % capacity L.nodeBits) {a b : Nat} (ha : a ∈ A)
    (hb : b ∈ B) (ht : L.timestamp a = L.timestamp b) (hs : L.sequence b = 0) : b ∈ A := by
  obtain ⟨first, hfirst, hft, hfs⟩ := hA.exists_of_sequence_le ha (Nat.zero_le _)
  have hfield : L.nodeField first = L.nodeField b := by
    rw [hA.nodeField hfirst, hB.nodeField hb, hnode]
  obtain rfl : first = b :=
    L.eq_of_fields_eq (hA.fits hfirst) (hB.fits hb) (hft.trans ht) hfield (hfs.trans hs.symm)
  exact hfirst

/-- Two nodes with one node field share an id exactly when they share a tick. -/
theorem exists_mem_iff (hA : Issuance L nodeA none A lastA) (hB : Issuance L nodeB none B lastB)
    (hnode : nodeA % capacity L.nodeBits = nodeB % capacity L.nodeBits) :
    (∃ id, id ∈ A ∧ id ∈ B) ↔ ∃ a ∈ A, ∃ b ∈ B, L.timestamp a = L.timestamp b := by
  constructor
  · rintro ⟨id, ha, hb⟩
    exact ⟨id, ha, id, hb, rfl⟩
  · rintro ⟨a, ha, b, hb, ht⟩
    obtain ⟨first, hfirst, hft, hfs⟩ := hB.exists_of_sequence_le hb (Nat.zero_le _)
    exact ⟨first, hA.mem_of_timestamp_eq hB hnode ha hfirst (ht.trans hft.symm) hfs, hfirst⟩

/-- The first id of all is a number 0. -/
theorem sequence_head (hB : Issuance L nodeB none B lastB) {b : Nat} (hb : B.head? = some b) :
    L.sequence b = 0 := by
  cases B with
  | nil => cases hb
  | cons first B =>
    cases hb
    exact hB.head_follows

end Issuance

namespace Generator

variable {σ τ : Type} {a b : Nat} {gA gB : Generator}

/-- **Overlap.**  Two fresh generators with one node field, on any two clocks, share an id exactly
when they share a tick.  If every reading of the second is past every tick of the first, no id
repeats; if the first id of the second falls in a tick of the first, the first gave it out. -/
theorem overlap_iff (hA : ofNodeId a = .ok gA) (hB : ofNodeId b = .ok gB) (f : Format)
    (hfield : gA.nodeField f = gB.nodeField f) (cA : Clock σ) (sA : σ) (stepsA : List (Step σ))
    (cB : Clock τ) (sB : τ) (stepsB : List (Step τ)) :
    let L := f.layout
    let idsA := issued f (run cA gA sA stepsA)
    let idsB := issued f (run cB gB sB stepsB)
    ((∃ id, id ∈ idsA ∧ id ∈ idsB) ↔ ∃ x ∈ idsA, ∃ y ∈ idsB, L.timestamp x = L.timestamp y)
      ∧ ((∀ reading ∈ (run cB gB sB stepsB).flatMap Done.readings, ∀ x ∈ idsA,
            L.epochTick + L.timestamp x < tickAt L.tickMillis reading) → (idsA ++ idsB).Nodup)
      ∧ ∀ y, idsB.head? = some y → (∃ x ∈ idsA, L.timestamp x = L.timestamp y) → y ∈ idsA := by
  intro L idsA idsB
  have hnode : a % capacity L.nodeBits = b % capacity L.nodeBits := by
    unfold nodeField at hfield
    rw [(ofNodeId_eq_ok hA).1, (ofNodeId_eq_ok hB).1] at hfield
    exact hfield
  have hisA := history hA cA sA stepsA f
  have hisB := history hB cB sB stepsB f
  have hiff := hisA.exists_mem_iff hisB hnode
  refine ⟨hiff, ?_, ?_⟩
  · intro hlater
    rw [List.nodup_append]
    refine ⟨hisA.nodup, hisB.nodup, ?_⟩
    rintro x hx y hy rfl
    obtain ⟨reading, hmem, htick⟩ := (run_progress cB (sound_of_fresh hB) sB stepsB).reading f x hy
    have hlt := hlater reading hmem x hx
    exact absurd htick.symm (Nat.ne_of_lt hlt)
  · rintro y hy ⟨x, hx, ht⟩
    exact hisA.mem_of_timestamp_eq hisB hnode hx (List.mem_of_head? hy) ht (hisB.sequence_head hy)

/-- The narrowest format takes nodes 1 and 5 for one: started in the same tick, they collide. -/
theorem overlap_of_aliases :
    ∃ gA gB, ofNodeId 1 = .ok gA ∧ ofNodeId 5 = .ok gB ∧ gA.nodeField .tiny = gB.nodeField .tiny ∧
      let dones g n : List (Done ManualClock) :=
        run ManualClock.clock g (.steady (customEpochMillis + 20000 + n)) [.burst .number .tiny 2 0]
      issued .tiny (dones gA 0) = [144, 145] ∧ issued .tiny (dones gB 9000) = [144, 145]
        ∧ ∃ id, id ∈ issued .tiny (dones gA 0) ∧ id ∈ issued .tiny (dones gB 9000) := by
  have hA : ofNodeId 1 = .ok { nodeId := 1, nodeId_le := by decide } := rfl
  have hB : ofNodeId 5 = .ok { nodeId := 5, nodeId_le := by decide } := rfl
  refine ⟨_, _, hA, hB, rfl, rfl, rfl, ?_⟩
  refine (overlap_iff hA hB .tiny rfl ManualClock.clock _ _ ManualClock.clock _ _).1.2 ?_
  exact ⟨144, by decide, 145, by decide, rfl⟩

end Generator

end Snowflake
