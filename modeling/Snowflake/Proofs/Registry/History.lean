import Snowflake.Clock.Manual
import Snowflake.Proofs.Registry.Progress

/-!
# Histories of a registry: which of its ids may be equal

A registry starts with no generator and goes through any run: lookups that may be refused,
the default and its own node id, calls and bursts of all formats, on one clock that may do
anything.  The ids that were asked for under one node id are an `Issuance` of their own
(`history`).  So none of them comes twice, and ids that are equal come from two node ids
that the format's node field cannot tell apart.  The widest format has a
node field for every node id, and all its ids are different.
-/

namespace Snowflake.Registry

variable {σ : Type} {settings : Settings} {drawn : Fin (maxNodeId + 1)} {r : Registry}

theorem ofSettings_eq_ok (hr : ofSettings settings drawn = .ok r) : r.generators = [] ∧ r.defaultSeat = none := by
  unfold ofSettings at hr
  split at hr
  · cases hr
    exact ⟨rfl, rfl⟩
  · split at hr
    · cases hr
      exact ⟨rfl, rfl⟩
    · cases hr

theorem sound_of_fresh (hr : ofSettings settings drawn = .ok r) : r.Sound := by
  obtain ⟨hgens, hseat⟩ := ofSettings_eq_ok hr
  refine ⟨?_, ?_, ?_⟩
  · unfold nodeIds
    rw [hgens]
    exact .nil
  · intro seat h
    rw [hseat] at h
    cases h
  · intro g hg
    rw [hgens] at hg
    cases hg

theorem memory_of_fresh (hr : ofSettings settings drawn = .ok r) (nodeId : Nat) :
    r.memory nodeId = .const none := by
  unfold memory
  rw [(ofSettings_eq_ok hr).1]
  rfl

/-- The ids that were asked for under a node id, and what is remembered for it after them. -/
theorem history (hr : ofSettings settings drawn = .ok r) (c : Clock σ) (s : σ) (steps : List (Step σ))
    (f : Format) (nodeId : Nat) :
    Issuance f.layout nodeId none (idsUnder nodeId (given f r.defaultNodeId steps (run c r s steps)))
      (((after r (run c r s steps)).memory nodeId).get f) := by
  have h := (run_progress c (sound_of_fresh hr) s steps).issuance f nodeId
  rw [memory_of_fresh hr, PerFormat.get_const] at h
  exact h

/-- A registry in a state that some run, on some clock, leaves it in. -/
def Reachable (r : Registry) : Prop :=
  ∃ settings drawn fresh, ofSettings settings drawn = .ok fresh
    ∧ ∃ (σ : Type) (c : Clock σ) (s : σ) (steps : List (Step σ)), after fresh (run c fresh s steps) = r

theorem Reachable.sound (h : r.Reachable) : r.Sound := by
  obtain ⟨settings, drawn, fresh, hfresh, σ, c, s, steps, rfl⟩ := h
  exact (run_progress c (sound_of_fresh hfresh) s steps).sound

/-- Equal ids were asked for under different node ids with one node field. -/
theorem pairwise_given (hr : ofSettings settings drawn = .ok r) (c : Clock σ) (s : σ) (steps : List (Step σ))
    (f : Format) :
    (given f r.defaultNodeId steps (run c r s steps)).Pairwise fun x y => x.id = y.id →
      x.nodeId ≠ y.nodeId ∧ x.nodeId % capacity f.layout.nodeBits = y.nodeId % capacity f.layout.nodeBits := by
  refine (pairwise_of_nodup fun nodeId => (history hr c s steps f nodeId).nodup).imp_of_mem ?_
  intro x y hx hy hne hid
  refine ⟨hne hid, ?_⟩
  rw [← (history hr c s steps f x.nodeId).nodeField (mem_idsUnder hx),
    ← (history hr c s steps f y.nodeId).nodeField (mem_idsUnder hy), hid]

/-- Node ids that the node field tells apart never give out the same id. -/
theorem nodup_of_field_inj (hr : ofSettings settings drawn = .ok r) (c : Clock σ) (s : σ)
    (steps : List (Step σ)) (f : Format) {p : Nat → Bool}
    (hp : ∀ a b, p a → p b → a % capacity f.layout.nodeBits = b % capacity f.layout.nodeBits → a = b) :
    (((given f r.defaultNodeId steps (run c r s steps)).filter (p ·.nodeId)).map Given.id).Nodup := by
  unfold List.Nodup
  rw [List.pairwise_map]
  refine ((pairwise_given hr c s steps f).filter _).imp_of_mem ?_
  intro x y hx hy hxy hid
  obtain ⟨hne, hfield⟩ := hxy hid
  exact hne (hp _ _ (List.mem_filter.1 hx).2 (List.mem_filter.1 hy).2 hfield)

/-- **Uniqueness.**  Whatever steps a registry goes through, on any clock: equal ids of a format
were asked for under two node ids that differ and have one node field.  So node ids which the
field tells apart never collide, one node id repeats nothing, and the widest format repeats
nothing at all.  A generator that is kept from before is the one that its node id finds. -/
theorem issued_unique (hr : ofSettings settings drawn = .ok r) (c : Clock σ) (s : σ) (steps : List (Step σ))
    (f : Format) :
    let gs := given f r.defaultNodeId steps (run c r s steps)
    let field := fun nodeId => nodeId % capacity f.layout.nodeBits
    gs.Pairwise (fun x y => x.id = y.id → x.nodeId ≠ y.nodeId ∧ field x.nodeId = field y.nodeId)
      ∧ (∀ p : Nat → Bool, (∀ a b, p a → p b → field a = field b → a = b) →
          ((gs.filter (p ·.nodeId)).map Given.id).Nodup)
      ∧ (∀ nodeId, (idsUnder nodeId gs).Nodup)
      ∧ (f = .id128 → (gs.map Given.id).Nodup)
      ∧ ∀ before, before <+: steps → ∀ seat nodeId,
          (after r (run c r s before)).nodeIds[seat]? = some nodeId →
          ∃ a, (after r (run c r s steps)).lookUp nodeId = .ok a
            ∧ a.registry = after r (run c r s steps) ∧ a.seat.val = seat := by
  intro gs field
  refine ⟨pairwise_given hr c s steps f, fun p hp => nodup_of_field_inj hr c s steps f hp,
    fun nodeId => (history hr c s steps f nodeId).nodup, ?_, ?_⟩
  · rintro rfl
    have hle := (run_progress c (sound_of_fresh hr) s steps).le .id128
    have hall : gs.filter (fun x => decide (x.nodeId ≤ maxNodeId)) = gs :=
      List.filter_eq_self.2 fun x hx => decide_eq_true (hle x hx)
    rw [← hall]
    apply nodup_of_field_inj hr c s steps .id128 (p := fun nodeId => decide (nodeId ≤ maxNodeId))
    intro a b ha hb h
    rwa [mod_capacity_of_le (of_decide_eq_true ha), mod_capacity_of_le (of_decide_eq_true hb)] at h
  · intro before hbefore seat nodeId h
    exact run_keeps c (sound_of_fresh hr) s hbefore h

/-- Nodes 2 and 6 look alike in the narrowest format; 6 is the default, so it goes on counting. -/
theorem aliases_collide :
    ∃ r, ofSettings { defaultNodeId := some 6 } 0 = .ok r ∧
      let steps : List (Step ManualClock) :=
        [.get (.node (maxNodeId + 1)), .on (.node 2) (.generate .number .tiny 3),
          .on .default (.generate .number .tiny 3), .on (.node 6) (.generate .number .tiny 3)]
      let gs := given .tiny r.defaultNodeId steps
        (run ManualClock.clock r (.steady (customEpochMillis + 20000)) steps)
      gs = [⟨2, 160⟩, ⟨6, 160⟩, ⟨6, 161⟩] ∧ gs.Pairwise fun x y => x.id = y.id →
        x.nodeId ≠ y.nodeId ∧ x.nodeId % capacity Format.tiny.layout.nodeBits
          = y.nodeId % capacity Format.tiny.layout.nodeBits := by
  have hr : ofSettings { defaultNodeId := some 6 } 0 = .ok { defaultNodeId := 6, defaultNodeId_le := by decide } :=
    rfl
  exact ⟨_, hr, rfl, (issued_unique hr ManualClock.clock _ _ .tiny).1⟩

end Snowflake.Registry
