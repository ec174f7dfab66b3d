import Snowflake.Clock.Manual
import Snowflake.Proofs.Generator.Progress

/-!
# Histories: what a fresh generator gives out

Of a generator that starts fresh and goes through any run, on any clock:

* the ids of a format are an `Issuance` from no last stamp (`history`), and the stamp
  remembered is that of the last id (`last_after`);
* so they are consecutive, they increase, none comes twice and each tick is numbered from 0
  without gaps;
* and a call keeps to the rule of one call, told from the last id.
-/

namespace Snowflake.Generator

variable {σ τ : Type} {nodeId : Nat} {g : Generator}

theorem sound_of_fresh (hg : ofNodeId nodeId = .ok g) : g.Sound := by
  obtain ⟨-, hlast⟩ := ofNodeId_eq_ok hg
  intro f stamp hstamp
  rw [hlast, PerFormat.get_const] at hstamp
  cases hstamp

/-- The ids that a fresh generator gives out, and what it remembers after them. -/
theorem history (hg : ofNodeId nodeId = .ok g) (c : Clock σ) (s : σ) (steps : List (Step σ)) (f : Format) :
    Issuance f.layout nodeId none (issued f (run c g s steps)) ((after g (run c g s steps)).last.get f) := by
  obtain ⟨hid, hlast⟩ := ofNodeId_eq_ok hg
  have h := (run_progress c (sound_of_fresh hg) s steps).issuance f
  rw [hid, hlast, PerFormat.get_const] at h
  exact h

/-- The stamp remembered is that of the last id. -/
theorem last_after (hg : ofNodeId nodeId = .ok g) (c : Clock σ) (s : σ) (steps : List (Step σ)) (f : Format) :
    (after g (run c g s steps)).last.get f
      = (issued f (run c g s steps)).getLast?.map f.layout.stampOf := by
  rw [(history hg c s steps f).last_eq, Option.or_none]

/-- A generator of this node id in a state that some run, on some clock, leaves it in. -/
def Reachable (nodeId : Nat) (g : Generator) : Prop :=
  ∃ fresh, ofNodeId nodeId = .ok fresh
    ∧ ∃ (σ : Type) (c : Clock σ) (s : σ) (steps : List (Step σ)), after fresh (run c fresh s steps) = g

theorem Reachable.sound (h : Reachable nodeId g) : g.Sound := by
  obtain ⟨fresh, hfresh, σ, c, s, steps, rfl⟩ := h
  exact (run_progress c (sound_of_fresh hfresh) s steps).sound (sound_of_fresh hfresh)

/-- **Order.**  Whatever the clock does and whichever calls fail, the ids of a format come in
consecutive order: they increase, none comes twice, and a tick is numbered 0, 1, 2 and so on. -/
theorem issued_in_order (hg : ofNodeId nodeId = .ok g) (c : Clock σ) (s : σ) (steps : List (Step σ))
    (f : Format) :
    let ids := issued f (run c g s steps)
    ids.IsChain f.layout.Consecutive ∧ ids.Pairwise (· < ·) ∧ ids.Nodup
      ∧ ∀ timestamp, (ids.filter (f.layout.timestamp · = timestamp)).map f.layout.sequence
          = List.range (ids.filter (f.layout.timestamp · = timestamp)).length := by
  have h := history hg c s steps f
  exact ⟨h.isChain, h.pairwise_lt, h.nodup, h.map_sequence⟩

/-- Over jumps back to zero and on to the end of time, one call cut short and another refused. -/
theorem order_across_jumps :
    ∃ g, ofNodeId 5 = .ok g ∧
      let steps : List (Step ManualClock) :=
        [.generate .number .tiny 3, .generate (.text .hex) .mini 3, .generate .typed .tiny 3,
          .move (·.set 0), .burst .number .tiny 2 3, .move (·.set 0), .generate .number .tiny 0,
          .move (·.set wordMax), .generate .number .tiny 3]
      let ids := issued .tiny (run ManualClock.clock g (.steady (customEpochMillis + 20000)) steps)
      ids = [144, 145, 208, 209] ∧ ids.IsChain Format.tiny.layout.Consecutive ∧ ids.Pairwise (· < ·)
        ∧ ids.Nodup ∧ ∀ timestamp,
          (ids.filter (Format.tiny.layout.timestamp · = timestamp)).map Format.tiny.layout.sequence
            = List.range (ids.filter (Format.tiny.layout.timestamp · = timestamp)).length := by
  have hg : ofNodeId 5 = .ok { nodeId := 5, nodeId_le := by decide } := rfl
  exact ⟨_, hg, rfl, issued_in_order hg ManualClock.clock _ _ .tiny⟩

/-- **One call.**  In every state that a run can leave, a call on any clock keeps to the rule of
one call, with the stamp of the last id for what came before. -/
theorem generate_refines (hg : ofNodeId nodeId = .ok g) (c : Clock σ) (s : σ) (steps : List (Step σ))
    (f : Format) (c' : Clock τ) (patience : Nat) (s' : τ) :
    let last := (issued f (run c g s steps)).getLast?.map f.layout.stampOf
    let g' := after g (run c g s steps)
    generate c' f patience g' s' = followRule c' f patience last g' s' := by
  intro last g'
  have hsound := (run_progress c (sound_of_fresh hg) s steps).sound (sound_of_fresh hg)
  rw [generate_eq_rule c' f g' (hsound f), last_after hg c s steps f]

/-- A clock that went back a tick: the call parks twice, on a clock that moves 9 seconds at a time. -/
theorem rule_behind_last_tick :
    ∃ g, ofNodeId 5 = .ok g ∧
      let dones := run ManualClock.clock g (.steady (customEpochMillis + 20000)) [.generate .number .tiny 3]
      let late : ManualClock :=
        { reading := customEpochMillis + 19000, cap := some 9000, reading_le := by decide }
      let call := generate ManualClock.clock .tiny 3 (after g dones) late
      call.outcome = .ok 208 ∧ call.parks = [11000, 2000]
        ∧ call = followRule ManualClock.clock .tiny 3
            ((issued .tiny dones).getLast?.map Format.tiny.layout.stampOf) (after g dones) late := by
  have hg : ofNodeId 5 = .ok { nodeId := 5, nodeId_le := by decide } := rfl
  exact ⟨_, hg, rfl, rfl, generate_refines hg ManualClock.clock _ _ .tiny ManualClock.clock 3 _⟩

end Snowflake.Generator
