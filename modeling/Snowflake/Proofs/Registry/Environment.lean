import Snowflake.Proofs.Text.Decimal
import Snowflake.Proofs.Text.Trimmed
import Snowflake.Registry.Basic

/-!
# The default node id from the environment

The variable of the default node id may hold any text.  `Settings.Names value n` says when it
stands for the node id `n`: between the blanks around it there are figures, with or without a
plus sign in front, and their number is `n` and in range.

    readNodeId? value = some n ↔ Names value n                 (readNodeId?_eq_some_iff_names)

Any other value is passed over.  So the environment never sets a node id that a registry would
refuse: a registry can be made of every environment, and it serves the node id that is named.
-/

namespace Snowflake

/-! ## Values that name a node id -/

namespace Settings

/-- Between the blanks around it, the value is a number in range, with or without a plus sign. -/
def Names (value : String) (n : Nat) : Prop :=
  ∃ word, Text.Trimmed value.toList word ∧ Text.Decimal.Unsigned n word ∧ n ≤ maxNodeId

theorem readNodeId?_eq_some_iff_names {value : String} {n : Nat} : readNodeId? value = some n ↔ Names value n := by
  unfold readNodeId? Names
  simp only [Text.Decimal.readUnsigned?_eq_some_iff_unsigned, ← Text.trim_eq_iff, exists_eq_left']

theorem readNodeId?_eq_none_iff {value : String} : readNodeId? value = none ↔ ∀ n, ¬Names value n := by
  rw [Option.eq_none_iff_forall_ne_some]
  exact forall_congr' fun n => not_congr readNodeId?_eq_some_iff_names

theorem defaultNodeId_of_some {env : Environment} {value : String} (h : env nodeIdVariable = some value) :
    (ofEnvironment env).defaultNodeId = readNodeId? value := by
  unfold ofEnvironment
  rw [h]
  rfl

theorem defaultNodeId_of_none {env : Environment} (h : env nodeIdVariable = none) :
    (ofEnvironment env).defaultNodeId = none := by
  unfold ofEnvironment
  rw [h]
  rfl

end Settings

namespace Registry

/-! ## Registries of settings -/

/-- Settings in range make a registry, which serves the node id that they set or else the one drawn. -/
theorem exists_ofSettings {settings : Settings} (h : ∀ n ∈ settings.defaultNodeId, n ≤ maxNodeId)
    (drawn : Fin (maxNodeId + 1)) :
    ∃ r, ofSettings settings drawn = .ok r ∧ r.defaultNodeId = settings.defaultNodeId.getD drawn := by
  unfold ofSettings
  cases hset : settings.defaultNodeId with
  | none => exact ⟨_, rfl, rfl⟩
  | some n => exact ⟨_, dif_pos (h n hset), rfl⟩

/-- **Environments.**  Without the variable no node id is set.  A value sets a node id exactly if it names
it, and none if it names none.  Whichever it is, a registry is made of the settings, and its default node id
is the one that is set, or the one drawn if none is. -/
theorem of_every_environment (env : Environment) (drawn : Fin (maxNodeId + 1)) :
    let settings := Settings.ofEnvironment env
    (env Settings.nodeIdVariable = none → settings.defaultNodeId = none)
      ∧ (∀ value, env Settings.nodeIdVariable = some value →
        (∀ n, settings.defaultNodeId = some n ↔ Settings.Names value n)
          ∧ (settings.defaultNodeId = none ↔ ∀ n, ¬Settings.Names value n))
      ∧ ∃ r, ofSettings settings drawn = .ok r ∧ r.defaultNodeId = settings.defaultNodeId.getD drawn := by
  intro settings
  refine ⟨Settings.defaultNodeId_of_none, ?_, exists_ofSettings (fun n hn => Settings.ofEnvironment_le hn) drawn⟩
  intro value hvalue
  rw [show settings.defaultNodeId = _ from Settings.defaultNodeId_of_some hvalue]
  exact ⟨fun n => Settings.readNodeId?_eq_some_iff_names, Settings.readNodeId?_eq_none_iff⟩

/-- The greatest node id, after an ideographic blank, a sign and a zero; the number after it names none. -/
example : Settings.readNodeId? "\u3000+0281474976710655\n" = some maxNodeId
    ∧ Settings.readNodeId? "281474976710656" = none := by
  decide +kernel

end Registry

end Snowflake
