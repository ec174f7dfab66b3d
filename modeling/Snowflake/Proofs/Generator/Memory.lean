import Snowflake.Proofs.Generator.Phases

/-!
# Memory: what a generator remembers, and what needs no check because of it

Of each format a generator remembers the tick and the number of the last id that it gave out, and
both are in range (`Generator.Remembers`).  Three things that a call does are exact for this reason
(`Generator.Exact`):

* the timestamp and the number that it packs fit their fields, so nothing but the node id is cut;
* the number after the last one is a word, so counting on never wraps;
* where no number is left, there is a last tick to wait for.

A sound generator is exact (`exact_of_sound`), and all calls of a run are made on sound ones.
-/

namespace Snowflake

/-! ## Fields side by side -/

namespace Layout

variable {L : Layout} {timestamp nodeId sequence : Nat}

/-- Three fields side by side, each as it is. -/
def join (L : Layout) (timestamp nodeField sequence : Nat) : Nat :=
  timestamp * capacity L.timestampShift + nodeField * capacity L.nodeShift + sequence

/-- Packing a timestamp and a number in range cuts the node id alone. -/
theorem pack_of_le (ht : timestamp ≤ L.maxTimestamp) (hs : sequence ≤ L.maxSequence) :
    L.pack timestamp nodeId sequence = L.join timestamp (nodeId % capacity L.nodeBits) sequence := by
  unfold pack join
  rw [mod_capacity_of_le ht, mod_capacity_of_le hs]

theorem maxSequence_lt_wordMax (L : Layout) : L.maxSequence < wordMax := by
  have hle : capacity L.sequenceBits ≤ capacity 32 := capacity_le L.sequenceBits_le
  have hword : capacity 32 ≤ wordMax := by decide +kernel
  have hpos := capacity_pos L.sequenceBits
  unfold maxSequence
  omega

end Layout

/-! ## Verdicts that give an id -/

namespace Verdict

variable {L : Layout} {last : Option Stamp} {tick timestamp : Nat} {stamp : Stamp}

theorem onRange_eq_issue : onRange L last tick = issue timestamp stamp
    ↔ L.timestampOf? tick = some timestamp ∧ Sequence.next? last tick L.maxSequence = some stamp := by
  unfold onRange
  cases L.timestampOf? tick with
  | none => simp
  | some t =>
    cases Sequence.next? last tick L.maxSequence with
    | none => simp
    | some st => simp

/-- An id is given on a tick in range that the sequence has a stamp on. -/
theorem onTick_eq_issue : onTick L last tick = issue timestamp stamp
    ↔ L.timestampOf? tick = some timestamp ∧ Sequence.next? last tick L.maxSequence = some stamp := by
  rw [← onRange_eq_issue]
  cases last with
  | none => rw [onTick_none]
  | some before =>
    rcases Nat.lt_or_ge tick before.tick with hbehind | hle
    · -- behind the last stamp neither side holds
      have hnone : Sequence.next? (some before) tick L.maxSequence = none :=
        Sequence.next?_eq_none.2 ⟨before, rfl, Or.inl hbehind⟩
      rw [onTick_behind L hbehind, onRange_eq_issue, hnone]
      exact iff_of_false nofun fun h => nomatch h.2
    · rw [onTick_of_le L hle]

end Verdict

namespace Generator

variable {σ : Type} {nodeId : Nat} {g : Generator} {f : Format}

/-! ## What is remembered -/

/-- The tick of the format's last id. -/
def lastTick? (g : Generator) (f : Format) : Option Nat := (g.last.get f).map Stamp.tick

/-- The number that the format's last id has within its tick; 0 before the first id. -/
def lastNumber (g : Generator) (f : Format) : Nat := ((g.last.get f).map Stamp.sequence).getD 0

/-- What the generator remembers of a format after these ids: nothing yet, or the tick and the number of
the last one, both in range. -/
inductive Remembers (f : Format) (g : Generator) (ids : List Nat) : Prop
  | fresh (hids : ids = []) (htick : g.lastTick? f = none) (hnumber : g.lastNumber f = 0)
  | stamped {id tick : Nat} (hids : ids.getLast? = some id) (htick : g.lastTick? f = some tick)
      (hepoch : f.layout.epochTick ≤ tick) (hend : tick ≤ f.layout.epochTick + f.layout.maxTimestamp)
      (hle : g.lastNumber f ≤ f.layout.maxSequence)
      (hid : tick = f.layout.epochTick + f.layout.timestamp id)
      (hnumber : g.lastNumber f = f.layout.sequence id)

section

variable {stamp : Stamp}

theorem lastTick?_of_last_eq (h : g.last.get f = some stamp) : g.lastTick? f = some stamp.tick := by
  unfold lastTick?
  rw [h]
  rfl

theorem lastNumber_of_last_eq (h : g.last.get f = some stamp) : g.lastNumber f = stamp.sequence := by
  unfold lastNumber
  rw [h]
  rfl

theorem lastTick?_of_none (h : g.last.get f = none) : g.lastTick? f = none := by
  unfold lastTick?
  rw [h]
  rfl

theorem lastNumber_of_none (h : g.last.get f = none) : g.lastNumber f = 0 := by
  unfold lastNumber
  rw [h]
  rfl

end

/-- The stamp of a last id is in range. -/
theorem remembers_of_last_eq {ids : List Nat} (hlast : g.last.get f = ids.getLast?.map f.layout.stampOf) :
    Remembers f g ids := by
  cases hids : ids.getLast? with
  | none =>
    rw [hids] at hlast
    exact .fresh (List.getLast?_eq_none_iff.1 hids) (lastTick?_of_none hlast) (lastNumber_of_none hlast)
  | some id =>
    rw [hids] at hlast
    have hnumber : g.lastNumber f = f.layout.sequence id := lastNumber_of_last_eq hlast
    refine .stamped hids (lastTick?_of_last_eq hlast) (Nat.le_add_right ..) ?_ ?_ rfl hnumber
    · exact Nat.add_le_add_left (f.layout.timestamp_le id) _
    · rw [hnumber]
      exact f.layout.sequence_le id

/-! ## What is exact -/

/-- No call for an id of the format cuts a timestamp or a number, counts past the greatest word, or waits
without a last tick. -/
structure Exact (f : Format) (g : Generator) : Prop where
  packs : ∀ tick timestamp stamp, Verdict.onTick f.layout (g.last.get f) tick = .issue timestamp stamp →
    timestamp ≤ f.layout.maxTimestamp ∧ stamp.sequence ≤ f.layout.maxSequence
      ∧ f.layout.pack timestamp g.nodeId stamp.sequence
        = f.layout.join timestamp (g.nodeField f) stamp.sequence
  counts : g.lastNumber f + 1 ≤ wordMax
  waits : ∀ tick, Sequence.next? (g.last.get f) tick f.layout.maxSequence = none →
    ∃ last, g.lastTick? f = some last

theorem lastNumber_le (hg : g.Sound) (f : Format) : g.lastNumber f ≤ f.layout.maxSequence := by
  cases hlast : g.last.get f with
  | none =>
    rw [lastNumber_of_none hlast]
    exact Nat.zero_le _
  | some stamp =>
    rw [lastNumber_of_last_eq hlast]
    exact (hg f stamp hlast).sequence_le

theorem exact_of_sound (hg : g.Sound) (f : Format) : Exact f g := by
  refine ⟨?_, ?_, ?_⟩
  · intro tick timestamp stamp hissue
    obtain ⟨htimestamp, hnext⟩ := Verdict.onTick_eq_issue.1 hissue
    obtain ⟨-, ht⟩ := f.layout.timestampOf?_eq_some.1 htimestamp
    obtain ⟨-, -, hs⟩ := Sequence.next?_eq_some.1 hnext
    exact ⟨ht, hs, Layout.pack_of_le ht hs⟩
  · exact Nat.lt_of_le_of_lt (lastNumber_le hg f) f.layout.maxSequence_lt_wordMax
  · intro tick hnone
    obtain ⟨stamp, hlast, -⟩ := Sequence.next?_eq_none.1 hnone
    exact ⟨stamp.tick, lastTick?_of_last_eq hlast⟩

/-- What the call gives was packed on the generator's verdict on the call's last reading. -/
def PackedBy (f : Format) (g : Generator) (call : Call σ Issue) : Prop :=
  ∀ issue, call.outcome = .ok issue → ∃ reading timestamp stamp, call.readings.getLast? = some reading
    ∧ Verdict.onTick f.layout (g.last.get f) (tickAt f.layout.tickMillis reading) = .issue timestamp stamp
    ∧ issue.raw = f.layout.pack timestamp g.nodeId stamp.sequence

theorem packedBy_generateAs (c : Clock σ) (form : Form) (f : Format) (patience : Nat) (hg : g.Sound) (s : σ) :
    PackedBy f g (generateAs c form f patience g s) := by
  intro issue hok
  rcases generateAs_cases c form f patience hg s with ⟨stamp, reading, hfits, hfollows, hlast, htick, ho, -⟩ | ⟨_, ho, -⟩
  · cases hok.symm.trans ho
    refine ⟨reading, stamp.tick - f.layout.epochTick, stamp, hlast, Verdict.onTick_eq_issue.2 ⟨?_, ?_⟩, rfl⟩
    · have hepoch := hfits.epoch_le
      have hend := hfits.tick_le
      rw [f.layout.timestampOf?_eq_some, ← htick]
      omega
    · exact Sequence.next?_eq_some.2 ⟨htick, hfollows, hfits.sequence_le⟩
  · cases hok.symm.trans ho

/-! ## In every run -/

/-- **Memory.**  Whatever the clock does and whichever calls fail: after a run of a fresh generator, what is
remembered of a format is the tick and the number of the last id that a call gave, or nothing if none did, and
the generator is exact.  So was the one that each call was made on, and the id of each call was packed by it. -/
theorem memory_of_last_id (hg : ofNodeId nodeId = .ok g) (c : Clock σ) (s : σ) (steps : List (Step σ))
    (f : Format) :
    let calls := callsOf c f g s steps
    let g' := after g (run c g s steps)
    Remembers f g' (calls.flatMap fun call => idsOf call.outcome) ∧ Exact f g'
      ∧ ∀ call ∈ calls, ∃ g₀ form patience s₀,
        call = generateAs c form f patience g₀ s₀ ∧ Exact f g₀ ∧ PackedBy f g₀ call := by
  intro calls g'
  have hsound := sound_of_fresh hg
  have hids : issued f (run c g s steps) = calls.flatMap fun call => idsOf call.outcome :=
    issued_eq_idsOf_calls c f g s steps
  refine ⟨?_, ?_, ?_⟩
  · rw [← hids]
    exact remembers_of_last_eq (last_after hg c s steps f)
  · exact exact_of_sound ((run_progress c hsound s steps).sound hsound) f
  · intro call hcall
    obtain ⟨g₀, form, patience, s₀, hg₀, rfl⟩ := (run_succession hsound s steps).exists_generateAs hcall
    exact ⟨g₀, form, patience, s₀, rfl, exact_of_sound hg₀ f, packedBy_generateAs c form f patience hg₀ s₀⟩

/-- Of the narrowest format on its last tick: the 16 numbers are used up, and calls behind the tick, on it
and past it change nothing. -/
theorem memory_of_a_full_tick :
    ∃ g, ofNodeId 5 = .ok g ∧
      let last := 2406778230000
      let steps : List (Step ManualClock) :=
        [.generate .number .tiny 0, .move (·.set last), .burst (.text .hex) .tiny 17 0, .move (·.set 0),
          .generate .typed .tiny 0, .move (·.set (last + 25000)), .generate .number .tiny 1]
      let calls := callsOf ManualClock.clock .tiny g (.steady 5) steps
      let g' := after g (run ManualClock.clock g (.steady 5) steps)
      g'.lastTick? .tiny = some 240677823 ∧ g'.lastNumber .tiny = 15 ∧ g'.lastTick? .mini = none
        ∧ Remembers .tiny g' (calls.flatMap fun call => idsOf call.outcome) ∧ Exact .tiny g'
        ∧ ∀ call ∈ calls, ∃ g₀ form patience s₀,
          call = generateAs ManualClock.clock form .tiny patience g₀ s₀ ∧ Exact .tiny g₀ ∧ PackedBy .tiny g₀ call := by
  have hg : ofNodeId 5 = .ok { nodeId := 5, nodeId_le := by decide } := rfl
  refine ⟨_, hg, ?_, ?_, ?_, memory_of_last_id hg ManualClock.clock (.steady 5) _ .tiny⟩
  · decide +kernel
  · decide +kernel
  · decide +kernel

end Generator

end Snowflake
