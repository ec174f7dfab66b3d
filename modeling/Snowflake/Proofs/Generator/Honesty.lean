import Snowflake.Clock.Manual
import Snowflake.Proofs.Codec.Digits
import Snowflake.Proofs.Generator.History
import Snowflake.Proofs.Layout.Parts

/-!
# Honesty: an id says when it was issued

The parts of an id that a call issued are the start of the tick of the call's last
reading, the node field and the number that the sequence gave:

    f.layout.parts (f.layout.idAt nodeId stamp)
      = ⟨stamp.tick * f.layout.tickMillis, nodeId % _, stamp.sequence⟩        (parts_idAt)

No time of an id is out of a clock's reach, so nothing saturates on the way back, and the
texts of the id tell the same time as the id.
-/

namespace Snowflake

/-! ## The parts of an id -/

namespace Format

variable (f : Format) {stamp : Stamp}

/-- The time of an id is the start of its stamp's tick. -/
theorem millis_idAt (nodeId : Nat) (h : stamp.Fits f.layout) :
    f.layout.millis (f.layout.idAt nodeId stamp) = stamp.tick * f.layout.tickMillis := by
  rw [millis_eq, Layout.timestamp_idAt nodeId h, Nat.sub_add_cancel h.epoch_le]

theorem parts_idAt (nodeId : Nat) (h : stamp.Fits f.layout) :
    f.layout.parts (f.layout.idAt nodeId stamp)
      = { timestampMillis := stamp.tick * f.layout.tickMillis, nodeId := nodeId % capacity f.layout.nodeBits,
          sequence := stamp.sequence } := by
  unfold Layout.parts
  rw [millis_idAt f nodeId h, Layout.nodeField_idAt, Layout.sequence_idAt nodeId h]

end Format

/-- The text of an id in an alphabet tells the time that the id does. -/
theorem Alphabet.decodeMillis_write (A : Alphabet) {f : Format} {id : Nat} (h : f.layout.Fits id) :
    A.decodeMillis f (A.write f id) = .ok (f.layout.millis id) := by
  unfold decodeMillis
  rw [A.decode_write h]
  rfl

namespace Generator

variable {σ τ : Type}

/-! ## What an issued id says -/

/-- What the parts of an id say of the call that issued it: the tick of the call's last reading, the
node, and the number that came next in the tick, which is remembered. -/
theorem generate_parts (c : Clock σ) (f : Format) {g : Generator} (hg : g.Sound) (patience : Nat) (s : σ)
    {id : Nat} (h : (generate c f patience g s).outcome = .ok id) :
    ∃ reading stamp, (generate c f patience g s).readings.getLast? = some reading
      ∧ f.layout.parts id = { timestampMillis := stamp.tick * f.layout.tickMillis, nodeId := g.nodeField f,
                              sequence := stamp.sequence }
      ∧ stamp.tick = reading / f.layout.tickMillis
      ∧ Sequence.next? (g.last.get f) stamp.tick f.layout.maxSequence = some stamp
      ∧ (generate c f patience g s).generator = g.remember f stamp ∧ f.layout.Fits id := by
  rcases generate_cases c f g (hg f) patience s with
    ⟨stamp, reading, hfits, hfollows, hlast, htick, hok, hgen⟩ | ⟨failure, hfail, -⟩
  · rw [hok] at h
    cases h
    rw [tickAt_of_pos f.layout.tickMillis_pos] at htick
    refine ⟨reading, stamp, hlast, f.parts_idAt g.nodeId hfits, htick, ?_, hgen, f.layout.fits_idAt ..⟩
    exact Sequence.next?_eq_some.2 ⟨rfl, hfollows, hfits.sequence_le⟩
  · rw [hfail] at h
    cases h

/-- **Honesty.**  In every state that a run can leave, an id that a call issues says that it was
issued in the tick of the call's last reading: its time is the start of that tick.  It carries the
node field and the number that the sequence gave, fits the format, and its text in any alphabet
tells the same time. -/
theorem issued_id_is_honest {nodeId : Nat} {g : Generator} (hg : ofNodeId nodeId = .ok g) (c : Clock σ) (s : σ)
    (steps : List (Step σ)) (f : Format) (c' : Clock τ) (patience : Nat) (s' : τ) {id : Nat}
    (h : (generate c' f patience (after g (run c g s steps)) s').outcome = .ok id) :
    let L := f.layout
    let g' := after g (run c g s steps)
    let call := generate c' f patience g' s'
    let p := L.parts id
    ∃ reading, call.readings.getLast? = some reading
      ∧ p.timestampMillis = reading / L.tickMillis * L.tickMillis
      ∧ p.timestampMillis ≤ reading ∧ reading < p.timestampMillis + L.tickMillis
      ∧ p.nodeId = nodeId % capacity L.nodeBits ∧ p.nodeId = g'.nodeField f
      ∧ Sequence.next? (g'.last.get f) (reading / L.tickMillis) L.maxSequence
          = some ⟨reading / L.tickMillis, p.sequence⟩
      ∧ call.generator = g'.remember f ⟨reading / L.tickMillis, p.sequence⟩
      ∧ L.Fits id
      ∧ ∀ A : Alphabet, ∃ text, A.encode f id = .ok text ∧ A.decodeMillis f text = .ok p.timestampMillis := by
  intro L g' call p
  have hrun := run_progress c (sound_of_fresh hg) s steps
  have hnode : g'.nodeField f = nodeId % capacity L.nodeBits := by
    unfold nodeField
    rw [hrun.nodeId_eq, (ofNodeId_eq_ok hg).1]
  obtain ⟨reading, ⟨tick, number⟩, hlast, hparts, rfl, hnext, hgen, hfits⟩ :=
    generate_parts c' f (hrun.sound (sound_of_fresh hg)) patience s' h
  have hp : p = _ := hparts
  have hmod := Nat.div_add_mod' reading f.layout.tickMillis
  have hlt := Nat.mod_lt reading f.layout.tickMillis_pos
  rw [hp]
  refine ⟨reading, hlast, rfl, Nat.div_mul_le_self .., ?_, hnode, rfl, hnext, hgen, hfits, fun A => ?_⟩
  · show reading < reading / f.layout.tickMillis * f.layout.tickMillis + f.layout.tickMillis
    omega
  · refine ⟨A.write f id, A.encode_of_fits hfits, ?_⟩
    rw [A.decodeMillis_write hfits, ← hp]
    rfl

/-- After two parks that fell short and overshot, the id tells the tick of the reading that ended
the wait: ten seconds from 30000, for a reading of 31234. -/
theorem honest_after_overshoot :
    ∃ g, ofNodeId 5 = .ok g ∧
      let dones := run ManualClock.clock g (.steady (customEpochMillis + 20000)) [.generate .number .tiny 3]
      let late : ManualClock :=
        { reading := customEpochMillis + 19000, cap := some 9000, extra := 1234, reading_le := by decide }
      let call := generate ManualClock.clock .tiny 3 (after g dones) late
      let p := Format.tiny.layout.parts 208
      call.outcome = .ok 208 ∧ call.readings.getLast? = some (customEpochMillis + 31234)
        ∧ p.timestampMillis = customEpochMillis + 30000
        ∧ ∃ reading, call.readings.getLast? = some reading
          ∧ p.timestampMillis ≤ reading ∧ reading < p.timestampMillis + Format.tiny.layout.tickMillis := by
  have hg : ofNodeId 5 = .ok { nodeId := 5, nodeId_le := by decide } := rfl
  refine ⟨_, hg, rfl, rfl, rfl, ?_⟩
  obtain ⟨reading, hlast, -, hle, hlt, -⟩ :=
    issued_id_is_honest hg ManualClock.clock (.steady (customEpochMillis + 20000)) [.generate .number .tiny 3]
      .tiny ManualClock.clock 3
      { reading := customEpochMillis + 19000, cap := some 9000, extra := 1234, reading_le := by decide } rfl
  exact ⟨reading, hlast, hle, hlt⟩

end Generator

end Snowflake
