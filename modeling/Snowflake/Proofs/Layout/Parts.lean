import Snowflake.Parts
import Snowflake.Proofs.Layout.Fields

/-!
# Parts: unpacking an id loses nothing

Packing is a matter of masks, shifts and a bitwise or, and unpacking one of shifts and
masks (`pack_eq_or`, `timestamp_eq_and` and so on): no field reaches into its neighbour.
The parts of an id give the time for the timestamp, and no time of an id is out of a
clock's reach, so nothing saturates:

    f.layout.millis raw = (f.layout.timestamp raw + f.layout.epochTick) * f.layout.tickMillis   (millis_eq)

and the timestamp is found again from the time.  Bits above the layout are in no field and
no part (`parts_mod`).
-/

namespace Snowflake

/-! ## Masks and shifts -/

/-- A mask of low bits cuts a number down to them. -/
theorem and_mask (n bits : Nat) : n &&& (capacity bits - 1) = n % capacity bits :=
  Nat.and_two_pow_sub_one_eq_mod n bits

theorem shiftLeft_eq_mul (n bits : Nat) : n <<< bits = n * capacity bits := Nat.shiftLeft_eq n bits

theorem shiftRight_eq_div (n bits : Nat) : n >>> bits = n / capacity bits := Nat.shiftRight_eq_div_pow n bits

/-- High and low bits that do not meet are joined by a bitwise or. -/
theorem mul_capacity_or {bits r : Nat} (q : Nat) (h : r < capacity bits) :
    q * capacity bits ||| r = q * capacity bits + r := by
  rw [Nat.mul_comm]
  exact (Nat.two_pow_add_eq_or_of_lt h q).symm

/-- Cutting a number down to a word first makes no difference to bits of the word. -/
theorem mod_word_mod {bits : Nat} (h : bits ≤ 64) (n : Nat) : n % capacity 64 % capacity bits = n % capacity bits :=
  Nat.mod_mod_of_dvd n (Nat.pow_dvd_pow 2 h)

namespace Layout

variable (L : Layout)

theorem pack_eq_or (timestamp nodeId sequence : Nat) :
    L.pack timestamp nodeId sequence
      = (timestamp &&& L.maxTimestamp) <<< L.timestampShift ||| (nodeId &&& L.maxNodeField) <<< L.nodeShift
        ||| (sequence &&& L.maxSequence) := by
  -- joined from the right: each field is shifted past all that stands below it
  have hsequence : sequence % capacity L.sequenceBits < capacity L.nodeShift := Nat.mod_lt _ (capacity_pos _)
  have hlow := L.pack_low_lt nodeId sequence
  unfold maxTimestamp maxNodeField maxSequence pack
  rw [and_mask, and_mask, and_mask, shiftLeft_eq_mul, shiftLeft_eq_mul, Nat.or_assoc,
    mul_capacity_or _ hsequence, mul_capacity_or _ hlow, Nat.add_assoc]

theorem timestamp_eq_and (raw : Nat) :
    L.timestamp raw = (raw >>> L.timestampShift) % capacity 64 &&& L.maxTimestamp := by
  unfold Layout.timestamp maxTimestamp
  rw [and_mask, mod_word_mod L.timestampBits_le, shiftRight_eq_div]

theorem nodeField_eq_and (raw : Nat) :
    L.nodeField raw = (raw >>> L.nodeShift) % capacity 64 &&& L.maxNodeField := by
  unfold nodeField maxNodeField
  rw [and_mask, mod_word_mod L.nodeBits_le, shiftRight_eq_div]

theorem sequence_eq_and (raw : Nat) : L.sequence raw = raw % capacity 64 &&& L.maxSequence := by
  have hle := Nat.le_trans L.sequenceBits_le (by decide : 32 ≤ 64)
  unfold Layout.sequence maxSequence
  rw [and_mask, mod_word_mod hle]

/-! ## Bits above the layout -/

section AboveTheLayout

variable (raw : Nat)

theorem timestamp_mod : L.timestamp (raw % capacity L.usedBits) = L.timestamp raw := by
  rw [← pack_fields, timestamp_pack]
  exact Nat.mod_mod ..

theorem nodeField_mod : L.nodeField (raw % capacity L.usedBits) = L.nodeField raw := by
  rw [← pack_fields, nodeField_pack]
  exact Nat.mod_mod ..

theorem sequence_mod : L.sequence (raw % capacity L.usedBits) = L.sequence raw := by
  rw [← pack_fields, sequence_pack]
  exact Nat.mod_mod ..

theorem parts_mod : L.parts (raw % capacity L.usedBits) = L.parts raw := by
  unfold parts millis
  rw [timestamp_mod, nodeField_mod, sequence_mod]

end AboveTheLayout

end Layout

/-! ## Times -/

namespace Format

variable (f : Format)

/-- The last tick of a format starts within a clock's reach. -/
theorem lastTick_mul_le :
    (f.layout.epochTick + f.layout.maxTimestamp) * f.layout.tickMillis ≤ wordMax := by
  cases f <;> decide

/-- So does the tick after it, but for the widest format. -/
theorem endTick_mul_le {f : Format} (h : f ≠ id128) :
    (f.layout.epochTick + f.layout.maxTimestamp + 1) * f.layout.tickMillis ≤ wordMax := by
  cases f with
  | id128 => exact absurd rfl h
  | tiny | mini | id48 | id64 => decide

/-- The tick of any id starts there. -/
theorem tick_mul_le (raw : Nat) :
    (f.layout.timestamp raw + f.layout.epochTick) * f.layout.tickMillis ≤ wordMax := by
  have hle := f.layout.timestamp_le raw
  exact Nat.le_trans (Nat.mul_le_mul_right _ (by omega)) f.lastTick_mul_le

theorem tick_le (raw : Nat) : f.layout.timestamp raw + f.layout.epochTick ≤ wordMax :=
  Nat.le_trans (Nat.le_mul_of_pos_right _ f.layout.tickMillis_pos) (f.tick_mul_le raw)

/-- The time of an id is the start of its tick, exactly. -/
theorem millis_eq (raw : Nat) :
    f.layout.millis raw = (f.layout.timestamp raw + f.layout.epochTick) * f.layout.tickMillis := by
  unfold Layout.millis
  rw [saturate_of_le (f.tick_le raw), saturate_of_le (f.tick_mul_le raw)]

/-- The timestamp is found again from the time. -/
theorem timestamp_of_millis (raw : Nat) :
    f.layout.millis raw / f.layout.tickMillis - f.layout.epochTick = f.layout.timestamp raw := by
  rw [millis_eq, Nat.mul_div_cancel _ f.layout.tickMillis_pos, Nat.add_sub_cancel]

/-! ## There and back -/

/-- **There and back.**  Any numbers packed into an id fit it and are read back as far as their fields
hold them; packing is masks, shifts and a bitwise or.  The fields of any number, packed again, are the
number without the bits above the layout, so the number itself exactly if it fits.  So are its parts:
their time does not saturate and gives the timestamp back.  The bits above the layout change neither
fields nor parts. -/
theorem pack_there_and_back (f : Format) :
    let L := f.layout
    (∀ timestamp nodeId sequence,
        let id := L.pack timestamp nodeId sequence
        L.Fits id ∧ L.timestamp id = timestamp % capacity L.timestampBits
          ∧ L.nodeField id = nodeId % capacity L.nodeBits ∧ L.sequence id = sequence % capacity L.sequenceBits
          ∧ id = (timestamp &&& L.maxTimestamp) <<< L.timestampShift ||| (nodeId &&& L.maxNodeField) <<< L.nodeShift
              ||| (sequence &&& L.maxSequence))
      ∧ ∀ raw,
        let kept := raw % capacity L.usedBits
        let again := L.pack (L.timestamp raw) (L.nodeField raw) (L.sequence raw)
        let p := L.parts raw
        again = kept ∧ (again = raw ↔ L.Fits raw)
          ∧ L.timestamp raw = (raw >>> L.timestampShift) % capacity 64 &&& L.maxTimestamp
          ∧ L.nodeField raw = (raw >>> L.nodeShift) % capacity 64 &&& L.maxNodeField
          ∧ L.sequence raw = raw % capacity 64 &&& L.maxSequence
          ∧ L.timestamp raw + L.epochTick ≤ wordMax ∧ (L.timestamp raw + L.epochTick) * L.tickMillis ≤ wordMax
          ∧ p.timestampMillis = (L.timestamp raw + L.epochTick) * L.tickMillis
          ∧ L.pack (p.timestampMillis / L.tickMillis - L.epochTick) p.nodeId p.sequence = kept
          ∧ L.timestamp kept = L.timestamp raw ∧ L.nodeField kept = L.nodeField raw
          ∧ L.sequence kept = L.sequence raw ∧ L.parts kept = p := by
  intro L
  refine ⟨fun timestamp nodeId sequence => ?_, fun raw => ?_⟩
  · exact ⟨L.fits_pack .., L.timestamp_pack .., L.nodeField_pack .., L.sequence_pack .., L.pack_eq_or ..⟩
  · intro kept again p
    have hagain : again = kept := L.pack_fields raw
    have hfits : again = raw ↔ L.Fits raw := by
      rw [hagain]
      constructor
      · intro hkept
        exact hkept ▸ Nat.mod_lt raw (capacity_pos _)
      · exact Nat.mod_eq_of_lt
    have hparts : L.pack (p.timestampMillis / L.tickMillis - L.epochTick) p.nodeId p.sequence = kept := by
      rw [show p.timestampMillis / L.tickMillis - L.epochTick = L.timestamp raw from f.timestamp_of_millis raw]
      exact L.pack_fields raw
    exact ⟨hagain, hfits, L.timestamp_eq_and raw, L.nodeField_eq_and raw, L.sequence_eq_and raw, f.tick_le raw,
      f.tick_mul_le raw, f.millis_eq raw, hparts, L.timestamp_mod raw, L.nodeField_mod raw, L.sequence_mod raw,
      L.parts_mod raw⟩

/-- The reserved bit is in no part. -/
example : id64.layout.parts (capacity 63 + 5) = { timestampMillis := 1735689600000, nodeId := 0, sequence := 5 } := by
  decide

end Format

end Snowflake
