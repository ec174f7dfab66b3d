import Snowflake.Layout

/-!
# Fields: what a packed id holds

`pack` puts its fields side by side, so that each is read back as far as its field
holds it, and an id that fits its layout is made of its three fields:

    L.timestamp (L.pack t n s) = t % capacity L.timestampBits      (and so for the others)
    L.pack (L.timestamp raw) (L.nodeField raw) (L.sequence raw) = raw % capacity L.usedBits

Ids that fit compare field by field, timestamp first (`lt_iff_fields`).
-/

namespace Snowflake

/-- A run of bits holds every number up to its greatest. -/
theorem mod_capacity_of_le {n bits : Nat} (h : n ≤ capacity bits - 1) : n % capacity bits = n := by
  have hpos := capacity_pos bits
  apply Nat.mod_eq_of_lt
  omega

/-- Numbers with a leading and a lower part compare by the leading part, then by the lower one. -/
theorem mul_add_lt_mul_add_iff {base q r q' r' : Nat} (hr : r < base) (hr' : r' < base) :
    q * base + r < q' * base + r' ↔ q < q' ∨ (q = q' ∧ r < r') := by
  rcases Nat.lt_trichotomy q q' with h | rfl | h
  · have := Nat.mul_le_mul_right base (Nat.succ_le_of_lt h)
    rw [Nat.succ_mul] at this
    omega
  · omega
  · have := Nat.mul_le_mul_right base (Nat.succ_le_of_lt h)
    rw [Nat.succ_mul] at this
    omega

namespace Layout

variable (L : Layout)

/-! ## Below the timestamp -/

/-- What stands below the timestamp: the node field, then the sequence. -/
def low (raw : Nat) : Nat := L.nodeField raw * capacity L.nodeShift + L.sequence raw

theorem capacity_timestampShift :
    capacity L.timestampShift = capacity L.nodeBits * capacity L.nodeShift := capacity_add ..

theorem capacity_usedBits :
    capacity L.usedBits = capacity L.timestampShift * capacity L.timestampBits := by
  rw [← capacity_add, L.timestampShift_add]

theorem sequence_lt (raw : Nat) : L.sequence raw < capacity L.nodeShift :=
  Nat.mod_lt _ (capacity_pos _)

theorem low_eq_mod (raw : Nat) : L.low raw = raw % capacity L.timestampShift := by
  rw [capacity_timestampShift, Nat.mul_comm, Nat.mod_mul, Nat.add_comm, Nat.mul_comm]
  rfl

theorem low_lt (raw : Nat) : L.low raw < capacity L.timestampShift := by
  rw [low_eq_mod]
  exact Nat.mod_lt _ (capacity_pos _)

/-- The lower parts of ids compare by node field, then by sequence. -/
theorem low_lt_low_iff (a b : Nat) :
    L.low a < L.low b
      ↔ L.nodeField a < L.nodeField b
        ∨ (L.nodeField a = L.nodeField b ∧ L.sequence a < L.sequence b) :=
  mul_add_lt_mul_add_iff (L.sequence_lt a) (L.sequence_lt b)

/-! ## Fields of a packed id -/

section Pack

variable (timestamp nodeId sequence : Nat)

theorem pack_low_lt :
    nodeId % capacity L.nodeBits * capacity L.nodeShift + sequence % capacity L.sequenceBits
      < capacity L.timestampShift := by
  have hn : nodeId % capacity L.nodeBits + 1 ≤ capacity L.nodeBits := Nat.mod_lt _ (capacity_pos _)
  have hs : sequence % capacity L.sequenceBits < capacity L.nodeShift := Nat.mod_lt _ (capacity_pos _)
  have h := Nat.mul_le_mul_right (capacity L.nodeShift) hn
  rw [Nat.succ_mul, ← capacity_timestampShift] at h
  omega

theorem timestamp_pack :
    L.timestamp (L.pack timestamp nodeId sequence) = timestamp % capacity L.timestampBits := by
  have hlow := L.pack_low_lt nodeId sequence
  unfold Layout.timestamp pack
  rw [Nat.add_assoc, Nat.add_comm, Nat.add_mul_div_right _ _ (capacity_pos _), Nat.div_eq_of_lt hlow,
    Nat.zero_add, Nat.mod_mod]

theorem low_pack :
    L.low (L.pack timestamp nodeId sequence)
      = nodeId % capacity L.nodeBits * capacity L.nodeShift + sequence % capacity L.sequenceBits := by
  rw [low_eq_mod]
  unfold pack
  rw [Nat.add_assoc, Nat.add_comm, Nat.add_mul_mod_self_right]
  exact Nat.mod_eq_of_lt (L.pack_low_lt nodeId sequence)

theorem sequence_pack :
    L.sequence (L.pack timestamp nodeId sequence) = sequence % capacity L.sequenceBits := by
  have hdvd : capacity L.sequenceBits ∣ capacity L.timestampShift := by
    rw [capacity_timestampShift]
    exact Nat.dvd_mul_left ..
  have hlow := L.low_pack timestamp nodeId sequence
  rw [low_eq_mod] at hlow
  unfold Layout.sequence
  rw [← Nat.mod_mod_of_dvd _ hdvd, hlow, Nat.add_comm]
  unfold nodeShift
  rw [Nat.add_mul_mod_self_right, Nat.mod_mod]

theorem nodeField_pack :
    L.nodeField (L.pack timestamp nodeId sequence) = nodeId % capacity L.nodeBits := by
  have hlow := L.low_pack timestamp nodeId sequence
  unfold low at hlow
  rw [sequence_pack] at hlow
  exact Nat.eq_of_mul_eq_mul_right (capacity_pos L.nodeShift) (Nat.add_right_cancel hlow)

end Pack

/-! ## An id and its fields -/

/-- The part of a number that lies in the layout, cut below the timestamp. -/
theorem mod_usedBits (raw : Nat) :
    raw % capacity L.usedBits = L.timestamp raw * capacity L.timestampShift + L.low raw := by
  rw [capacity_usedBits, Nat.mod_mul, ← low_eq_mod, Nat.add_comm, Nat.mul_comm]
  rfl

theorem pack_fields_eq (raw : Nat) :
    L.pack (L.timestamp raw) (L.nodeField raw) (L.sequence raw)
      = L.timestamp raw * capacity L.timestampShift + L.low raw := by
  have ht : L.timestamp raw % capacity L.timestampBits = L.timestamp raw := Nat.mod_mod ..
  have hn : L.nodeField raw % capacity L.nodeBits = L.nodeField raw := Nat.mod_mod ..
  have hs : L.sequence raw % capacity L.sequenceBits = L.sequence raw := Nat.mod_mod ..
  unfold pack low
  rw [ht, hn, hs, Nat.add_assoc]

/-- The fields of any number, packed again, are the number without the bits above the layout. -/
theorem pack_fields (raw : Nat) :
    L.pack (L.timestamp raw) (L.nodeField raw) (L.sequence raw) = raw % capacity L.usedBits := by
  rw [pack_fields_eq, mod_usedBits]

theorem fits_pack (timestamp nodeId sequence : Nat) : L.Fits (L.pack timestamp nodeId sequence) := by
  have h : L.pack timestamp nodeId sequence % capacity L.usedBits = L.pack timestamp nodeId sequence := by
    rw [mod_usedBits, timestamp_pack, low_pack]
    unfold pack
    rw [Nat.add_assoc]
  unfold Fits
  rw [← h]
  exact Nat.mod_lt _ (capacity_pos _)

theorem eq_of_fits {raw : Nat} (h : L.Fits raw) :
    raw = L.timestamp raw * capacity L.timestampShift + L.low raw := by
  rw [← mod_usedBits]
  exact (Nat.mod_eq_of_lt h).symm

/-- **Order.**  Ids that fit compare by timestamp, then node field, then sequence. -/
theorem lt_iff_fields {a b : Nat} (ha : L.Fits a) (hb : L.Fits b) :
    a < b ↔ L.timestamp a < L.timestamp b
      ∨ (L.timestamp a = L.timestamp b
        ∧ (L.nodeField a < L.nodeField b
          ∨ (L.nodeField a = L.nodeField b ∧ L.sequence a < L.sequence b))) := by
  conv => lhs; rw [L.eq_of_fits ha, L.eq_of_fits hb]
  rw [mul_add_lt_mul_add_iff (L.low_lt a) (L.low_lt b), low_lt_low_iff]

/-- Ids that fit are equal when their fields are. -/
theorem eq_of_fields_eq {a b : Nat} (ha : L.Fits a) (hb : L.Fits b)
    (ht : L.timestamp a = L.timestamp b) (hn : L.nodeField a = L.nodeField b)
    (hs : L.sequence a = L.sequence b) : a = b := by
  rw [L.eq_of_fits ha, L.eq_of_fits hb]
  unfold low
  rw [ht, hn, hs]

end Layout

end Snowflake
