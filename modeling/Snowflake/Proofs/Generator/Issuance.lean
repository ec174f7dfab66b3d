import Mathlib.Data.List.Chain
import Snowflake.Proofs.Layout.Fields
import Snowflake.Sequence

/-!
# Issuance: ids in a row, as one node may give them out

`L.idAt nodeId stamp` is the id of a stamp.  `Issuance L nodeId last ids last'` says that
a node whose last stamp was `last` gave out `ids`, in this order, and then remembers
`last'`: every id is that of a stamp which fits the layout and follows the one before.
Nothing is assumed about where the ticks come from.

    Issuance L nodeId last ids last' → ids.IsChain L.Consecutive              (isChain)
    Issuance L nodeId last ids last' → ids.Pairwise (· < ·)                   (pairwise_lt)
    Issuance L nodeId none ids last' → the numbers within a tick are 0, 1, …  (map_sequence)
-/

namespace Snowflake

/-- The stamp's tick and number are in the range of the layout's fields. -/
structure Stamp.Fits (L : Layout) (stamp : Stamp) : Prop where
  epoch_le : L.epochTick ≤ stamp.tick
  tick_le : stamp.tick ≤ L.epochTick + L.maxTimestamp
  sequence_le : stamp.sequence ≤ L.maxSequence

/-- The stamp may come next: number 0 on a first or a later tick, one more on the same tick. -/
def Stamp.Follows : Option Stamp → Stamp → Prop
  | none, stamp => stamp.sequence = 0
  | some last, stamp =>
    (stamp.tick = last.tick ∧ stamp.sequence = last.sequence + 1)
      ∨ (last.tick < stamp.tick ∧ stamp.sequence = 0)

/-- A sequence gives the stamps on the present tick that follow the last one, while it has numbers. -/
theorem Sequence.next?_eq_some {last : Option Stamp} {tick maxSequence : Nat} {stamp : Stamp} :
    next? last tick maxSequence = some stamp
      ↔ stamp.tick = tick ∧ stamp.Follows last ∧ stamp.sequence ≤ maxSequence := by
  obtain ⟨t, n⟩ := stamp
  cases last with
  | none =>
    simp only [next?_none, Stamp.Follows, Option.some.injEq, Stamp.mk.injEq]
    omega
  | some last =>
    simp only [next?, Stamp.Follows]
    split
    · simp only [Option.some.injEq, Stamp.mk.injEq]
      omega
    · split
      · simp only [Option.some.injEq, Stamp.mk.injEq]
        omega
      · simp only [reduceCtorEq, false_iff]
        omega

namespace Layout

variable (L : Layout)

/-- The id that a node gives out with this stamp. -/
def idAt (nodeId : Nat) (stamp : Stamp) : Nat :=
  L.pack (stamp.tick - L.epochTick) nodeId stamp.sequence

/-- The stamp that an id was given out with. -/
def stampOf (raw : Nat) : Stamp := { tick := L.epochTick + L.timestamp raw, sequence := L.sequence raw }

/-- The second id comes right after the first: one number further in its tick, or first in a later one. -/
def Consecutive (a b : Nat) : Prop :=
  (L.timestamp b = L.timestamp a ∧ L.sequence b = L.sequence a + 1 ∧ L.sequence b ≤ L.maxSequence)
    ∨ (L.timestamp a < L.timestamp b ∧ L.sequence b = 0)

/-! ## The id of a stamp -/

theorem fits_idAt (nodeId : Nat) (stamp : Stamp) : L.Fits (L.idAt nodeId stamp) := L.fits_pack ..

theorem nodeField_idAt (nodeId : Nat) (stamp : Stamp) :
    L.nodeField (L.idAt nodeId stamp) = nodeId % capacity L.nodeBits := L.nodeField_pack ..

variable {L}

theorem timestamp_idAt {stamp : Stamp} (nodeId : Nat) (h : stamp.Fits L) :
    L.timestamp (L.idAt nodeId stamp) = stamp.tick - L.epochTick := by
  unfold idAt
  rw [timestamp_pack]
  exact mod_capacity_of_le (Nat.sub_le_iff_le_add'.2 h.tick_le)

theorem sequence_idAt {stamp : Stamp} (nodeId : Nat) (h : stamp.Fits L) :
    L.sequence (L.idAt nodeId stamp) = stamp.sequence := by
  unfold idAt
  rw [sequence_pack]
  exact mod_capacity_of_le h.sequence_le

/-- An id tells its stamp: no bit of the tick or the number is lost. -/
theorem stampOf_idAt {stamp : Stamp} (nodeId : Nat) (h : stamp.Fits L) :
    L.stampOf (L.idAt nodeId stamp) = stamp := by
  have hle := h.epoch_le
  unfold stampOf
  rw [timestamp_idAt nodeId h, sequence_idAt nodeId h, Nat.add_sub_cancel' hle]

/-- Ids of one node field in consecutive order increase. -/
theorem lt_of_consecutive {a b : Nat} (ha : L.Fits a) (hb : L.Fits b)
    (hn : L.nodeField a = L.nodeField b) (h : L.Consecutive a b) : a < b := by
  rw [L.lt_iff_fields ha hb]
  rcases h with ⟨ht, hs, -⟩ | ⟨ht, -⟩
  · exact Or.inr ⟨ht.symm, Or.inr ⟨hn, by omega⟩⟩
  · exact Or.inl ht

end Layout

/-- From the stamp `last` on, the node gives out these ids and ends with the stamp `last'`. -/
inductive Issuance (L : Layout) (nodeId : Nat) : (last : Option Stamp) → List Nat → (last' : Option Stamp) → Prop
  | nil (last : Option Stamp) : Issuance L nodeId last [] last
  | cons {last last' : Option Stamp} {stamp : Stamp} {ids : List Nat} :
      stamp.Fits L → stamp.Follows last → Issuance L nodeId (some stamp) ids last' →
      Issuance L nodeId last (L.idAt nodeId stamp :: ids) last'

namespace Issuance

variable {L : Layout} {nodeId : Nat} {last last' last'' : Option Stamp} {ids ids' : List Nat}

theorem single {stamp : Stamp} (hfits : stamp.Fits L) (h : stamp.Follows last) :
    Issuance L nodeId last [L.idAt nodeId stamp] (some stamp) := .cons hfits h (.nil _)

theorem append (h : Issuance L nodeId last ids last') (h' : Issuance L nodeId last' ids' last'') :
    Issuance L nodeId last (ids ++ ids') last'' := by
  induction h with
  | nil => exact h'
  | cons hfits hfollows _ ih => exact .cons hfits hfollows (ih h')

/-- Every id is that of a stamp in range. -/
theorem exists_stamp (h : Issuance L nodeId last ids last') {id : Nat} (hid : id ∈ ids) :
    ∃ stamp, stamp.Fits L ∧ id = L.idAt nodeId stamp := by
  induction h with
  | nil => cases hid
  | cons hfits _ _ ih =>
    rcases List.mem_cons.1 hid with rfl | hid
    · exact ⟨_, hfits, rfl⟩
    · exact ih hid

theorem fits (h : Issuance L nodeId last ids last') {id : Nat} (hid : id ∈ ids) : L.Fits id := by
  obtain ⟨stamp, -, rfl⟩ := h.exists_stamp hid
  exact L.fits_idAt nodeId stamp

theorem nodeField (h : Issuance L nodeId last ids last') {id : Nat} (hid : id ∈ ids) :
    L.nodeField id = nodeId % capacity L.nodeBits := by
  obtain ⟨stamp, -, rfl⟩ := h.exists_stamp hid
  exact L.nodeField_idAt nodeId stamp

/-- Two nodes that gave out one id have one node field. -/
theorem nodeField_eq_of_mem {nodeA nodeB : Nat} {lastA lastA' lastB lastB' : Option Stamp} {A B : List Nat}
    (hA : Issuance L nodeA lastA A lastA') (hB : Issuance L nodeB lastB B lastB') {id : Nat} (hidA : id ∈ A)
    (hidB : id ∈ B) : nodeA % capacity L.nodeBits = nodeB % capacity L.nodeBits := by
  rw [← hA.nodeField hidA, hB.nodeField hidB]

/-- The stamp remembered is that of the last id. -/
theorem last_eq (h : Issuance L nodeId last ids last') :
    last' = (ids.getLast?.map L.stampOf).or last := by
  induction h with
  | nil => rfl
  | @cons last last' stamp ids hfits _ _ ih =>
    rw [ih, List.getLast?_cons]
    cases ids.getLast? with
    | none => simp [Layout.stampOf_idAt nodeId hfits]
    | some id => rfl

/-- The stamp remembered is in range if the one before was. -/
theorem fits_last (h : Issuance L nodeId last ids last') (hlast : ∀ stamp ∈ last, stamp.Fits L) :
    ∀ stamp ∈ last', stamp.Fits L := by
  induction h with
  | nil => exact hlast
  | cons hfits _ _ ih =>
    apply ih
    intro stamp hstamp
    cases hstamp
    exact hfits

/-! ## Order -/

theorem head_follows {id : Nat} (h : Issuance L nodeId last (id :: ids) last') :
    (L.stampOf id).Follows last := by
  cases h with
  | cons hfits hfollows _ =>
    rw [Layout.stampOf_idAt nodeId hfits]
    exact hfollows

theorem isChain (h : Issuance L nodeId last ids last') : ids.IsChain L.Consecutive := by
  induction h with
  | nil => exact .nil
  | @cons last last' stamp ids hfits _ h ih =>
    cases h with
    | nil => exact .singleton _
    | @cons _ _ next ids hnext hfollows h =>
      refine .cons_cons ?_ ih
      have hle := hfits.epoch_le
      have hseq := hnext.sequence_le
      unfold Layout.Consecutive
      rw [Layout.timestamp_idAt nodeId hfits, Layout.timestamp_idAt nodeId hnext,
        Layout.sequence_idAt nodeId hfits, Layout.sequence_idAt nodeId hnext]
      unfold Stamp.Follows at hfollows
      omega

theorem pairwise_lt (h : Issuance L nodeId last ids last') : ids.Pairwise (· < ·) := by
  rw [← List.isChain_iff_pairwise]
  refine h.isChain.imp_of_mem_imp fun a b ha hb hab => ?_
  refine Layout.lt_of_consecutive (h.fits ha) (h.fits hb) ?_ hab
  rw [h.nodeField ha, h.nodeField hb]

theorem nodup (h : Issuance L nodeId last ids last') : ids.Nodup :=
  h.pairwise_lt.imp fun hlt => Nat.ne_of_lt hlt

/-- No id goes back behind the last stamp's tick. -/
theorem tick_le {stamp : Stamp} (h : Issuance L nodeId (some stamp) ids last') :
    ∀ id ∈ ids, stamp.tick ≤ L.epochTick + L.timestamp id := by
  generalize hlast : some stamp = last at h
  induction h generalizing stamp with
  | nil =>
    intro id hid
    cases hid
  | @cons last last' next ids hfits hfollows _ ih =>
    subst hlast
    have hnext : stamp.tick ≤ next.tick := by
      unfold Stamp.Follows at hfollows
      omega
    intro id hid
    rcases List.mem_cons.1 hid with rfl | hid
    · have hle := hfits.epoch_le
      rw [Layout.timestamp_idAt nodeId hfits]
      omega
    · exact Nat.le_trans hnext (ih rfl id hid)

/-! ## The numbers within a tick -/

/-- The first number of a tick that is left after the last stamp. -/
def firstLeft (last : Option Stamp) (tick : Nat) : Nat :=
  match last with
  | none => 0
  | some stamp => if stamp.tick = tick then stamp.sequence + 1 else 0

theorem firstLeft_same (stamp : Stamp) : firstLeft (some stamp) stamp.tick = stamp.sequence + 1 :=
  if_pos rfl

theorem firstLeft_of_ne {stamp : Stamp} {tick : Nat} (h : stamp.tick ≠ tick) :
    firstLeft (some stamp) tick = 0 := if_neg h

/-- A stamp that follows takes the first number left in its tick. -/
theorem firstLeft_of_follows {stamp : Stamp} (h : stamp.Follows last) :
    firstLeft last stamp.tick = stamp.sequence := by
  cases last with
  | none => exact h.symm
  | some before =>
    rcases h with ⟨ht, hs⟩ | ⟨ht, hs⟩
    · rw [ht, firstLeft_same, hs]
    · rw [firstLeft_of_ne (Nat.ne_of_lt ht), hs]

/-- A stamp that follows in another tick leaves the tick that was begun behind. -/
theorem firstLeft_eq_zero {stamp : Stamp} {tick : Nat} (h : stamp.Follows last) (hne : stamp.tick ≠ tick)
    (hle : stamp.tick ≤ tick) : firstLeft last tick = 0 := by
  cases last with
  | none => rfl
  | some before =>
    apply firstLeft_of_ne
    unfold Stamp.Follows at h
    omega

/-- The numbers given out within a tick go up one by one from the first that was left. -/
theorem map_sequence_from (h : Issuance L nodeId last ids last') (timestamp : Nat) :
    (ids.filter (L.timestamp · = timestamp)).map L.sequence
      = List.range' (firstLeft last (L.epochTick + timestamp))
          (ids.filter (L.timestamp · = timestamp)).length := by
  induction h with
  | nil => rfl
  | @cons last last' stamp ids hfits hfollows h ih =>
    have hle := hfits.epoch_le
    have ht := Layout.timestamp_idAt nodeId hfits
    by_cases heq : L.timestamp (L.idAt nodeId stamp) = timestamp
    · have htick : L.epochTick + timestamp = stamp.tick := by omega
      rw [List.filter_cons_of_pos (by simpa using heq), List.map_cons, List.length_cons,
        List.range'_succ, ih, htick, firstLeft_same, firstLeft_of_follows hfollows,
        Layout.sequence_idAt nodeId hfits]
    · have hne : stamp.tick ≠ L.epochTick + timestamp := by omega
      rw [List.filter_cons_of_neg (by simpa using heq), ih, firstLeft_of_ne hne]
      rcases Nat.lt_or_ge (L.epochTick + timestamp) stamp.tick with hpast | hahead
      · -- the tick is left behind, so nothing more comes in it
        have hnil : ids.filter (L.timestamp · = timestamp) = [] := by
          apply List.filter_eq_nil_iff.2
          intro id hid
          have := h.tick_le id hid
          simp only [decide_eq_true_eq]
          omega
        rw [hnil]
        rfl
      · rw [firstLeft_eq_zero hfollows hne hahead]

/-- A node that starts afresh numbers the ids of a tick 0, 1, 2 and so on. -/
theorem map_sequence (h : Issuance L nodeId none ids last') (timestamp : Nat) :
    (ids.filter (L.timestamp · = timestamp)).map L.sequence
      = List.range (ids.filter (L.timestamp · = timestamp)).length := by
  rw [h.map_sequence_from, List.range_eq_range']
  rfl

/-- There are no gaps: with an id, all smaller numbers of its tick were given out too. -/
theorem exists_of_sequence_le (h : Issuance L nodeId none ids last') {id number : Nat} (hid : id ∈ ids)
    (hle : number ≤ L.sequence id) :
    ∃ a ∈ ids, L.timestamp a = L.timestamp id ∧ L.sequence a = number := by
  have hmap := h.map_sequence (L.timestamp id)
  have hmem : L.sequence id ∈ (ids.filter (L.timestamp · = L.timestamp id)).map L.sequence :=
    List.mem_map_of_mem (List.mem_filter.2 ⟨hid, by simp⟩)
  rw [hmap, List.mem_range] at hmem
  have hnumber := List.mem_range.2 (Nat.lt_of_le_of_lt hle hmem)
  rw [← hmap] at hnumber
  obtain ⟨a, ha, rfl⟩ := List.mem_map.1 hnumber
  obtain ⟨ha, ht⟩ := List.mem_filter.1 ha
  exact ⟨a, ha, of_decide_eq_true ht, rfl⟩

end Issuance

end Snowflake
