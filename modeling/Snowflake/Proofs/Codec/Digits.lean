import Snowflake.Codec.Alphabet

/-!
# Digits: the number that a text of fixed width stands for

`numberFrom bits n ds` is the number that the digits `ds` stand for after the number `n`,
each digit of so many bits, most significant first.  Writing takes a number apart into
digits and reading puts the digits of its bytes together:

    numberFrom bits n (digits bits width m)
      = n * capacity (bits * width) + m % capacity (bits * width)           (numberFrom_digits)
    A.readChecked f index n bytes = .ok (numberFrom A.bitsPerDigit n ds)  (readChecked_of_value?)

the second for bytes that stand for the digits `ds`, as long as the number has 128 bits.  Each
goes backwards too: the digits of a number are the only ones that stand for it at their width
(`digits_numberFrom`), and only bytes for digits are read (`exists_digits_of_readChecked`).

`readChecked` looks before every digit whether there is room for it, as not every alphabet does.
On texts of full width this makes no difference (`readFrom_eq_readChecked`): an alphabet that
does not look has digits that fill 128 bits evenly, and no text has more of them than fill its
format's bits, so there is always room (`push_eq`).
-/

namespace Snowflake

namespace Layout

/-- The characters of an id have room for all its bits. -/
theorem totalBits_le_width (L : Layout) {bits : Nat} (hbits : 0 < bits) :
    L.totalBits ≤ bits * L.width bits := by
  have hdiv := Nat.div_add_mod (L.totalBits + bits - 1) bits
  have hmod := Nat.mod_lt (L.totalBits + bits - 1) hbits
  unfold width
  omega

/-- No id that fits is too great for its characters. -/
theorem Fits.lt_capacity_width {L : Layout} {raw bits : Nat} (h : L.Fits raw) (hbits : 0 < bits) :
    raw < capacity (bits * L.width bits) :=
  Nat.lt_of_lt_of_le h (capacity_le (Nat.le_trans L.usedBits_le (L.totalBits_le_width hbits)))

/-- Every id that fits has at most 128 bits. -/
theorem Fits.lt_capacity {L : Layout} {raw : Nat} (h : L.Fits raw) : raw < capacity 128 :=
  Nat.lt_of_lt_of_le h (capacity_le (Nat.le_trans L.usedBits_le L.totalBits_le))

end Layout

namespace Alphabet

/-- The number that digits stand for after a number, most significant first. -/
def numberFrom (bits : Nat) : Nat → List Nat → Nat
  | n, [] => n
  | n, d :: ds => numberFrom bits (n * capacity bits + d) ds

/-! ## Digits of a number -/

theorem numberFrom_digits (bits n m width : Nat) :
    numberFrom bits n (digits bits width m)
      = n * capacity (bits * width) + m % capacity (bits * width) := by
  induction width generalizing n with
  | zero => simp [digits, numberFrom, capacity_zero, Nat.mod_one]
  | succ width ih =>
    have hsplit : capacity (bits * (width + 1)) = capacity (bits * width) * capacity bits := by
      rw [Nat.mul_succ, capacity_add]
    rw [digits, numberFrom, ih, hsplit, Nat.mod_mul, Nat.add_mul, Nat.mul_assoc,
      Nat.mul_comm (capacity bits), Nat.mul_comm (_ % capacity bits)]
    omega

theorem le_numberFrom (bits n : Nat) (ds : List Nat) : n ≤ numberFrom bits n ds := by
  induction ds generalizing n with
  | nil => exact Nat.le_refl n
  | cons d ds ih =>
    have hmul := Nat.le_mul_of_pos_right n (capacity_pos bits)
    have hrest := ih (n * capacity bits + d)
    unfold numberFrom
    omega

/-- The digits of a number leave it as they are taken away. -/
theorem numberFrom_div (bits n : Nat) {ds : List Nat} (h : ∀ d ∈ ds, d < capacity bits) :
    numberFrom bits n ds / capacity (bits * ds.length) = n := by
  induction ds generalizing n with
  | nil => simp [numberFrom, capacity_zero]
  | cons d ds ih =>
    have hd : d < capacity bits := h d List.mem_cons_self
    have hrest := ih (n * capacity bits + d) fun e he => h e (List.mem_cons_of_mem d he)
    have hsplit : capacity (bits * (d :: ds).length) = capacity (bits * ds.length) * capacity bits := by
      rw [List.length_cons, Nat.mul_succ, capacity_add]
    rw [numberFrom, hsplit, ← Nat.div_div_eq_div_mul, hrest, Nat.mul_comm n,
      Nat.mul_add_div (capacity_pos bits), Nat.div_eq_of_lt hd, Nat.add_zero]

/-- Digits are the digits of their number, whatever stands before them. -/
theorem digits_numberFrom (bits n : Nat) {ds : List Nat} (h : ∀ d ∈ ds, d < capacity bits) :
    digits bits ds.length (numberFrom bits n ds) = ds := by
  induction ds generalizing n with
  | nil => rfl
  | cons d ds ih =>
    have hd : d < capacity bits := h d List.mem_cons_self
    have hds : ∀ e ∈ ds, e < capacity bits := fun e he => h e (List.mem_cons_of_mem d he)
    rw [List.length_cons, digits, numberFrom, numberFrom_div bits _ hds, ih _ hds, Nat.mul_comm n,
      Nat.mul_add_mod, Nat.mod_eq_of_lt hd]

/-- A number that stays within 128 bits with one more digit leaves room for the digit. -/
theorem lt_of_mul_lt_capacity {n bits : Nat} (h : n * capacity bits < capacity 128) :
    n < capacity (128 - bits) := by
  apply Nat.lt_of_not_le
  intro hle
  have hroom : capacity 128 ≤ capacity (128 - bits) * capacity bits := by
    rw [← capacity_add]
    exact capacity_le (by omega)
  have hmul := Nat.mul_le_mul_right (capacity bits) hle
  omega

variable (A : Alphabet)

/-! ## The check before every digit -/

/-- Reads on like `readFrom`, and refuses every digit that there is no room for in 128 bits. -/
def readChecked (f : Format) : (index number : Nat) → List UInt8 → Except DecodeError Nat
  | _, number, [] => .ok number
  | index, number, b :: rest =>
    match A.value? b with
    | none => .error (.invalidCharacter b index)
    | some d =>
      if number < capacity (128 - A.bitsPerDigit) then
        readChecked f (index + 1) (number * A.base + d) rest
      else .error (.overflow f)

/-- One digit more is at most one digit more of capacity. -/
theorem mul_base_add_lt {n d count : Nat} (hn : n < capacity count) (hd : d < capacity A.bitsPerDigit) :
    n * A.base + d < capacity (count + A.bitsPerDigit) := by
  have hmul := Nat.mul_le_mul_right A.base (Nat.succ_le_of_lt hn)
  rw [Nat.succ_mul] at hmul
  rw [capacity_add]
  exact Nat.lt_of_lt_of_le (Nat.add_lt_add_left hd _) hmul

/-- No text of full width has more bits than 128 before its last digit. -/
theorem mul_width_lt (f : Format) : A.bitsPerDigit * A.width f < 128 + A.bitsPerDigit := by
  have hmul := Nat.mul_div_le (f.layout.totalBits + A.bitsPerDigit - 1) A.bitsPerDigit
  have htotal := f.layout.totalBits_le
  have hpos := A.bitsPerDigit_pos
  unfold width Layout.width
  omega

/-- After so many digits that 128 bits are not full, a digit is refused exactly if there is no room. -/
theorem push_eq {n index : Nat} (hn : n < capacity (A.bitsPerDigit * index)) (hroom : A.bitsPerDigit * index < 128)
    (d : Nat) :
    A.push n d = if n < capacity (128 - A.bitsPerDigit) then some (n * A.base + d) else none := by
  by_cases hguard : n < capacity (128 - A.bitsPerDigit)
  · rw [if_pos hguard]
    exact A.push_of_lt n d hguard
  · rw [if_neg hguard]
    refine A.push_of_le (fun heven => hguard ?_) n d (Nat.not_lt.1 hguard)
    -- digits that fill 128 bits evenly leave room for a whole one
    obtain ⟨count, hcount⟩ := Nat.dvd_of_mod_eq_zero heven
    rw [hcount] at hroom
    have hlt : index + 1 ≤ count := Nat.lt_of_mul_lt_mul_left hroom
    have hle := Nat.mul_le_mul_left A.bitsPerDigit hlt
    rw [Nat.mul_succ, ← hcount] at hle
    exact Nat.lt_of_lt_of_le hn (capacity_le (by omega))

/-- As long as the text is no wider than it may be, the check makes no difference. -/
theorem readFrom_eq_readChecked (f : Format) {bytes : List UInt8} {index n : Nat}
    (hn : n < capacity (A.bitsPerDigit * index))
    (hroom : A.bitsPerDigit * (index + bytes.length) < 128 + A.bitsPerDigit) :
    A.readFrom f index n bytes = A.readChecked f index n bytes := by
  induction bytes generalizing index n with
  | nil => rfl
  | cons b bytes ih =>
    have hstep : A.bitsPerDigit * (index + 1) ≤ A.bitsPerDigit * (index + (b :: bytes).length) :=
      Nat.mul_le_mul_left _ (Nat.add_le_add_left (Nat.succ_le_succ (Nat.zero_le _)) _)
    rw [Nat.mul_succ] at hstep
    unfold readFrom readChecked
    cases hb : A.value? b with
    | none => rfl
    | some d =>
      dsimp only
      rw [A.push_eq hn (by omega) d]
      by_cases hguard : n < capacity (128 - A.bitsPerDigit)
      · rw [if_pos hguard, if_pos hguard]
        have hnext := A.mul_base_add_lt hn (A.value?_lt b d hb)
        rw [← Nat.mul_succ] at hnext
        refine ih hnext ?_
        rw [List.length_cons] at hroom
        rw [Nat.add_assoc, Nat.add_comm 1]
        exact hroom
      · rw [if_neg hguard, if_neg hguard]

/-- A text of full width is read as if every digit were checked. -/
theorem read_eq_readChecked {f : Format} {bytes : List UInt8} (h : bytes.length = A.width f) :
    A.readFrom f 0 0 bytes = A.readChecked f 0 0 bytes := by
  apply A.readFrom_eq_readChecked f (capacity_pos _)
  rw [Nat.zero_add, h]
  exact A.mul_width_lt f

/-! ## Reading digits -/

/-- Bytes that stand for digits are read as the number of the digits, if it has 128 bits. -/
theorem readChecked_of_value? (f : Format) {bytes : List UInt8} {ds : List Nat}
    (h : bytes.map A.value? = ds.map some) {index n : Nat}
    (hlt : numberFrom A.bitsPerDigit n ds < capacity 128) :
    A.readChecked f index n bytes = .ok (numberFrom A.bitsPerDigit n ds) := by
  induction bytes generalizing ds index n with
  | nil =>
    obtain rfl : ds = [] := List.map_eq_nil_iff.1 h.symm
    rfl
  | cons b bytes ih =>
    cases ds with
    | nil => cases h
    | cons d ds =>
      rw [List.map_cons, List.map_cons, List.cons.injEq] at h
      have hle := le_numberFrom A.bitsPerDigit (n * capacity A.bitsPerDigit + d) ds
      have hguard : n < capacity (128 - A.bitsPerDigit) := by
        apply lt_of_mul_lt_capacity
        unfold numberFrom at hlt
        omega
      unfold readChecked
      rw [h.1]
      dsimp only
      rw [if_pos hguard]
      exact ih h.2 hlt

/-- Only bytes that stand for digits are read, and as the number of the digits. -/
theorem exists_digits_of_readChecked {f : Format} {bytes : List UInt8} {index n m : Nat}
    (h : A.readChecked f index n bytes = .ok m) :
    ∃ ds, bytes.map A.value? = ds.map some ∧ numberFrom A.bitsPerDigit n ds = m := by
  induction bytes generalizing index n with
  | nil =>
    cases h
    exact ⟨[], rfl, rfl⟩
  | cons b bytes ih =>
    unfold readChecked at h
    cases hb : A.value? b with
    | none =>
      rw [hb] at h
      cases h
    | some d =>
      rw [hb] at h
      dsimp only at h
      split at h
      · obtain ⟨ds, hds, hnumber⟩ := ih h
        refine ⟨d :: ds, ?_, hnumber⟩
        rw [List.map_cons, List.map_cons, hb, hds]
      · cases h

/-- The bytes of a written id stand for its digits. -/
theorem value?_bytes_write (f : Format) (raw : Nat) :
    (Text.bytes (A.write f raw)).map A.value?
      = (digits A.bitsPerDigit (A.width f) raw).map some := by
  rw [bytes_write, List.map_map]
  apply List.map_congr_left
  intro d hd
  exact A.value?_symbol d (digits_lt _ _ _ d hd)

/-! ## Writing and reading -/

theorem length_bytes_write (f : Format) (raw : Nat) : (Text.bytes (A.write f raw)).length = A.width f := by
  rw [bytes_write, List.length_map, length_digits]

theorem encode_of_fits {f : Format} {raw : Nat} (h : f.layout.Fits raw) :
    A.encode f raw = .ok (A.write f raw) := if_pos h

theorem encode_of_not_fits {f : Format} {raw : Nat} (h : ¬ f.layout.Fits raw) :
    A.encode f raw = .error (.tooWide f) := if_neg h

/-- Read are the texts of full width whose bytes stand for the digits of an id that fits. -/
theorem decode_eq_ok_iff {f : Format} {text : String} {raw : Nat} :
    A.decode f text = .ok raw
      ↔ ∃ ds, (Text.bytes text).map A.value? = ds.map some ∧ ds.length = A.width f
        ∧ numberFrom A.bitsPerDigit 0 ds = raw ∧ f.layout.Fits raw := by
  constructor
  · intro h
    unfold decode at h
    dsimp only at h
    split at h
    · next hwidth =>
      rw [A.read_eq_readChecked hwidth] at h
      cases hread : A.readChecked f 0 0 (Text.bytes text) with
      | error e =>
        rw [hread] at h
        cases h
      | ok number =>
        rw [hread] at h
        dsimp only at h
        split at h
        · next hfits =>
          cases h
          obtain ⟨ds, hds, hnumber⟩ := A.exists_digits_of_readChecked hread
          refine ⟨ds, hds, ?_, hnumber, hfits⟩
          have hlength := congrArg List.length hds
          rw [List.length_map, List.length_map] at hlength
          omega
        · cases h
    · cases h
  · rintro ⟨ds, hds, hlength, hnumber, hfits⟩
    have hwidth : (Text.bytes text).length = A.width f := by
      rw [← hlength, ← List.length_map (f := A.value?), hds, List.length_map]
    have hread : A.readFrom f 0 0 (Text.bytes text) = .ok raw := by
      rw [A.read_eq_readChecked hwidth, A.readChecked_of_value? f hds, hnumber]
      rw [hnumber]
      exact hfits.lt_capacity
    unfold decode
    dsimp only
    rw [if_pos hwidth, hread]
    exact if_pos hfits

/-- A written id is read back. -/
theorem decode_write {f : Format} {raw : Nat} (h : f.layout.Fits raw) :
    A.decode f (A.write f raw) = .ok raw := by
  have hnumber : numberFrom A.bitsPerDigit 0 (digits A.bitsPerDigit (A.width f) raw) = raw := by
    rw [numberFrom_digits, Nat.zero_mul, Nat.zero_add]
    exact Nat.mod_eq_of_lt (h.lt_capacity_width A.bitsPerDigit_pos)
  exact A.decode_eq_ok_iff.2 ⟨_, A.value?_bytes_write f raw, length_digits _ _ _, hnumber, h⟩

/-- What is read fits the format. -/
theorem fits_of_decode {f : Format} {text : String} {raw : Nat} (h : A.decode f text = .ok raw) :
    f.layout.Fits raw := by
  obtain ⟨ds, -, -, -, hfits⟩ := A.decode_eq_ok_iff.1 h
  exact hfits

/-- Digits of full width are what is written of the id they stand for. -/
theorem write_numberFrom {f : Format} {ds : List Nat} (hlength : ds.length = A.width f)
    (h : ∀ d ∈ ds, d < capacity A.bitsPerDigit) :
    A.write f (numberFrom A.bitsPerDigit 0 ds) = String.ofList (ds.map A.symbol) := by
  unfold write
  rw [← hlength, digits_numberFrom _ _ h]

end Alphabet

end Snowflake
