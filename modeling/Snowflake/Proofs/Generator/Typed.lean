import Snowflake.Clock.Manual
import Snowflake.Proofs.Codec.Digits
import Snowflake.Proofs.Generator.History
import Snowflake.Proofs.Layout.Parts

/-!
# Typed ids: the same id in its container and as a text

Whatever an id is asked for as, the call goes as the call for its number does (`GoesAs`):
it fails alike, reads and parks alike and leaves the same generator behind.  An id that was
issued fits its format, so neither container nor text loses any of it:

    (Typed.ofRaw f raw).toNat = raw        and        A.decode f text = .ok raw

A container may have more bits than the layout.  They are in no part, so what a container
says is what the generic functions say of the number without them (`millis_eq_mod`), and a
text says what its id says in the container (`decodeMillis_eq_typed`).

Each format has rows of its own for all this (`issuer`, `Typed.reader`).  That a row goes by
the layout, the alphabets and the container of its format is part of the agreement.
-/

namespace Snowflake

/-- The alphabet of an encoding, if it has one. -/
def Encoding.alphabet? : Encoding → Option Alphabet
  | raw => none
  | hex => some .hex
  | ascii => some .crockford

/-- The two calls went alike, whatever they were asked for as: they failed alike, or neither did. -/
structure Call.GoesAs {σ α β : Type} (x : Call σ α) (y : Call σ β) : Prop where
  failed_iff : ∀ failure, x.outcome = .error failure ↔ y.outcome = .error failure
  generator_eq : x.generator = y.generator
  readings_eq : x.readings = y.readings
  waits_eq : x.waits = y.waits
  parks_eq : x.parks = y.parks
  clock_eq : x.clock = y.clock

namespace Typed

variable {f : Format}

/-! ## Containers -/

theorem millis_ofRaw {raw : Nat} (h : f.layout.Fits raw) : millis (ofRaw f raw) = f.layout.millis raw := by
  rw [millis_eq, toNat_ofRaw h]

/-- Bits of the container above the layout are in no part. -/
theorem parts_eq_mod (id : f.Id) : parts id = f.layout.parts (id.toNat % capacity f.layout.usedBits) := by
  rw [parts_eq, f.layout.parts_mod]

theorem millis_eq_mod (id : f.Id) : millis id = f.layout.millis (id.toNat % capacity f.layout.usedBits) := by
  have hparts := congrArg Parts.timestampMillis (f.layout.parts_mod id.toNat)
  rw [millis_eq]
  exact hparts.symm

/-- A text tells the time that its id tells in the container, or why it is no id. -/
theorem decodeMillis_eq_typed (A : Alphabet) (f : Format) (text : String) :
    A.decodeMillis f text = (A.decode f text).map fun raw => millis (ofRaw f raw) := by
  unfold Alphabet.decodeMillis
  cases h : A.decode f text with
  | error e => rfl
  | ok raw => exact congrArg Except.ok (millis_ofRaw (A.fits_of_decode h)).symm

end Typed

/-! ## Calls -/

theorem Call.goesAs_map {σ α β : Type} (call : Call σ α) (k : α → β) : (call.map k).GoesAs call := by
  refine ⟨fun failure => ?_, rfl, rfl, rfl, rfl, rfl⟩
  unfold Call.map
  cases call.outcome with
  | error e => simp only [Except.map, Except.error.injEq]
  | ok a => exact iff_of_false nofun nofun

namespace Generator

variable {σ : Type} {nodeId : Nat} {g : Generator}

/-- A call for a text is the call for the number, written down: no text is missing. -/
theorem generateText_eq_map (hg : g.Sound) (c : Clock σ) (f : Format) (e : Encoding) (patience : Nat) (s : σ) :
    generateText c f e patience g s
      = (generate c f patience g s).map fun raw => { raw, text := e.write f raw } :=
  (generateAs_text c e f patience g s).symm.trans (generateAs_eq_map c (.text e) f patience hg s)

/-- The text of an issued id has the width of its alphabet and is read back. -/
theorem exists_text_of_generate (hg : g.Sound) {c : Clock σ} {f : Format} {patience : Nat} {s : σ} {id : Nat}
    (h : (generate c f patience g s).outcome = .ok id) {e : Encoding} {A : Alphabet} (hA : e.alphabet? = some A) :
    ∃ text, (generateText c f e patience g s).outcome = .ok { raw := id, text }
      ∧ (Text.bytes text).length = A.width f ∧ A.decode f text = .ok id := by
  have hwrite : e.write f id = A.write f id := by
    cases e with
    | raw => cases hA
    | hex | ascii =>
      cases hA
      rfl
  refine ⟨A.write f id, ?_, A.length_bytes_write f id, A.decode_write (fits_of_generate hg h)⟩
  rw [generateText_eq_map hg]
  unfold Call.map
  rw [h, ← hwrite]
  rfl

/-- **Typed ids.**  In every state that a run can leave, on any clock, a call for an id in its container
or as a text goes as the call for its number.  An id that is given out fits its format: its container
holds all of it, and its text in an alphabet has the alphabet's width and is read as the id.  Any text
tells the time that its id tells in the container, or why it is none; any value of the container, also
one with bits above the layout, has the time and the parts of what is left without them.  The format's
own rows for texts are these same functions. -/
theorem typed_agrees_with_number (hg : Reachable nodeId g) (c : Clock σ) (f : Format) (patience : Nat) (s : σ) :
    let L := f.layout
    let call := generate c f patience g s
    let typed := generateTyped c f patience g s
    let written := fun e => generateText c f e patience g s
    typed.GoesAs call ∧ (∀ e, (written e).GoesAs call)
      ∧ (∀ raw, call.outcome = .ok raw →
          L.Fits raw ∧ (∃ id : f.Id, typed.outcome = .ok id ∧ id.toNat = raw)
          ∧ ∀ e A, e.alphabet? = some A → ∃ text, (written e).outcome = .ok { raw, text }
            ∧ (Text.bytes text).length = A.width f ∧ A.decode f text = .ok raw)
      ∧ (∀ (A : Alphabet) (text : String),
          A.decodeMillis f text = (A.decode f text).map fun raw => Typed.millis (Typed.ofRaw f raw))
      ∧ (∀ id : f.Id,
          Typed.millis id = L.millis (id.toNat % capacity L.usedBits)
          ∧ Typed.parts id = L.parts (id.toNat % capacity L.usedBits))
      ∧ ((issuer c f).nextHex patience g s = written .hex ∧ (issuer c f).nextAscii patience g s = written .ascii)
      ∧ (Typed.reader f).millisOfHex = Alphabet.hex.decodeMillis f
      ∧ (Typed.reader f).millisOfAscii = Alphabet.crockford.decodeMillis f := by
  intro L call typed written
  have hsound := hg.sound
  have htyped : typed = call.map (Typed.ofRaw f) := generateTyped_eq c f patience g s
  refine ⟨?_, fun e => ?_, fun raw h => ?_, fun A => Typed.decodeMillis_eq_typed A f,
    fun id => ⟨Typed.millis_eq_mod id, Typed.parts_eq_mod id⟩, ?_, ?_⟩
  · rw [htyped]
    exact call.goesAs_map _
  · show (generateText c f e patience g s).GoesAs call
    rw [generateText_eq_map hsound]
    exact call.goesAs_map _
  · have hfits := fits_of_generate hsound h
    refine ⟨hfits, ⟨Typed.ofRaw f raw, ?_, Typed.toNat_ofRaw hfits⟩, fun e A => exists_text_of_generate hsound h⟩
    rw [htyped]
    show call.outcome.map (Typed.ofRaw f) = .ok (Typed.ofRaw f raw)
    rw [h]
    rfl
  · rw [issuer_eq]
    exact ⟨rfl, rfl⟩
  · rw [Typed.reader_eq]
    exact ⟨rfl, rfl⟩

/-- A tenth of a second behind, on a clock that moves by 60 milliseconds at most: the id of 63 bits in its
container, as hex, and again with the bit above the layout, which no part shows and no text may have. -/
theorem typed_below_reserved_bit :
    ∃ g, Reachable 5 g ∧
      let late : ManualClock := { reading := customEpochMillis + 900, cap := some 60, reading_le := by decide }
      let call := generate ManualClock.clock .id64 3 g late
      let typed := generateTyped ManualClock.clock .id64 3 g late
      let written := generateText ManualClock.clock .id64 .hex 3 g late
      let marked : Format.id64.Id := BitVec.ofNat 64 (capacity 63 + 4198518784)
      call.outcome = .ok 4198518784 ∧ call.parks = [101, 41] ∧ typed.GoesAs call ∧ written.GoesAs call
        ∧ (∃ id : Format.id64.Id, typed.outcome = .ok id ∧ id.toNat = 4198518784)
        ∧ Encoding.hex.alphabet? = some .hex
        ∧ (∃ text, written.outcome = .ok { raw := 4198518784, text } ∧ (Text.bytes text).length = 16
          ∧ Alphabet.hex.decode .id64 text = .ok 4198518784)
        ∧ Typed.parts marked = { timestampMillis := customEpochMillis + 1001, nodeId := 5, sequence := 0 }
        ∧ Typed.parts marked = Format.id64.layout.parts (marked.toNat % capacity Format.id64.layout.usedBits)
        ∧ Alphabet.hex.decodeMillis .id64 "80000000fa405000" = .error (.overflow .id64)
        ∧ Alphabet.hex.decodeMillis .id64 "00000000FA405000" = .ok (customEpochMillis + 1001) := by
  have hg : ofNodeId 5 = .ok { nodeId := 5, nodeId_le := by decide } := rfl
  have hreach : Reachable 5 _ :=
    ⟨_, hg, _, ManualClock.clock, .steady (customEpochMillis + 1000), [.burst .number .id64 2 0], rfl⟩
  have hhex : Encoding.hex.alphabet? = some .hex := rfl
  obtain ⟨htyped, hwritten, hissued, -, hcontainer, -⟩ :=
    typed_agrees_with_number hreach ManualClock.clock .id64 3
      { reading := customEpochMillis + 900, cap := some 60, reading_le := by decide }
  obtain ⟨-, hid, htext⟩ := hissued 4198518784 rfl
  exact ⟨_, hreach, rfl, rfl, htyped, hwritten .hex, hid, hhex, htext .hex .hex hhex, rfl, (hcontainer _).2, rfl, rfl⟩

end Generator

end Snowflake
