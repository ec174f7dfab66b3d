import Snowflake.Codec.Crockford
import Snowflake.Codec.Hex
import Snowflake.Parts

/-!
# Typed ids: ids in the smallest container of their format

A tiny id lives in 32 bits, an id of the widest format in 128, all others in 64. A
container may have bits above the layout; they are not part of any field.

What ids of one format are read with is a `Typed.Reader`, one row for each format, all of
them made alike (`Reader.ofFormat`) of their own format and container:

    reader f = .ofFormat f f.containerBits                            (reader_eq)
-/

namespace Snowflake

namespace Format

/-- Bits of the container that holds the format's ids. -/
def containerBits : Format → Nat
  | tiny => 32
  | mini => 64
  | id48 => 64
  | id64 => 64
  | id128 => 128

/-- An id of the format in its container. -/
abbrev Id (f : Format) : Type := BitVec f.containerBits

end Format

namespace Typed

/-- What the ids of one format say, in a container of so many bits or as a text. -/
structure Reader (bits : Nat) where
  millis : BitVec bits → Nat
  millisOfHex : String → Except DecodeError Nat
  millisOfAscii : String → Except DecodeError Nat
  parts : BitVec bits → Parts

namespace Reader

def ofFormat (f : Format) (bits : Nat) : Reader bits where
  millis id := f.layout.millis id.toNat
  millisOfHex := Alphabet.hex.decodeMillis f
  millisOfAscii := Alphabet.crockford.decodeMillis f
  parts id := f.layout.parts id.toNat

def tiny : Reader 32 := .ofFormat .tiny 32

def mini : Reader 64 := .ofFormat .mini 64

def id48 : Reader 64 := .ofFormat .id48 64

def id64 : Reader 64 := .ofFormat .id64 64

def id128 : Reader 128 := .ofFormat .id128 128

end Reader

/-- The format's row. -/
def reader : (f : Format) → Reader f.containerBits
  | .tiny => .tiny
  | .mini => .mini
  | .id48 => .id48
  | .id64 => .id64
  | .id128 => .id128

variable {f : Format}

/-- The number, cut down to the container. -/
def ofRaw (f : Format) (raw : Nat) : f.Id := BitVec.ofNat _ raw

def millis (id : f.Id) : Nat := (reader f).millis id

def parts (id : f.Id) : Parts := (reader f).parts id

/-! ## Lemmas -/

/-- Every row is the format's own. -/
theorem reader_eq (f : Format) : reader f = .ofFormat f f.containerBits := by cases f <;> rfl

theorem millis_eq (id : f.Id) : millis id = f.layout.millis id.toNat := by
  unfold millis
  rw [reader_eq]
  rfl

theorem parts_eq (id : f.Id) : parts id = f.layout.parts id.toNat := by
  unfold parts
  rw [reader_eq]
  rfl

theorem usedBits_le (f : Format) : f.layout.usedBits ≤ f.containerBits := by cases f <;> decide

/-- A number that fits the format loses nothing in the container. -/
theorem toNat_ofRaw {f : Format} {raw : Nat} (h : f.layout.Fits raw) : (ofRaw f raw).toNat = raw := by
  have hlt : raw < capacity f.containerBits := Nat.lt_of_lt_of_le h (capacity_le (usedBits_le f))
  exact Nat.mod_eq_of_lt hlt

end Typed

end Snowflake
