import Snowflake.Codec.Error
import Snowflake.Error
import Snowflake.Parts
import Snowflake.Text.Bytes

/-!
# Alphabets: ids as text of fixed width

An alphabet gives each digit of a power of two a symbol, and says which bytes stand for
a digit; several may stand for one. `encode` writes an id with as many symbols as its
format's container needs, most significant first, and `decode` reads such a text. The
number read so far has 128 bits to stand in. How it takes one more digit is for the
alphabet to say (`push`), within two bounds: a digit for which there is room is added, and
if digits do not fill the 128 bits evenly, one that would push out set bits is refused.
-/

namespace Snowflake

structure Alphabet where
  bitsPerDigit : Nat
  /-- The symbol of a digit. -/
  symbol : Nat → Char
  /-- The digit that a byte stands for. -/
  value? : UInt8 → Option Nat
  /-- The number with one more digit, unless the digit is refused. -/
  push : (number digit : Nat) → Option Nat
  bitsPerDigit_pos : 0 < bitsPerDigit
  value?_lt : ∀ b d, value? b = some d → d < capacity bitsPerDigit
  symbol_ascii : ∀ d, d < capacity bitsPerDigit → (symbol d).toNat < 128
  value?_symbol : ∀ d, d < capacity bitsPerDigit → value? (Text.asciiByte (symbol d)) = some d
  push_of_lt : ∀ number digit, number < capacity (128 - bitsPerDigit) →
    push number digit = some (number * capacity bitsPerDigit + digit)
  push_of_le : 128 % bitsPerDigit ≠ 0 → ∀ number digit, capacity (128 - bitsPerDigit) ≤ number →
    push number digit = none

namespace Alphabet

variable (A : Alphabet)

/-- How many digits there are. -/
def base : Nat := capacity A.bitsPerDigit

/-- Symbols in a text of the format. -/
def width (f : Format) : Nat := f.layout.width A.bitsPerDigit

/-! ## Writing -/

/-- The low digits of a number, `width` of them with so many bits each, most significant first. -/
def digits (bits : Nat) : (width : Nat) → Nat → List Nat
  | 0, _ => []
  | width + 1, n => n / capacity (bits * width) % capacity bits :: digits bits width n

/-- The text of an id that fits its format. -/
def write (f : Format) (raw : Nat) : String :=
  String.ofList ((digits A.bitsPerDigit (A.width f) raw).map A.symbol)

/-- The text of an id; a number too wide for the format has none. -/
def encode (f : Format) (raw : Nat) : Except Error String :=
  if f.layout.Fits raw then .ok (A.write f raw) else .error (.tooWide f)

/-! ## Reading -/

/-- Reads on from a byte's index and the number read before it. -/
def readFrom (f : Format) : (index number : Nat) → List UInt8 → Except DecodeError Nat
  | _, number, [] => .ok number
  | index, number, b :: rest =>
    match A.value? b with
    | none => .error (.invalidCharacter b index)
    | some d =>
      match A.push number d with
      | some next => readFrom f (index + 1) next rest
      | none => .error (.overflow f)

/-- The id that a text stands for. -/
def decode (f : Format) (text : String) : Except DecodeError Nat :=
  let bytes := Text.bytes text
  if bytes.length = A.width f then
    match A.readFrom f 0 0 bytes with
    | .ok number => if f.layout.Fits number then .ok number else .error (.overflow f)
    | .error e => .error e
  else .error (.invalidLength (A.width f) bytes.length)

/-- When the tick of the id in a text began, in milliseconds since 1970. -/
def decodeMillis (f : Format) (text : String) : Except DecodeError Nat :=
  (A.decode f text).map f.layout.millis

/-! ## Lemmas -/

theorem length_digits (bits width n : Nat) : (digits bits width n).length = width := by
  induction width with
  | zero => rfl
  | succ width ih => simp [digits, ih]

theorem digits_lt (bits width n : Nat) : ∀ d ∈ digits bits width n, d < capacity bits := by
  induction width with
  | zero => simp [digits]
  | succ width ih =>
    intro d hd
    rcases List.mem_cons.1 hd with rfl | hd
    · exact Nat.mod_lt _ (capacity_pos bits)
    · exact ih d hd

/-- The bytes of a written id are its symbols' bytes. -/
theorem bytes_write (f : Format) (raw : Nat) :
    Text.bytes (A.write f raw)
      = (digits A.bitsPerDigit (A.width f) raw).map fun d => Text.asciiByte (A.symbol d) := by
  unfold write
  rw [Text.bytes_ofList, List.map_map]
  · rfl
  · intro c hc
    obtain ⟨d, hd, rfl⟩ := List.mem_map.1 hc
    exact A.symbol_ascii d (digits_lt _ _ _ d hd)

end Alphabet

end Snowflake
