import Snowflake.Codec.Crockford
import Snowflake.Codec.Hex
import Snowflake.Text.Decimal

/-!
# Encodings: the three written forms of an id

An id is written raw (in decimal, without a fixed width), in hex or in base 32. The raw
form is read as digits alone: no sign, no blanks. `IdError` says why a text was refused,
with the cause of the refusal where there is one.
-/

namespace Snowflake

inductive Encoding where
  | raw
  | hex
  | ascii
deriving DecidableEq, Repr

namespace Encoding

def name : Encoding → String
  | raw => "raw"
  | hex => "hex"
  | ascii => "ascii"

/-- The encoding with exactly this name. -/
def ofName? : String → Option Encoding
  | "raw" => some raw
  | "hex" => some hex
  | "ascii" => some ascii
  | _ => none

end Encoding

/-! ## Errors -/

/-- Why digits alone are no number of 128 bits. -/
inductive NumeralFault where
  | empty
  | tooLarge
deriving DecidableEq, Repr

inductive IdError where
  /-- A character is no digit. -/
  | notDecimal (id : String)
  /-- There are only digits, but the number cannot be read. -/
  | badNumeral (id : String) (fault : NumeralFault)
  /-- The number has bits above the format's layout. -/
  | tooWide (id : String) (format : Format)
  /-- The text of fixed width is refused. -/
  | text (error : DecodeError)
deriving DecidableEq, Repr

def NumeralFault.message : NumeralFault → String
  | empty => "cannot parse integer from empty string"
  | tooLarge => "number too large to fit in target type"

def IdError.message : IdError → String
  | notDecimal id => s!"`{id}` is not a decimal id"
  | badNumeral id _ => s!"`{id}` is not a decimal id"
  | tooWide id format => s!"`{id}` is wider than a {format.name} id"
  | text error => error.message

/-- What lies behind the error, outermost first. -/
def IdError.causes : IdError → List String
  | badNumeral _ fault => [fault.message]
  | _ => []

/-! ## Writing and reading -/

namespace Encoding

/-- The id's text. The raw form is written whatever the number is. -/
def encode : Encoding → Format → Nat → Except Error String
  | raw, _, id => .ok (Text.Decimal.write id)
  | hex, f, id => Alphabet.hex.encode f id
  | ascii, f, id => Alphabet.crockford.encode f id

/-- The id in decimal digits. -/
def decodeRaw (f : Format) (text : String) : Except IdError Nat :=
  let cs := text.toList
  if cs.all Char.isDigit then
    if cs.isEmpty then .error (.badNumeral text .empty)
    else if capacity 128 ≤ Text.Decimal.value cs then .error (.badNumeral text .tooLarge)
    else if f.layout.Fits (Text.Decimal.value cs) then .ok (Text.Decimal.value cs)
    else .error (.tooWide text f)
  else .error (.notDecimal text)

/-- The id that a text stands for. -/
def decode : Encoding → Format → String → Except IdError Nat
  | raw, f, text => decodeRaw f text
  | hex, f, text => (Alphabet.hex.decode f text).mapError .text
  | ascii, f, text => (Alphabet.crockford.decode f text).mapError .text

end Encoding

end Snowflake
