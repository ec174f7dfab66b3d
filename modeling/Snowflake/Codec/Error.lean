import Snowflake.Format
import Snowflake.Text.Quoted

/-!
# Decode errors: why a text is not an id

Lengths and indexes count UTF-8 bytes. Of several faults the first below is reported:
the length, then the leftmost byte that is no symbol, then a value too large.
-/

namespace Snowflake

inductive DecodeError where
  | invalidLength (expected actual : Nat)
  | invalidCharacter (byte : UInt8) (index : Nat)
  | overflow (format : Format)
deriving DecidableEq, Repr

def DecodeError.message : DecodeError → String
  | invalidLength expected actual => s!"invalid length: expected {expected} characters, got {actual}"
  | invalidCharacter byte index => s!"invalid character {Text.quoteByte byte} at index {index}"
  | overflow format => s!"decoded value does not fit the {format.name} format"

end Snowflake
