/-!
# Quoted bytes: a byte shown as a character between apostrophes

The byte stands for the character of the same number. Characters that would not show
are written with an escape: a short one where there is one, else the number in hex.
-/

namespace Snowflake.Text

/-- The characters with a short escape, and its letter. -/
def escapeLetter? : Char → Option Char
  | '\x00' => some '0'
  | '\t' => some 't'
  | '\n' => some 'n'
  | '\r' => some 'r'
  | '\'' => some '\''
  | '\\' => some '\\'
  | _ => none

/-- Below 256, all but controls, the no-break space and the soft hyphen show. -/
def shows (n : Nat) : Bool := (0x20 ≤ n && n < 0x7F) || (0xA0 < n && n != 0xAD)

/-- The character inside the apostrophes, escaped where it has to be. -/
def escaped (c : Char) : List Char :=
  match escapeLetter? c with
  | some letter => ['\\', letter]
  | none =>
    if shows c.toNat then [c]
    else ['\\', 'u', '\x7b'] ++ Nat.toDigits 16 c.toNat ++ ['\x7d']

def quoteByte (b : UInt8) : String :=
  String.ofList (['\''] ++ escaped (Char.ofNat b.toNat) ++ ['\''])

end Snowflake.Text
