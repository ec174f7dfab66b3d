import Snowflake.Encoding
import Snowflake.Generator.Generate
import Snowflake.Typed

/-!
# Issued ids in their written forms

An id is asked for as a number, in its container or as a text. All three are the same
call, `generate`, with its id written down; they fail when it fails and leave the same
memory behind.

The calls for ids of one format in their container and in the two texts of fixed width are
an `Issuer`, one row for each format, all of them made alike of their own format and
container:

    issuer c f = .ofFormat c f f.containerBits                        (issuer_eq)
-/

namespace Snowflake

/-- What an id is asked for as. -/
inductive Form where
  /-- The number, in decimal. -/
  | number
  /-- The number in its container, in decimal. -/
  | typed
  | text (encoding : Encoding)
deriving DecidableEq, Repr

/-- An id as it was issued: the number, and what it was written as. -/
structure Issue where
  raw : Nat
  text : String
deriving DecidableEq, Repr

namespace Generator

variable {σ : Type} (c : Clock σ)

/-- The next id as a text. -/
def generateText (f : Format) (encoding : Encoding) (patience : Nat) (g : Generator) (s : σ) :
    Call σ Issue :=
  (generate c f patience g s).andThen fun raw => (encoding.encode f raw).map fun text => { raw, text }

/-- The calls for ids of one format, in a container of so many bits and as texts. -/
structure Issuer (σ : Type) (bits : Nat) where
  next : (patience : Nat) → Generator → σ → Call σ (BitVec bits)
  nextHex : (patience : Nat) → Generator → σ → Call σ Issue
  nextAscii : (patience : Nat) → Generator → σ → Call σ Issue

namespace Issuer

def ofFormat (f : Format) (bits : Nat) : Issuer σ bits where
  next patience g s := (generate c f patience g s).map (BitVec.ofNat bits)
  nextHex := generateText c f .hex
  nextAscii := generateText c f .ascii

def tiny : Issuer σ 32 := .ofFormat c .tiny 32

def mini : Issuer σ 64 := .ofFormat c .mini 64

def id48 : Issuer σ 64 := .ofFormat c .id48 64

def id64 : Issuer σ 64 := .ofFormat c .id64 64

def id128 : Issuer σ 128 := .ofFormat c .id128 128

end Issuer

/-- The format's row. -/
def issuer : (f : Format) → Issuer σ f.containerBits
  | .tiny => .tiny c
  | .mini => .mini c
  | .id48 => .id48 c
  | .id64 => .id64 c
  | .id128 => .id128 c

/-- The next id in the container of its format. -/
def generateTyped (f : Format) (patience : Nat) (g : Generator) (s : σ) : Call σ f.Id :=
  (issuer c f).next patience g s

def generateAs (form : Form) (f : Format) (patience : Nat) (g : Generator) (s : σ) : Call σ Issue :=
  match form with
  | .number => (generate c f patience g s).map fun raw => { raw, text := Text.Decimal.write raw }
  | .typed =>
    (generateTyped c f patience g s).map fun id =>
      { raw := id.toNat, text := Text.Decimal.write id.toNat }
  | .text .raw => generateText c f .raw patience g s
  | .text .hex => (issuer c f).nextHex patience g s
  | .text .ascii => (issuer c f).nextAscii patience g s

/-! ## Lemmas -/

/-- Every row is the format's own. -/
theorem issuer_eq (f : Format) : issuer c f = .ofFormat c f f.containerBits := by cases f <;> rfl

theorem generateTyped_eq (f : Format) (patience : Nat) (g : Generator) (s : σ) :
    generateTyped c f patience g s = (generate c f patience g s).map (Typed.ofRaw f) := by
  unfold generateTyped
  rw [issuer_eq]
  rfl

theorem generateAs_text (encoding : Encoding) (f : Format) (patience : Nat) (g : Generator) (s : σ) :
    generateAs c (.text encoding) f patience g s = generateText c f encoding patience g s := by
  cases encoding with
  | raw => rfl
  | hex | ascii =>
    unfold generateAs
    dsimp only
    rw [issuer_eq]
    rfl

end Generator

end Snowflake
