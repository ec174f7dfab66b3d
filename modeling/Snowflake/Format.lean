import Snowflake.Layout
import Snowflake.Text.Blank

/-!
# Formats: the five layouts on offer, and their names

The formats run from narrow to wide. All but the widest count from the start of 2025;
the widest counts milliseconds from 1970 and fills its 128 bits. Its node field is the
widest of the five and bounds every node id (`maxNodeId`).
-/

namespace Snowflake

/-- The first millisecond of 2025. -/
def customEpochMillis : Nat := 1735689600000

inductive Format where
  | tiny
  | mini
  | id48
  | id64
  | id128
deriving DecidableEq, Repr

namespace Format

def layout : Format → Layout
  | tiny =>
    { name := "tiny", slot := 0, totalBits := 32, timestampBits := 26, nodeBits := 2, sequenceBits := 4,
      epochMillis := customEpochMillis, tickMillis := 10000 }
  | mini =>
    { name := "mini", slot := 1, totalBits := 40, timestampBits := 29, nodeBits := 3, sequenceBits := 8,
      epochMillis := customEpochMillis, tickMillis := 1000 }
  | id48 =>
    { name := "id48", slot := 2, totalBits := 48, timestampBits := 32, nodeBits := 5, sequenceBits := 11,
      epochMillis := customEpochMillis, tickMillis := 1000 }
  | id64 =>
    { name := "id64", slot := 3, totalBits := 64, timestampBits := 41, nodeBits := 10, sequenceBits := 12,
      epochMillis := customEpochMillis, tickMillis := 1 }
  | id128 =>
    { name := "id128", slot := 4, totalBits := 128, timestampBits := 64, nodeBits := 48, sequenceBits := 16,
      epochMillis := 0, tickMillis := 1 }

/-- The formats, narrowest first. -/
def all : List Format := [tiny, mini, id48, id64, id128]

def name (f : Format) : String := f.layout.name

/-! ## Names -/

/-- The format of a short name in lower case. -/
def ofShortName? : List Char → Option Format
  | ['t', 'i', 'n', 'y'] => some tiny
  | ['m', 'i', 'n', 'i'] => some mini
  | ['4', '8'] => some id48
  | ['6', '4'] => some id64
  | ['1', '2', '8'] => some id128
  | _ => none

/-- A name without the `id` in front of it, if it has one. -/
def dropId : List Char → List Char
  | 'i' :: 'd' :: rest => rest
  | cs => cs

/-- The format of a name in any case, with or without `id` in front and blanks around it. -/
def ofName? (name : String) : Option Format :=
  ofShortName? (dropId ((Text.trim name.toList).map Char.toLower))

end Format

/-- The greatest node id: what the widest node field holds. -/
def maxNodeId : Nat := Format.id128.layout.maxNodeField

/-! ## Lemmas -/

theorem Format.mem_all (f : Format) : f ∈ Format.all := by cases f <;> decide

/-- The slots are numbered from 0 on, without a gap and none of them twice. -/
theorem Format.map_slot_all : Format.all.map (fun f => f.layout.slot) = List.range Format.all.length := rfl

theorem Format.slot_lt (f : Format) : f.layout.slot < Format.all.length := by
  have hmem : f.layout.slot ∈ Format.all.map fun f => f.layout.slot := List.mem_map.2 ⟨f, f.mem_all, rfl⟩
  rw [Format.map_slot_all] at hmem
  exact List.mem_range.1 hmem

/-- No two formats share a slot. -/
theorem Format.slot_ne {f g : Format} (h : f ≠ g) : f.layout.slot ≠ g.layout.slot := by
  revert h
  cases f <;> cases g <;> decide

end Snowflake
