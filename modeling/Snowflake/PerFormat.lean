import Snowflake.Format

/-!
# One value for each format

The values stand in a row, each in the slot that the format's layout names. `get` and `set` are a
lookup and an update by format: what was set is read back (`get_set_self`), and since no two formats
share a slot the others are left alone (`get_set_of_ne`).
-/

namespace Snowflake

structure PerFormat (α : Type) where
  slots : Vector α Format.all.length
deriving DecidableEq, Repr

namespace PerFormat

variable {α : Type}

/-- The same value for every format. -/
def const (a : α) : PerFormat α := { slots := Vector.replicate _ a }

def get (p : PerFormat α) (f : Format) : α := p.slots.get ⟨f.layout.slot, f.slot_lt⟩

def set (p : PerFormat α) (f : Format) (a : α) : PerFormat α := { slots := p.slots.set f.layout.slot a f.slot_lt }

/-! ## Lemmas -/

@[simp] theorem get_const (a : α) (f : Format) : (const a).get f = a := Vector.getElem_replicate f.slot_lt

@[simp] theorem get_set_self (p : PerFormat α) (f : Format) (a : α) : (p.set f a).get f = a :=
  Vector.getElem_set_self f.slot_lt

theorem get_set_of_ne (p : PerFormat α) {f g : Format} (a : α) (h : g ≠ f) :
    (p.set f a).get g = p.get g :=
  Vector.getElem_set_ne f.slot_lt g.slot_lt (Format.slot_ne h.symm)

/-- Of two values set for a format the later one stays. -/
@[simp] theorem set_set (p : PerFormat α) (f : Format) (a b : α) : (p.set f a).set f b = p.set f b := by
  unfold set
  rw [Vector.set_set]

@[simp] theorem set_const (a : α) (f : Format) : (const a).set f a = const a := by
  unfold set const
  rw [Vector.set_replicate_self]

end PerFormat

end Snowflake
