import Snowflake.Generator.Issue

/-!
# Bursts: many ids in a row

A burst asks for ids one after the other, each with the same patience, and ends with the
first call that fails; what was issued before stays issued.
-/

namespace Snowflake

/-- Calls in a row, as far as they went. -/
structure Burst (σ : Type) where
  /-- The calls, the latest first. -/
  callsBack : List (Call σ Issue) := []
  generator : Generator
  clock : σ

namespace Burst

variable {σ : Type}

/-- The burst with one more call. -/
def add (b : Burst σ) (call : Call σ Issue) : Burst σ :=
  { callsBack := call :: b.callsBack, generator := call.generator, clock := call.clock }

/-- The calls, in order. -/
def calls (b : Burst σ) : List (Call σ Issue) := b.callsBack.reverse

/-- What ended the burst early. -/
def failure (b : Burst σ) : Option Failure :=
  match b.callsBack with
  | [] => none
  | call :: _ =>
    match call.outcome with
    | .ok _ => none
    | .error failure => some failure

/-- The ids, in order. -/
def issues (b : Burst σ) : List Issue := b.calls.filterMap fun call => call.outcome.toOption

/-- The readings taken, in order. -/
def readings (b : Burst σ) : List Nat := b.calls.flatMap Call.readings

/-- The pauses asked for, in order. -/
def parks (b : Burst σ) : List Nat := b.calls.flatMap Call.parks

end Burst

namespace Generator

variable {σ : Type}

/-- The burst that goes on with so many calls, if it has not failed. -/
def continueBurst (c : Clock σ) (form : Form) (f : Format) (patience : Nat) :
    Nat → Burst σ → Burst σ
  | 0, b => b
  | n + 1, b =>
    if b.failure.isSome then b
    else continueBurst c form f patience n
      (b.add (generateAs c form f patience b.generator b.clock))

def burst (c : Clock σ) (form : Form) (f : Format) (count patience : Nat) (g : Generator) (s : σ) :
    Burst σ :=
  continueBurst c form f patience count { generator := g, clock := s }

end Generator

/-! ## Lemmas -/

namespace Burst

variable {σ : Type}

@[simp] theorem calls_add (b : Burst σ) (call : Call σ Issue) :
    (b.add call).calls = b.calls ++ [call] := by simp [calls, add]

theorem issues_add (b : Burst σ) (call : Call σ Issue) :
    (b.add call).issues = b.issues ++ call.outcome.toOption.toList := by
  cases h : call.outcome <;> simp [issues, h, Except.toOption]

end Burst

end Snowflake
