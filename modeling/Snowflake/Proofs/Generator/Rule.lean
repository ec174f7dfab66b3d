import Snowflake.Generator.Generate
import Snowflake.Proofs.Clock.Waiting
import Snowflake.Proofs.Generator.Issuance

/-!
# The rule of one call

What a call of `generate` comes to, told without its loop.  Let the last stamp of the
format be of tick `l` with number `n`, and let the first reading lie in tick `t`:

* no last stamp, or `l < t`: the stamp is `(t, 0)`;
* `t = l` and a number is left: the stamp is `(l, n + 1)`;
* else the call waits, and the stamp is `(t', 0)`, where `t'` is the tick of the first
  reading of the wait that is past `l`; if patience ends before, so does the call.

A stamp in range is issued and remembered, any other is refused with its tick
(`Generator.settle`).  `followRule` is this rule and `generate_eq_rule` says that the loop
keeps to it, provided the last stamp is in range.
-/

namespace Snowflake

/-- What a call is to do after its first reading. -/
inductive Plan where
  | take (stamp : Stamp)
  /-- Wait until this tick has passed. -/
  | waitPast (tick : Nat)
deriving DecidableEq, Repr

/-- The plan on a tick, given the last stamp. -/
def Plan.onTick (maxSequence : Nat) (last : Option Stamp) (tick : Nat) : Plan :=
  match last with
  | none => take ⟨tick, 0⟩
  | some last =>
    if last.tick < tick then take ⟨tick, 0⟩
    else if tick = last.tick ∧ last.sequence < maxSequence then take ⟨last.tick, last.sequence + 1⟩
    else waitPast last.tick

namespace Generator

variable {σ : Type}

/-- The end of a call that has chosen its stamp: issued and remembered if in range, else refused. -/
def settle (f : Format) (g : Generator) (stamp : Stamp) : Except Failure Nat × Generator :=
  if f.layout.epochTick ≤ stamp.tick ∧ stamp.tick ≤ f.layout.epochTick + f.layout.maxTimestamp then
    (.ok (f.layout.idAt g.nodeId stamp), g.remember f stamp)
  else (.error (.refused (.clockRangeExceeded f stamp.tick)), g)

/-- A call of `generate` by the rule, with `last` for the stamp of the last id. -/
def followRule (c : Clock σ) (f : Format) (patience : Nat) (last : Option Stamp) (g : Generator) (s : σ) :
    Call σ Nat :=
  let T := f.layout.tickMillis
  let reading := (c.read s).1
  let s := (c.read s).2
  match Plan.onTick f.layout.maxSequence last (tickAt T reading) with
  | .take stamp =>
    { outcome := (settle f g stamp).1, generator := (settle f g stamp).2, readings := [reading], clock := s }
  | .waitPast tick =>
    match c.firstPast? tick T patience s with
    | some k =>
      let stamp : Stamp := ⟨tickAt T (c.waitReading tick T s k), 0⟩
      { outcome := (settle f g stamp).1, generator := (settle f g stamp).2
        readings := reading :: (List.range (k + 1)).map (c.waitReading tick T s), waits := 1
        parks := (List.range k).map (c.waitPause tick T s), clock := (c.read (c.waiting tick T k s)).2 }
    | none =>
      { outcome := .error (.interrupted (c.waitPause tick T s patience)), generator := g
        readings := reading :: (List.range (patience + 1)).map (c.waitReading tick T s), waits := 1
        parks := (List.range patience).map (c.waitPause tick T s)
        clock := (c.read (c.waiting tick T patience s)).2 }

/-- The last stamp of every format is in the format's range. -/
def Sound (g : Generator) : Prop := ∀ f, ∀ stamp ∈ g.last.get f, stamp.Fits f.layout

end Generator

/-! ## Plans and verdicts -/

namespace Plan

variable {L : Layout} {last : Option Stamp} {tick : Nat}

/-- A stamp taken at once is on the present tick, follows the last one and has a number in range. -/
theorem of_take {maxSequence : Nat} {stamp : Stamp} (h : onTick maxSequence last tick = take stamp) :
    stamp.tick = tick ∧ stamp.Follows last ∧ stamp.sequence ≤ maxSequence := by
  unfold onTick at h
  cases last with
  | none =>
    obtain rfl := Plan.take.inj h
    exact ⟨rfl, rfl, Nat.zero_le _⟩
  | some last =>
    dsimp only at h
    split at h
    · next hlt =>
      obtain rfl := Plan.take.inj h
      exact ⟨rfl, Or.inr ⟨hlt, rfl⟩, Nat.zero_le _⟩
    · split at h
      · next hsame =>
        obtain rfl := Plan.take.inj h
        exact ⟨hsame.1.symm, Or.inl ⟨rfl, rfl⟩, hsame.2⟩
      · cases h

/-- What is waited for is the tick of the last stamp, which the present one is not past. -/
theorem of_waitPast {maxSequence t : Nat} (h : onTick maxSequence last tick = waitPast t) :
    ∃ stamp, last = some stamp ∧ stamp.tick = t ∧ tick ≤ t
      ∧ (tick = t → maxSequence ≤ stamp.sequence) := by
  unfold onTick at h
  cases last with
  | none => cases h
  | some last =>
    dsimp only at h
    split at h
    · cases h
    · split at h
      · cases h
      · refine ⟨last, rfl, Plan.waitPast.inj h, ?_, ?_⟩ <;> have := Plan.waitPast.inj h <;> omega

/-- A tick is waited for if it is behind the last stamp's, or the same and full. -/
theorem onTick_eq_waitPast {maxSequence t : Nat} {stamp : Stamp} (htick : stamp.tick = t)
    (h : tick < t ∨ (tick = t ∧ maxSequence ≤ stamp.sequence)) :
    onTick maxSequence (some stamp) tick = waitPast t := by
  subst htick
  unfold onTick
  dsimp only
  rw [if_neg (by omega), if_neg (by omega)]

theorem onTick_past {maxSequence : Nat} (h : ∀ stamp ∈ last, stamp.tick < tick) :
    onTick maxSequence last tick = take ⟨tick, 0⟩ := by
  cases last with
  | none => rfl
  | some stamp => exact if_pos (h stamp rfl)

end Plan

namespace Verdict

variable {L : Layout} {last : Option Stamp} {tick : Nat}

/-- A stamp that the plan takes is the one that the sequence gives. -/
theorem next?_of_take {maxSequence : Nat} {stamp : Stamp}
    (h : Plan.onTick maxSequence last tick = .take stamp) :
    Sequence.next? last tick maxSequence = some stamp := by
  cases last with
  | none => exact congrArg some (Plan.take.inj h)
  | some last =>
    simp only [Plan.onTick] at h
    simp only [Sequence.next?]
    split at h
    · next hlt => rw [if_pos hlt, Plan.take.inj h]
    · next hlt =>
      split at h
      · next hsame =>
        rw [if_neg hlt, if_pos ⟨hsame.1.symm, hsame.2⟩, hsame.1, Plan.take.inj h]
      · cases h

/-- Where the plan takes a stamp, the verdict turns on the range alone. -/
theorem onTick_of_take {stamp : Stamp} (h : Plan.onTick L.maxSequence last tick = .take stamp) :
    onTick L last tick
      = match L.timestampOf? tick with
        | none => refuse
        | some timestamp => issue timestamp stamp := by
  have hrange : onTick L last tick = onRange L last tick := by
    cases last with
    | none => rfl
    | some last =>
      obtain ⟨ht, hfollows, -⟩ := Plan.of_take h
      apply onTick_of_le
      unfold Stamp.Follows at hfollows
      omega
  rw [hrange, onRange]
  cases L.timestampOf? tick with
  | none => rfl
  | some timestamp =>
    dsimp only
    rw [next?_of_take h]

/-- Where the plan is to wait, so is the verdict: the last stamp's tick is in range. -/
theorem onTick_of_waitPast {t : Nat} (hfits : ∀ stamp ∈ last, stamp.Fits L)
    (h : Plan.onTick L.maxSequence last tick = .waitPast t) : onTick L last tick = wait t := by
  obtain ⟨stamp, rfl, rfl, hle, hfull⟩ := Plan.of_waitPast h
  rcases Nat.lt_or_eq_of_le hle with hlt | rfl
  · exact onTick_behind L hlt
  · obtain ⟨hepoch, htick, -⟩ := hfits stamp rfl
    have hrange : L.timestampOf? stamp.tick = some (stamp.tick - L.epochTick) := by
      rw [L.timestampOf?_eq_some]
      omega
    have hnext : Sequence.next? (some stamp) stamp.tick L.maxSequence = none := by
      rw [Sequence.next?_same, if_neg (Nat.not_lt.2 (hfull rfl))]
    rw [onTick_of_le L (Nat.le_refl _), onRange, hrange]
    dsimp only
    rw [hnext]
    rfl

end Verdict

/-! ## The loop keeps to the rule -/

namespace Generator

variable {σ : Type} (c : Clock σ) (f : Format) (g : Generator)

theorem settle_eq (stamp : Stamp) :
    settle f g stamp
      = match f.layout.timestampOf? stamp.tick with
        | none => (.error (.refused (.clockRangeExceeded f stamp.tick)), g)
        | some timestamp => (.ok (f.layout.pack timestamp g.nodeId stamp.sequence), g.remember f stamp) := by
  unfold settle Layout.timestampOf?
  by_cases h : f.layout.epochTick ≤ stamp.tick
      ∧ stamp.tick ≤ f.layout.epochTick + f.layout.maxTimestamp
  · rw [if_pos h, if_pos (by omega)]
    rfl
  · rw [if_neg h, if_neg (by omega)]

/-- A round whose plan takes a stamp settles the call. -/
theorem rounds_of_take {reading : Nat} {stamp : Stamp}
    (h : Plan.onTick f.layout.maxSequence (g.last.get f) (tickAt f.layout.tickMillis reading) = .take stamp)
    (n patience : Nat) (s : σ) :
    rounds c f g (n + 1) patience reading s
      = { outcome := (settle f g stamp).1, generator := (settle f g stamp).2, readings := [reading],
          clock := s } := by
  obtain ⟨htick, -, -⟩ := Plan.of_take h
  unfold rounds
  dsimp only
  rw [Verdict.onTick_of_take h, settle_eq, htick]
  cases f.layout.timestampOf? (tickAt f.layout.tickMillis reading) <;> rfl

/-- A call whose plan takes a stamp reads the clock once and settles. -/
theorem generate_of_plan {s : σ} {stamp : Stamp}
    (h : Plan.onTick f.layout.maxSequence (g.last.get f) (tickAt f.layout.tickMillis (c.read s).1) = .take stamp)
    (patience : Nat) :
    generate c f patience g s
      = { outcome := (settle f g stamp).1, generator := (settle f g stamp).2, readings := [(c.read s).1],
          clock := (c.read s).2 } := rounds_of_take c f g h _ _ _

/-- A round whose plan is to wait is interrupted if no reading is past the tick in time. -/
theorem rounds_of_none_past {reading tick patience : Nat} {s : σ}
    (hfits : ∀ stamp ∈ g.last.get f, stamp.Fits f.layout)
    (h : Plan.onTick f.layout.maxSequence (g.last.get f) (tickAt f.layout.tickMillis reading)
      = .waitPast tick)
    (hnone : ∀ i ≤ patience, ¬ c.IsPast tick f.layout.tickMillis s i) (n : Nat) :
    rounds c f g (n + 1) patience reading s
      = { outcome := .error (.interrupted (c.waitPause tick f.layout.tickMillis s patience)), generator := g
          readings := reading :: (List.range (patience + 1)).map (c.waitReading tick f.layout.tickMillis s)
          waits := 1
          parks := (List.range patience).map (c.waitPause tick f.layout.tickMillis s)
          clock := (c.read (c.waiting tick f.layout.tickMillis patience s)).2 } := by
  have hstop := c.waitPast_of_stop tick f.layout.tickMillis (Nat.le_refl patience)
    (fun i hi => hnone i (Nat.le_of_lt hi)) (Or.inr rfl)
  have hend := c.waitUpTo_of_not_past tick f.layout.tickMillis (hnone patience (Nat.le_refl _))
  unfold rounds
  dsimp only
  rw [Verdict.onTick_of_waitPast hfits h]
  dsimp only
  rw [hstop, hend]
  dsimp only [Wait.readings]
  rw [List.range_succ, List.map_append]
  rfl

/-- A round whose plan is to wait settles on the tick of the first reading past it. -/
theorem rounds_of_first_past {reading tick patience k : Nat} {s : σ}
    (hfits : ∀ stamp ∈ g.last.get f, stamp.Fits f.layout)
    (h : Plan.onTick f.layout.maxSequence (g.last.get f) (tickAt f.layout.tickMillis reading)
      = .waitPast tick)
    (hfirst : c.firstPast? tick f.layout.tickMillis patience s = some k) (n : Nat) :
    rounds c f g (n + 2) patience reading s
      = let stamp : Stamp := ⟨tickAt f.layout.tickMillis (c.waitReading tick f.layout.tickMillis s k), 0⟩
        { outcome := (settle f g stamp).1, generator := (settle f g stamp).2
          readings := reading :: (List.range (k + 1)).map (c.waitReading tick f.layout.tickMillis s)
          waits := 1
          parks := (List.range k).map (c.waitPause tick f.layout.tickMillis s)
          clock := (c.read (c.waiting tick f.layout.tickMillis k s)).2 } := by
  obtain ⟨hk, hpast, hbefore⟩ := (c.firstPast?_eq_some ..).1 hfirst
  have hstop := c.waitPast_of_stop tick f.layout.tickMillis hk hbefore (Or.inl hpast)
  have hend := c.waitUpTo_of_past tick f.layout.tickMillis hpast
  have hfresh : Plan.onTick f.layout.maxSequence (g.last.get f)
      (tickAt f.layout.tickMillis (c.waitReading tick f.layout.tickMillis s k))
        = .take ⟨tickAt f.layout.tickMillis (c.waitReading tick f.layout.tickMillis s k), 0⟩ := by
    apply Plan.onTick_past
    intro stamp hstamp
    obtain ⟨last, hlast, rfl, -, -⟩ := Plan.of_waitPast h
    rw [hlast] at hstamp
    cases hstamp
    exact hpast
  conv => lhs; unfold rounds
  dsimp only
  rw [Verdict.onTick_of_waitPast hfits h]
  dsimp only
  rw [hstop, hend]
  dsimp only
  rw [rounds_of_take c f g hfresh]
  unfold Call.afterWait
  dsimp only
  rw [List.range_succ, List.map_append, List.append_nil]
  rfl

/-- **Refinement.**  A call keeps to the rule, if the last stamp is in range. -/
theorem generate_eq_rule (hfits : ∀ stamp ∈ g.last.get f, stamp.Fits f.layout) (patience : Nat) (s : σ) :
    generate c f patience g s = followRule c f patience (g.last.get f) g s := by
  unfold generate followRule
  dsimp only
  cases hplan : Plan.onTick f.layout.maxSequence (g.last.get f)
      (tickAt f.layout.tickMillis (c.read s).1) with
  | take stamp => exact rounds_of_take c f g hplan _ _ _
  | waitPast tick =>
    dsimp only
    cases hfirst : c.firstPast? tick f.layout.tickMillis patience (c.read s).2 with
    | none => exact rounds_of_none_past c f g hfits hplan ((c.firstPast?_eq_none ..).1 hfirst) _
    | some k => exact rounds_of_first_past c f g hfits hplan hfirst _

/-! ## What a call can come to -/

/-- A stamp with a number in range is issued and remembered, or refused without a trace. -/
theorem settle_cases (stamp : Stamp) (hseq : stamp.sequence ≤ f.layout.maxSequence) :
    (stamp.Fits f.layout ∧ settle f g stamp = (.ok (f.layout.idAt g.nodeId stamp), g.remember f stamp))
      ∨ settle f g stamp = (.error (.refused (.clockRangeExceeded f stamp.tick)), g) := by
  unfold settle
  by_cases h : f.layout.epochTick ≤ stamp.tick
      ∧ stamp.tick ≤ f.layout.epochTick + f.layout.maxTimestamp
  · rw [if_pos h]
    exact Or.inl ⟨⟨h.1, h.2, hseq⟩, rfl⟩
  · rw [if_neg h]
    exact Or.inr rfl

/-- A call issues the id of a stamp that follows the last one and lies on the tick of the
call's last reading, or it fails and leaves the generator as it was. -/
theorem generate_cases (hfits : ∀ stamp ∈ g.last.get f, stamp.Fits f.layout) (patience : Nat) (s : σ) :
    (∃ stamp reading, stamp.Fits f.layout ∧ stamp.Follows (g.last.get f)
        ∧ (generate c f patience g s).readings.getLast? = some reading
        ∧ stamp.tick = tickAt f.layout.tickMillis reading
        ∧ (generate c f patience g s).outcome = .ok (f.layout.idAt g.nodeId stamp)
        ∧ (generate c f patience g s).generator = g.remember f stamp)
      ∨ ∃ failure, (generate c f patience g s).outcome = .error failure
        ∧ (generate c f patience g s).generator = g := by
  rw [generate_eq_rule c f g hfits]
  unfold followRule
  dsimp only
  cases hplan : Plan.onTick f.layout.maxSequence (g.last.get f)
      (tickAt f.layout.tickMillis (c.read s).1) with
  | take stamp =>
    obtain ⟨htick, hfollows, hseq⟩ := Plan.of_take hplan
    rcases settle_cases f g stamp hseq with ⟨hstamp, heq⟩ | heq
    · exact Or.inl ⟨stamp, _, hstamp, hfollows, rfl, htick, congrArg Prod.fst heq, congrArg Prod.snd heq⟩
    · exact Or.inr ⟨_, congrArg Prod.fst heq, congrArg Prod.snd heq⟩
  | waitPast tick =>
    dsimp only
    cases hfirst : c.firstPast? tick f.layout.tickMillis patience (c.read s).2 with
    | none => exact Or.inr ⟨_, rfl, rfl⟩
    | some k =>
      dsimp only
      obtain ⟨last, hlast, rfl, -, -⟩ := Plan.of_waitPast hplan
      obtain ⟨-, hpast, -⟩ := (c.firstPast?_eq_some ..).1 hfirst
      rcases settle_cases f g ⟨_, 0⟩ (Nat.zero_le _) with ⟨hstamp, heq⟩ | heq
      · refine Or.inl ⟨_, _, hstamp, ?_, ?_, rfl, congrArg Prod.fst heq, congrArg Prod.snd heq⟩
        · rw [hlast]
          exact Or.inr ⟨hpast, rfl⟩
        · rw [List.range_succ, List.map_append, ← List.cons_append]
          exact List.getLast?_concat ..
      · exact Or.inr ⟨_, congrArg Prod.fst heq, congrArg Prod.snd heq⟩

end Generator

end Snowflake
