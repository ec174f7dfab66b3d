import Snowflake.CommandLine.Inspect
import Snowflake.Proofs.Calendar.Instant
import Snowflake.Proofs.Layout.Parts

/-!
# Taking ids apart: a report is exact and loses nothing

The ids before the first one that is refused (`accepted`) get one line each, and whatever
texts were given, the report is cut back into these lines and each line into its five fields:

    Text.pieces '\n' report.text = report.lines ++ [""]                  (pieces_text)
    Text.pieces '\t' (line calendar id parts) = fields calendar id parts  (pieces_line)

So a field never runs into its neighbour: an id that is read is plain, and so is what a
reliable calendar says of an instant.  The time, the node field and the sequence of a line give
the id back (`recover?_line`).
-/

namespace Snowflake

/-- But for the widest format, no time of an id needs a year of five digits. -/
theorem Format.millis_le_endOf9999 {f : Format} (h : f ≠ id128) (raw : Nat) :
    f.layout.millis raw ≤ Instant.endOf9999 := by
  have hlast : (f.layout.epochTick + f.layout.maxTimestamp) * f.layout.tickMillis ≤ Instant.endOf9999 := by
    cases f with
    | id128 => exact absurd rfl h
    | tiny | mini | id48 | id64 => decide
  have hle := f.layout.timestamp_le raw
  rw [f.millis_eq]
  exact Nat.le_trans (Nat.mul_le_mul_right _ (by omega)) hlast

/-- The parts of an id that fits give it back. -/
theorem Format.pack_parts (f : Format) {raw : Nat} (h : f.layout.Fits raw) :
    f.layout.pack ((f.layout.parts raw).timestampMillis / f.layout.tickMillis - f.layout.epochTick)
      (f.layout.parts raw).nodeId (f.layout.parts raw).sequence = raw := by
  rw [show (f.layout.parts raw).timestampMillis / f.layout.tickMillis - f.layout.epochTick = f.layout.timestamp raw
    from f.timestamp_of_millis raw]
  exact (f.layout.pack_fields raw).trans (Nat.mod_eq_of_lt h)

namespace CommandLine

/-- A report of lines that do not break is cut at the ends of its lines. -/
theorem Report.pieces_text {ε : Type} {report : Report ε} (h : ∀ line ∈ report.lines, '\n' ∉ line.toList) :
    Text.pieces '\n' report.text = report.lines ++ [""] := Text.pieces_join h

namespace InspectJob

/-! ## One line -/

/-- The id that a line's time, node field and sequence stand for. -/
def recover? (f : Format) (line : String) : Option Nat :=
  match Text.pieces '\t' line with
  | [_, millis, _, node, sequence] =>
    let timestamp := Text.Decimal.value millis.toList / f.layout.tickMillis - f.layout.epochTick
    some (f.layout.pack timestamp (Text.Decimal.value (node.toList.drop "node=".length))
      (Text.Decimal.value (sequence.toList.drop "sequence=".length)))
  | _ => none

/-- What is written for an instant is its text, or it is out of range and has none. -/
theorem instantText_cases (calendar : Calendar) (millis : Nat) :
    (∃ text, calendar millis = some text ∧ millis < capacity 63 ∧ instantText calendar millis = text)
      ∨ (capacity 63 ≤ millis ∨ calendar millis = none) ∧ instantText calendar millis = "out-of-range" := by
  unfold instantText
  split
  · next hlt =>
    cases calendar millis with
    | none => exact Or.inr ⟨Or.inr rfl, rfl⟩
    | some text => exact Or.inl ⟨text, rfl, hlt, rfl⟩
  · next hge => exact Or.inr ⟨Or.inl (Nat.not_lt.1 hge), rfl⟩

section OneLine

variable {calendar : Calendar} (hcalendar : calendar.Reliable)

include hcalendar

theorem instantText_eq_outOfRange_iff {millis : Nat} :
    instantText calendar millis = "out-of-range" ↔ capacity 63 ≤ millis ∨ calendar millis = none := by
  rcases instantText_cases calendar millis with ⟨text, htext, hlt, heq⟩ | ⟨hnone, hout⟩
  · rw [heq]
    exact iff_of_false (hcalendar.tells _ _ htext).ne_outOfRange (by simp [htext, hlt])
  · exact iff_of_true hout hnone

/-- Where there is a text it tells the instant. -/
theorem instantText_tells {millis : Nat} (h : instantText calendar millis ≠ "out-of-range") :
    Instant.Tells (instantText calendar millis) millis := by
  rcases instantText_cases calendar millis with ⟨text, htext, -, heq⟩ | ⟨-, hout⟩
  · rw [heq]
    exact hcalendar.tells _ _ htext
  · exact absurd hout h

/-- Up to the end of the year 9999 there is a text. -/
theorem instantText_ne {millis : Nat} (h : millis ≤ Instant.endOf9999) :
    instantText calendar millis ≠ "out-of-range" := by
  rw [ne_eq, instantText_eq_outOfRange_iff hcalendar]
  obtain ⟨text, htext⟩ := hcalendar.exists_text millis h
  have hlt : millis < capacity 63 := Nat.lt_of_le_of_lt h (by decide)
  simp [htext, hlt]

theorem plain_instantText (millis : Nat) : Text.Plain (instantText calendar millis) := by
  by_cases h : instantText calendar millis = "out-of-range"
  · rw [h]
    decide
  · exact (instantText_tells hcalendar h).plain

theorem plain_fields {id : String} (hid : Text.Plain id) (parts : Parts) :
    ∀ s ∈ fields calendar id parts, Text.Plain s := by
  have hnode : Text.Plain "node=" := by decide
  have hsequence : Text.Plain "sequence=" := by decide
  unfold fields
  simp only [List.forall_mem_cons, toString, Text.plain_append]
  exact ⟨hid, Text.plain_write _, plain_instantText hcalendar _, ⟨hnode, Text.plain_write _⟩,
    ⟨hsequence, Text.plain_write _⟩, fun _ hs => (nomatch hs)⟩

theorem pieces_line {id : String} (hid : Text.Plain id) (parts : Parts) :
    Text.pieces '\t' (line calendar id parts) = fields calendar id parts :=
  Text.pieces_intercalate (fun s hs => (plain_fields hcalendar hid parts s hs).1) (List.cons_ne_nil _ _)

theorem newline_not_mem_line {id : String} (hid : Text.Plain id) (parts : Parts) :
    '\n' ∉ (line calendar id parts).toList :=
  Text.not_mem_intercalate (by decide) fun s hs => (plain_fields hcalendar hid parts s hs).2

theorem recover?_line {f : Format} {id : String} (hid : Text.Plain id) {raw : Nat} (h : f.layout.Fits raw) :
    recover? f (line calendar id (f.layout.parts raw)) = some raw := by
  have hdrop : ∀ (label : String) (n : Nat),
      (label ++ Text.Decimal.write n).toList.drop label.length = (Text.Decimal.write n).toList := by
    intro label n
    rw [String.toList_append, ← String.length_toList, List.drop_left]
  unfold recover?
  rw [pieces_line hcalendar hid]
  unfold fields
  simp only [toString, hdrop, Text.Decimal.value_write]
  exact congrArg some (f.pack_parts h)

/-- The line is the report on an id that was read as `raw`. -/
structure ReportsOn (calendar : Calendar) (f : Format) (e : Encoding) (id line : String) (raw : Nat) : Prop where
  decode_eq : e.decode f id = .ok raw
  newline_not_mem : '\n' ∉ line.toList
  pieces_eq : Text.pieces '\t' line
    = [id, Text.Decimal.write (f.layout.millis raw), instantText calendar (f.layout.millis raw),
      "node=" ++ Text.Decimal.write (f.layout.nodeField raw),
      "sequence=" ++ Text.Decimal.write (f.layout.sequence raw)]
  tells : instantText calendar (f.layout.millis raw) ≠ "out-of-range" →
    Instant.Tells (instantText calendar (f.layout.millis raw)) (f.layout.millis raw)
  outOfRange_iff : instantText calendar (f.layout.millis raw) = "out-of-range"
    ↔ capacity 63 ≤ f.layout.millis raw ∨ calendar (f.layout.millis raw) = none
  inRange : f ≠ .id128 → f.layout.millis raw ≤ Instant.endOf9999
    ∧ instantText calendar (f.layout.millis raw) ≠ "out-of-range"
  pack_eq : f.layout.pack (f.layout.millis raw / f.layout.tickMillis - f.layout.epochTick) (f.layout.nodeField raw)
    (f.layout.sequence raw) = raw
  recover?_eq : recover? f line = some raw

theorem reportsOn_line {f : Format} {e : Encoding} {id : String} {raw : Nat} (h : e.decode f id = .ok raw) :
    ReportsOn calendar f e id (line calendar id (f.layout.parts raw)) raw where
  decode_eq := h
  newline_not_mem := newline_not_mem_line hcalendar (Encoding.plain_of_decode h) _
  pieces_eq := pieces_line hcalendar (Encoding.plain_of_decode h) _
  tells := instantText_tells hcalendar
  outOfRange_iff := instantText_eq_outOfRange_iff hcalendar
  inRange := fun hf =>
    ⟨Format.millis_le_endOf9999 hf raw, instantText_ne hcalendar (Format.millis_le_endOf9999 hf raw)⟩
  pack_eq := f.pack_parts (Encoding.fits_of_decode h)
  recover?_eq := recover?_line hcalendar (Encoding.plain_of_decode h) (Encoding.fits_of_decode h)

end OneLine

/-- The Gregorian calendar has texts up to its last instant. -/
theorem instantText_gregorian_eq_iff {millis : Nat} :
    instantText .gregorian millis = "out-of-range" ↔ Instant.lastMillis < millis := by
  have hlast : Instant.lastMillis < capacity 63 := by decide
  rw [instantText_eq_outOfRange_iff Calendar.gregorian_reliable]
  unfold Calendar.gregorian
  split
  · next hle => exact iff_of_false (by simpa using Nat.lt_of_le_of_lt hle hlast) (Nat.not_lt.2 hle)
  · next hlt => exact iff_of_true (Or.inr rfl) (Nat.not_le.1 hlt)

/-! ## The report -/

variable {calendar : Calendar}

/-- The ids before the first one that is refused. -/
def accepted (f : Format) (e : Encoding) (ids : List String) : List String :=
  ids.takeWhile fun id => (e.decode f id).toOption.isSome

theorem accepted_cons_of_ok {f : Format} {e : Encoding} {id : String} {raw : Nat} (h : e.decode f id = .ok raw)
    (ids : List String) : accepted f e (id :: ids) = id :: accepted f e ids := by
  unfold accepted
  rw [List.takeWhile_cons_of_pos]
  rw [h]
  rfl

theorem accepted_cons_of_error {f : Format} {e : Encoding} {id : String} {cause : IdError}
    (h : e.decode f id = .error cause) (ids : List String) : accepted f e (id :: ids) = [] := by
  unfold accepted
  rw [List.takeWhile_cons_of_neg]
  rw [h]
  exact Bool.false_ne_true

theorem exists_decode_of_mem_accepted {f : Format} {e : Encoding} {ids : List String} {id : String}
    (h : id ∈ accepted f e ids) : ∃ raw, e.decode f id = .ok raw := by
  have hsome := List.all_eq_true.1 List.all_takeWhile id h
  cases hread : e.decode f id with
  | ok raw => exact ⟨raw, rfl⟩
  | error cause =>
    rw [hread] at hsome
    cases hsome

/-- Each id that is accepted has its line, in order. -/
theorem lines_reportOn (hcalendar : calendar.Reliable) (f : Format) (e : Encoding) (ids : List String) :
    List.Forall₂ (fun id line => ∃ raw, ReportsOn calendar f e id line raw) (accepted f e ids)
      (reportOn calendar f e ids).lines := by
  induction ids with
  | nil => exact .nil
  | cons id ids ih =>
    unfold reportOn
    cases h : e.decode f id with
    | ok raw =>
      rw [accepted_cons_of_ok h]
      exact .cons ⟨raw, reportsOn_line hcalendar h⟩ ih
    | error cause =>
      rw [accepted_cons_of_error h]
      exact .nil

theorem newline_not_mem_lines {f : Format} {e : Encoding} {ids lines : List String}
    (h : List.Forall₂ (fun id line => ∃ raw, ReportsOn calendar f e id line raw) ids lines) :
    ∀ line ∈ lines, '\n' ∉ line.toList := by
  induction h with
  | nil => exact fun line hline => nomatch hline
  | cons hfirst _ ih =>
    obtain ⟨raw, hfirst⟩ := hfirst
    exact List.forall_mem_cons.2 ⟨hfirst.newline_not_mem, ih⟩

/-- A report ends with the ids, or with the first one that is refused. -/
theorem failure_reportOn (calendar : Calendar) (f : Format) (e : Encoding) (ids : List String) :
    (accepted f e ids = ids ∧ (reportOn calendar f e ids).failure = none)
      ∨ ∃ id cause rest, ids = accepted f e ids ++ id :: rest ∧ e.decode f id = .error cause
        ∧ (reportOn calendar f e ids).failure = some { id, format := f, cause } := by
  induction ids with
  | nil => exact Or.inl ⟨rfl, rfl⟩
  | cons id ids ih =>
    unfold reportOn
    cases h : e.decode f id with
    | ok raw =>
      rw [accepted_cons_of_ok h]
      rcases ih with ⟨hall, hnone⟩ | ⟨refused, cause, rest, hids, hcause, hsome⟩
      · exact Or.inl ⟨congrArg (id :: ·) hall, hnone⟩
      · exact Or.inr ⟨refused, cause, rest, congrArg (id :: ·) hids, hcause, hsome⟩
    | error cause =>
      rw [accepted_cons_of_error h]
      exact Or.inr ⟨id, cause, ids, rfl, h, rfl⟩

/-- **Inspection.**  Whatever texts are given as ids and whatever reliable calendar is asked, the printed text
is cut into ended lines, one for each id before the first that is refused, and each line into its five fields:
the id as it was given, its time as a number and as an instant, its node field and its sequence, from which the
id is recovered.  The time is out of range only in the widest format.  The report fails if and only if some id is
refused, and names the first such id with the reason. -/
theorem inspection_is_exact (hcalendar : calendar.Reliable) (job : InspectJob) :
    let f := job.format
    let e := job.encoding
    let report := job.reportBy calendar
    Text.pieces '\n' report.text = report.lines ++ [""]
      ∧ List.Forall₂ (fun id line => ∃ raw, ReportsOn calendar f e id line raw) (accepted f e job.ids) report.lines
      ∧ (report.failure = none ↔ ∀ id ∈ job.ids, ∃ raw, e.decode f id = .ok raw)
      ∧ ∀ error, report.failure = some error →
        (∃ rest, job.ids = accepted f e job.ids ++ error.id :: rest) ∧ e.decode f error.id = .error error.cause
        ∧ error.message = "cannot decode `" ++ error.id ++ "` as a " ++ f.name ++ " id"
        ∧ error.causes = error.cause.message :: error.cause.causes := by
  intro f e report
  have hlines := lines_reportOn hcalendar f e job.ids
  refine ⟨Report.pieces_text (newline_not_mem_lines hlines), hlines, ?_, ?_⟩
  · rcases failure_reportOn calendar f e job.ids with ⟨hall, hnone⟩ | ⟨id, cause, rest, hids, hcause, hsome⟩
    · refine iff_of_true hnone fun id hid => ?_
      rw [← hall] at hid
      exact exists_decode_of_mem_accepted hid
    · refine iff_of_false (fun hnone => ?_) fun hread => ?_
      · cases hsome.symm.trans hnone
      · obtain ⟨raw, hraw⟩ := hread id (hids ▸ List.mem_append_right _ List.mem_cons_self)
        cases hcause.symm.trans hraw
  · intro error herror
    rcases failure_reportOn calendar f e job.ids with ⟨-, hnone⟩ | ⟨id, cause, rest, hids, hcause, hsome⟩
    · cases hnone.symm.trans herror
    · cases hsome.symm.trans herror
      exact ⟨⟨rest, hids⟩, hcause, rfl, rfl⟩

/-- Two ids of the widest format, the second at the end of time and so past every instant of the Gregorian
calendar, and then one with a tab in it: the last is refused and leaves two lines, from which the first id is
recovered. -/
theorem inspection_stops_at_tab :
    let job : InspectJob :=
      { format := .id128, encoding := .hex,
        ids := ["000001941f297c000000000000050002", "FFFFFFFFFFFFFFFF0000000000000000",
          "000001941f297c00\t000000000050002", "0"] }
    let first := "000001941f297c000000000000050002\t1735689600000\t2025-01-01T00:00:00.000Z\tnode=5\tsequence=2"
    let second := "FFFFFFFFFFFFFFFF0000000000000000\t18446744073709551615\tout-of-range\tnode=0\tsequence=0"
    let tabbed := "000001941f297c00\t000000000050002"
    Calendar.gregorian.Reliable ∧ job.report.lines = [first, second]
      ∧ Text.pieces '\n' job.report.text = [first, second, ""]
      ∧ instantText .gregorian wordMax = "out-of-range"
      ∧ recover? .id128 first = some 32017821842599302160554393927682
      ∧ job.report.failure
        = some { id := tabbed, format := .id128, cause := .text (.invalidCharacter 9 16) }
      ∧ Encoding.hex.decode .id128 tabbed = .error (.text (.invalidCharacter 9 16)) := by
  intro job first second tabbed
  have hlines : (job.reportBy .gregorian).lines = [first, second] := by decide +kernel
  have hfailure : (job.reportBy .gregorian).failure
      = some { id := tabbed, format := .id128, cause := .text (.invalidCharacter 9 16) } := by decide +kernel
  obtain ⟨hpieces, hread, -, herror⟩ := inspection_is_exact Calendar.gregorian_reliable job
  rw [hlines] at hpieces hread
  have haccepted : accepted job.format job.encoding job.ids
      = ["000001941f297c000000000000050002", "FFFFFFFFFFFFFFFF0000000000000000"] := by decide +kernel
  rw [haccepted] at hread
  obtain _ | ⟨⟨raw, hfirst⟩, -⟩ := hread
  have hraw : Encoding.hex.decode .id128 "000001941f297c000000000000050002" = .ok 32017821842599302160554393927682 :=
    rfl
  cases hraw.symm.trans hfirst.decode_eq
  have hout : instantText .gregorian wordMax = "out-of-range" := instantText_gregorian_eq_iff.2 (by decide)
  exact ⟨Calendar.gregorian_reliable, hlines, hpieces, hout, hfirst.recover?_eq, hfailure, (herror _ hfailure).2.1⟩

end InspectJob

end CommandLine

end Snowflake
