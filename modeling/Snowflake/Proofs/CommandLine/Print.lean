import Snowflake.CommandLine.Print
import Snowflake.Proofs.Codec.Order
import Snowflake.Proofs.CommandLine.Inspect
import Snowflake.Proofs.Generator.Journal
import Snowflake.Proofs.Registry.Enrolment
import Snowflake.Proofs.Registry.History

/-!
# Printing fresh ids: what is printed, and that it is read back

A job's node id is in range, and so is the default, so there is always a generator to print
from (`exists_find`).  The lines are the entries of a journal of its calls, written down
(`exists_journal`); they are read back in order, and taking them apart gives, line by line, what
the entries say (`reportOn_of_printed`).
-/

namespace Snowflake

/-- What is written of an id that fits is its text, of the encoding's width, and is read back. -/
theorem Encoding.write_spec {f : Format} {id : Nat} (h : f.layout.Fits id) (e : Encoding) :
    e.encode f id = .ok (e.write f id) ∧ e.decode f (e.write f id) = .ok id
      ∧ ∀ width ∈ e.width? f, (Text.bytes (e.write f id)).length = width := by
  obtain ⟨text, hencode, hread⟩ := exists_encode h e
  obtain rfl : e.write f id = text := Except.ok.inj ((e.encode_of_fits h).symm.trans hencode)
  exact ⟨hencode, hread⟩

/-- At a fixed width, texts compare as their ids do. -/
theorem Encoding.bytes_write_lt_iff {f : Format} {a b : Nat} (ha : f.layout.Fits a) (hb : f.layout.Fits b)
    {e : Encoding} (he : e ≠ raw) : Text.bytes (e.write f a) < Text.bytes (e.write f b) ↔ a < b := by
  cases e with
  | raw => exact absurd rfl he
  | hex => exact Alphabet.ascending_hex.bytes_write_lt_iff ha hb
  | ascii => exact Alphabet.ascending_crockford.bytes_write_lt_iff ha hb

namespace CommandLine

/-- The line is what the entry's id is written as, at the encoding's width, and is read as the id. -/
structure PrintedAs (f : Format) (e : Encoding) (entry : Entry) (line : String) : Prop where
  encode_eq : e.encode f entry.id = .ok line
  decode_eq : e.decode f line = .ok entry.id
  length_eq : ∀ width ∈ e.width? f, (Text.bytes line).length = width

/-- Lines that were printed are all read, and taken apart line by line. -/
theorem InspectJob.reportOn_of_printed (calendar : Calendar) {f : Format} {e : Encoding}
    {parts : Entry → Parts} {entries : List Entry} {lines : List String}
    (hlines : List.Forall₂ (PrintedAs f e) entries lines)
    (hparts : ∀ entry ∈ entries, f.layout.parts entry.id = parts entry) :
    reportOn calendar f e lines
      = { lines := List.zipWith (fun entry text => line calendar text (parts entry)) entries lines } := by
  induction hlines with
  | nil => rfl
  | @cons entry text entries lines hfirst _ ih =>
    have hrest := ih fun other hother => hparts other (List.mem_cons_of_mem entry hother)
    unfold reportOn
    rw [hfirst.decode_eq]
    dsimp only
    rw [hrest, hparts entry List.mem_cons_self]
    rfl

namespace GenerateJob

variable {σ : Type}

theorem nodeId_choice (job : GenerateJob) (defaultNodeId : Nat) :
    job.choice.nodeId defaultNodeId = job.nodeId.getD defaultNodeId := by
  unfold choice
  cases job.nodeId with
  | none => rfl
  | some nodeId => rfl

/-- A job always finds a generator, of its own node id or the default one. -/
theorem exists_find (job : GenerateJob) {r : Registry} (hr : r.Sound) :
    ∃ a, r.find job.choice = .ok a ∧ a.generator.Sound
      ∧ a.generator.nodeId = job.nodeId.getD r.defaultNodeId := by
  have hle : job.nodeId.getD r.defaultNodeId ≤ maxNodeId := by
    cases h : job.nodeId with
    | none => exact r.defaultNodeId_le
    | some nodeId => exact job.nodeId_le nodeId h
  cases h : r.find job.choice with
  | error e =>
    have hlt := (Registry.of_find_eq_error h).1
    rw [nodeId_choice] at hlt
    exact absurd hle (Nat.not_le.2 hlt)
  | ok a =>
    have hfinds := Registry.finds_of_find hr h
    refine ⟨a, rfl, hfinds.sound.sound _ (Registry.mem_generator a), ?_⟩
    rw [hfinds.nodeId_eq, nodeId_choice]

/-- The report is that of a burst of the generator that is found. -/
theorem report_print (job : GenerateJob) (c : Clock σ) (patience : Nat) {r : Registry} (s : σ) {a : Seated}
    (h : r.find job.choice = .ok a) :
    (job.print c patience r s).report
      = { lines := (Generator.burst c (.text job.encoding) job.format job.count patience a.generator s).issues.map
            Issue.text
          failure := (Generator.burst c (.text job.encoding) job.format job.count patience a.generator s).failure } := by
  unfold print
  rw [h]

/-- The lines are the entries of a journal, written down, and the ids of the entries increase. -/
theorem exists_journal (job : GenerateJob) (c : Clock σ) (patience : Nat) {r : Registry} (s : σ) {a : Seated}
    (h : r.find job.choice = .ok a) (ha : a.generator.Sound) :
    ∃ entries, Journal (Generator.inRow c job.format patience a.generator s) job.format patience a.generator.nodeId
        job.count entries (job.print c patience r s).report.failure
      ∧ (job.print c patience r s).report.lines = entries.map (fun entry => job.encoding.write job.format entry.id)
      ∧ entries.Pairwise fun x y => x.id < y.id := by
  obtain ⟨entries, hjournal, hissues⟩ :=
    Generator.burst_journal c (.text job.encoding) job.format job.count patience ha s
  have hlt := Generator.pairwise_lt_burst c (.text job.encoding) job.format job.count patience ha s
  rw [hissues, List.map_map, List.pairwise_map] at hlt
  rw [report_print job c patience s h, hissues, List.map_map]
  exact ⟨entries, hjournal, rfl, hlt⟩

theorem printedAs_of_journal {row : Nat → Call σ Nat} {f : Format} {patience nodeId count : Nat}
    {entries : List Entry} {failure : Option Failure} (h : Journal row f patience nodeId count entries failure)
    (e : Encoding) :
    List.Forall₂ (PrintedAs f e) entries (entries.map fun entry => e.write f entry.id) := by
  rw [List.forall₂_map_right_iff, List.forall₂_same]
  intro entry hentry
  obtain ⟨hencode, hdecode, hlength⟩ := Encoding.write_spec (h.fits hentry) e
  exact ⟨hencode, hdecode, hlength⟩

/-- **Printing.**  In every state that a run can leave a registry in, on any clock: a job finds a generator
of its node id, or of the default one, and prints a line for each id that the calls of a row give out, up to the
count or to the first call that fails; no node id is ever refused.  The lines are read as the ids, which
increase and carry the node field, and at a fixed width the lines increase too.  Inspecting them with any
calendar succeeds and reports, line by line, the start of the tick of the last reading made for the id, the
node field and the number that was remembered for it. -/
theorem printed_ids_are_read_back {r : Registry} (hr : r.Reachable) (c : Clock σ) (patience : Nat)
    (job : GenerateJob) (s : σ) :
    let f := job.format
    let e := job.encoding
    let nodeId := job.nodeId.getD r.defaultNodeId
    let report := (job.print c patience r s).report
    let inspection : InspectJob := { format := f, encoding := e, ids := report.lines }
    ∃ a entries, r.find job.choice = .ok a ∧ a.generator.nodeId = nodeId
      ∧ Journal (Generator.inRow c f patience a.generator s) f patience nodeId job.count entries report.failure
      ∧ (report.failure = none ↔ report.lines.length = job.count)
      ∧ (∀ n, report.failure ≠ some (.refused (.invalidNodeId n)))
      ∧ Text.pieces '\n' report.text = report.lines ++ [""]
      ∧ List.Forall₂ (PrintedAs f e) entries report.lines
      ∧ entries.Pairwise (fun x y => x.id < y.id)
      ∧ (∀ entry ∈ entries, f.layout.nodeField entry.id = nodeId &&& f.layout.maxNodeField)
      ∧ (e ≠ .raw → report.lines.Pairwise fun x y => Text.bytes x < Text.bytes y)
      ∧ ∀ calendar : Calendar, inspection.reportBy calendar
        = { lines := List.zipWith (fun entry line => InspectJob.line calendar line
              { timestampMillis := entry.reading / f.layout.tickMillis * f.layout.tickMillis,
                nodeId := nodeId &&& f.layout.maxNodeField, sequence := entry.number }) entries report.lines
            failure := none } := by
  intro f e nodeId report inspection
  obtain ⟨a, hfind, hsound, hnode⟩ := job.exists_find hr.sound
  obtain ⟨entries, hjournal, hlines, hlt⟩ := job.exists_journal c patience s hfind hsound
  rw [hnode] at hjournal
  have hprinted : List.Forall₂ (PrintedAs f e) entries report.lines := by
    rw [show report.lines = _ from hlines]
    exact printedAs_of_journal hjournal e
  refine ⟨a, entries, hfind, hnode, hjournal, ?_, ?_, ?_, hprinted, hlt, ?_, ?_, ?_⟩
  · rw [← hprinted.length_eq]
    exact hjournal.failure_eq_none_iff
  · exact hjournal.failure_ne_invalidNodeId
  · refine Report.pieces_text fun line hline => ?_
    rw [show report.lines = _ from hlines] at hline
    obtain ⟨entry, hentry, rfl⟩ := List.mem_map.1 hline
    exact (Encoding.plain_of_decode (Encoding.write_spec (hjournal.fits hentry) e).2.1).2
  · exact fun entry hentry => congrArg Parts.nodeId (hjournal.parts_eq hentry)
  · intro he
    rw [show report.lines = _ from hlines, List.pairwise_map]
    exact hlt.imp_of_mem fun hx hy hxy => (Encoding.bytes_write_lt_iff (hjournal.fits hx) (hjournal.fits hy) he).2 hxy
  · exact fun calendar => InspectJob.reportOn_of_printed calendar hprinted fun entry hentry => hjournal.parts_eq hentry

/-- On a clock that moves by ten seconds with every reading, in the last tick but one of the narrowest format,
where node 6 has given out an id before: of five ids for the default, which is 6, two are printed before the
range ends.  They carry the node field 2 and tell their ticks when they are inspected. -/
theorem printed_up_to_the_last_tick :
    ∃ r, Registry.Reachable r ∧
      let c : Clock Nat :=
        { read := fun t => (saturate t, t + 10000), park := fun pause t => t + pause, read_le := fun _ => saturate_le _ }
      let job : GenerateJob :=
        { format := .tiny, encoding := .ascii, count := 5, nodeId := none, count_pos := by decide,
          nodeId_le := by simp }
      let report := (job.print c 0 r 2406778225000).report
      let inspection : InspectJob := { format := .tiny, encoding := .ascii, ids := report.lines }
      report.lines = ["3ZZZZX1", "3ZZZZZ0"]
        ∧ report.failure = some (.refused (.clockRangeExceeded .tiny 240677824))
        ∧ Text.pieces '\n' report.text = ["3ZZZZX1", "3ZZZZZ0", ""]
        ∧ (∃ entries, List.Forall₂ (PrintedAs .tiny .ascii) entries report.lines
          ∧ ∀ entry ∈ entries, Format.tiny.layout.nodeField entry.id = 6 &&& Format.tiny.layout.maxNodeField)
        ∧ report.lines.Pairwise (fun x y => Text.bytes x < Text.bytes y)
        ∧ inspection.report.failure = none
        ∧ inspection.report.lines
          = ["3ZZZZX1\t2406778220000\t2046-04-08T05:30:20.000Z\tnode=2\tsequence=1",
            "3ZZZZZ0\t2406778230000\t2046-04-08T05:30:30.000Z\tnode=2\tsequence=0"] := by
  have hr : Registry.ofSettings { defaultNodeId := some 6 } 0
      = .ok { defaultNodeId := 6, defaultNodeId_le := by decide } := rfl
  have hreach : Registry.Reachable _ :=
    ⟨_, _, _, hr, Nat,
      { read := fun t => (saturate t, t + 10000), park := fun pause t => t + pause, read_le := fun _ => saturate_le _ },
      2406778221000, [.on (.node 6) (.generate .number .tiny 0)], rfl⟩
  obtain ⟨a, entries, -, -, -, -, -, hpieces, hprinted, -, hnode, hbytes, hinspected⟩ :=
    printed_ids_are_read_back hreach
      { read := fun t => (saturate t, t + 10000), park := fun pause t => t + pause, read_le := fun _ => saturate_le _ }
      0 { format := .tiny, encoding := .ascii, count := 5, nodeId := none, count_pos := by decide,
          nodeId_le := by simp } 2406778225000
  refine ⟨_, hreach, rfl, rfl, hpieces, ⟨entries, hprinted, hnode⟩, hbytes (by decide),
    congrArg Report.failure (hinspected .gregorian), ?_⟩
  decide +kernel

end GenerateJob

end CommandLine

end Snowflake
