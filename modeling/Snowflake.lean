import Snowflake.Bits
import Snowflake.Word
import Snowflake.Layout
import Snowflake.Text.Blank
import Snowflake.Format
import Snowflake.PerFormat
import Snowflake.Parts
import Snowflake.Error
import Snowflake.Typed
import Snowflake.Text.Bytes
import Snowflake.Text.Quoted
import Snowflake.Codec.Error
import Snowflake.Codec.Alphabet
import Snowflake.Codec.Hex
import Snowflake.Codec.Crockford
import Snowflake.Text.Decimal
import Snowflake.Encoding
import Snowflake.Sequence
import Snowflake.Clock.Basic
import Snowflake.Clock.Wait
import Snowflake.Clock.Manual
import Snowflake.Clock.Step
import Snowflake.Clock.Anchored
import Snowflake.Generator.Basic
import Snowflake.Generator.Verdict
import Snowflake.Generator.Generate
import Snowflake.Generator.Issue
import Snowflake.Generator.Burst
import Snowflake.Generator.Step
import Snowflake.Settings
import Snowflake.Registry.Basic
import Snowflake.Registry.Step
import Snowflake.CommandLine.Argument
import Snowflake.CommandLine.OptionName
import Snowflake.CommandLine.UsageError
import Snowflake.CommandLine.Request.Basic
import Snowflake.CommandLine.Request.Given
import Snowflake.CommandLine.Request.Reading
import Snowflake.CommandLine.Request.Arguments
import Snowflake.Calendar.Date
import Snowflake.Calendar.Instant
import Snowflake.CommandLine.Job
import Snowflake.CommandLine.Report
import Snowflake.CommandLine.Inspect
import Snowflake.CommandLine.Print
import Snowflake.CommandLine.Summary
import Snowflake.Main
import Snowflake.Proofs.Layout.Fields
import Snowflake.Proofs.Generator.Issuance
import Snowflake.Proofs.Clock.Waiting
import Snowflake.Proofs.Generator.Rule
import Snowflake.Proofs.Generator.Forms
import Snowflake.Proofs.Generator.Progress
import Snowflake.Proofs.Generator.History
import Snowflake.Proofs.Generator.Overlap
import Snowflake.Proofs.Registry.Seats
import Snowflake.Proofs.Registry.Progress
import Snowflake.Proofs.Registry.History
import Snowflake.Proofs.Codec.Digits
import Snowflake.Proofs.Codec.RoundTrip
import Snowflake.Proofs.Codec.Normal
import Snowflake.Proofs.Generator.Honesty
import Snowflake.Proofs.Generator.Atomicity
import Snowflake.Proofs.Registry.Enrolment
import Snowflake.Proofs.Registry.Census
import Snowflake.Proofs.Clock.Exact
import Snowflake.Proofs.Generator.Parking
import Snowflake.Proofs.Generator.Row
import Snowflake.Proofs.Generator.Refusal
import Snowflake.Proofs.Registry.Family
import Snowflake.Proofs.Codec.Order
import Snowflake.Proofs.Layout.Parts
import Snowflake.Proofs.Generator.TimeOrder
import Snowflake.Proofs.Generator.Twins
import Snowflake.Proofs.Generator.Separation
import Snowflake.Proofs.Generator.Typed
import Snowflake.Proofs.Text.Plain
import Snowflake.Proofs.Calendar.Date
import Snowflake.Proofs.Calendar.Instant
import Snowflake.Proofs.CommandLine.Inspect
import Snowflake.Proofs.Generator.Journal
import Snowflake.Proofs.CommandLine.Print
import Snowflake.Proofs.Clock.Pace
import Snowflake.Proofs.Generator.Blocking
import Snowflake.Proofs.Generator.Returning
import Snowflake.Proofs.CommandLine.NodeId
import Snowflake.Proofs.Codec.Grammar
import Snowflake.Proofs.Sequence.Run
import Snowflake.Proofs.Generator.Phases
import Snowflake.Proofs.Text.Trimmed
import Snowflake.Proofs.Text.Decimal
import Snowflake.Proofs.Codec.Decimal
import Snowflake.Proofs.Registry.Environment
import Snowflake.Proofs.Layout.Names
import Snowflake.Proofs.Generator.Memory
