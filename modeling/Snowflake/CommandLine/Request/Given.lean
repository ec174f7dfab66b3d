import Snowflake.CommandLine.Request.Basic
import Snowflake.CommandLine.UsageError

/-!
# Given options

`Given` gathers the values of the options; `accept` looks at a value as it takes it. What
is not given comes from the environment (`fill`) or is left to a default (`request`): that
is the order `clap` documents, in which the arguments come before the variable of an option
and the variable before the default. A value from the environment is looked at like one
that is given, and as it stands.
-/

namespace Snowflake.CommandLine

/-- The values of the options, as far as they are given. -/
structure Given where
  format : Option String := none
  encoding : Option Encoding := none
  count : Option Nat := none
  nodeId : Option Nat := none
deriving DecidableEq, Repr

namespace Given

def has (given : Given) : OptionName → Bool
  | .format => given.format.isSome
  | .encoding => given.encoding.isSome
  | .count => given.count.isSome
  | .nodeId => given.nodeId.isSome

/-- A number as it may be given: in decimal, of 64 bits, with or without a plus sign. -/
def readNumber (option : OptionName) (value : String) : Except UsageError Nat :=
  match Text.Decimal.readUnsigned? wordMax value.toList with
  | some n => .ok n
  | none => .error (.badNumber option value)

/-- The values with one more option. -/
def accept (given : Given) (option : OptionName) (value : String) : Except UsageError Given :=
  match option with
  | .format => .ok { given with format := some value }
  | .encoding =>
    match Encoding.ofName? value with
    | some encoding => .ok { given with encoding := some encoding }
    | none => .error (.unknownEncoding value)
  | .count => (readNumber .count value).map fun n => { given with count := some n }
  | .nodeId => (readNumber .nodeId value).map fun n => { given with nodeId := some n }

/-- The values with one more option, which must not be there yet. -/
def acceptNew (given : Given) (option : OptionName) (value : String) : Except UsageError Given :=
  if given.has option then .error (.repeated option) else given.accept option value

/-- The values with an option that was not given read from the environment. -/
def fill (env : Environment) (given : Given) (option : OptionName) : Except UsageError Given :=
  match given.has option, option.envName?.bind env with
  | false, some value => given.accept option value
  | _, _ => .ok given

/-- The request that the values make up, with the defaults put in. -/
def request (given : Given) (ids : List String) : Command → Except UsageError Request
  | .generate =>
    .ok (.generate {
      format := given.format.getD "64", encoding := given.encoding.getD .raw,
      count := given.count.getD 1, nodeId := given.nodeId })
  | .inspect =>
    match given.format with
    | none => .error .formatMissing
    | some format =>
      if ids.isEmpty then .error .idsMissing
      else .ok (.inspect { format, encoding := given.encoding.getD .raw, ids })

end Given

end Snowflake.CommandLine
