import Snowflake.CommandLine.OptionName

/-!
# Usage errors: why the arguments are no request

Asking for help or for the version ends the reading of the arguments as an error does,
so both are here.
-/

namespace Snowflake.CommandLine

inductive UsageError where
  | helpAsked
  | versionAsked
  /-- There is no command. -/
  | commandMissing
  | unknownCommand (name : String)
  /-- An option that the command does not have, or a word that it has no use for. -/
  | unknownArgument (argument : String)
  | valueMissing (option : OptionName)
  | unknownEncoding (value : String)
  | badNumber (option : OptionName) (value : String)
  | repeated (option : OptionName)
  /-- A value attached to an option that takes none. -/
  | valueUnexpected (name value : String)
  | formatMissing
  | idsMissing
deriving DecidableEq, Repr

def UsageError.message : UsageError → String
  | helpAsked => "help was asked for"
  | versionAsked => "the version was asked for"
  | commandMissing => "a command is needed: generate or inspect"
  | unknownCommand name => s!"there is no command '{name}'"
  | unknownArgument argument => s!"unexpected argument '{argument}'"
  | valueMissing option => s!"--{option.long} needs a value"
  | unknownEncoding value => s!"there is no encoding '{value}' (raw, hex or ascii)"
  | badNumber option value => s!"'{value}' is no number for --{option.long}"
  | repeated option => s!"--{option.long} was given twice"
  | valueUnexpected name value => s!"--{name} takes no value, but was given '{value}'"
  | formatMissing => "--format is needed"
  | idsMissing => "at least one id is needed"

end Snowflake.CommandLine
