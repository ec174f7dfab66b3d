import Snowflake.Settings

/-!
# Commands and their options

`generate` prints fresh ids and `inspect` takes existing ones apart. Each command has its
options; an option has a long name, and some have a letter or a variable of the
environment that stands in for them.
-/

namespace Snowflake.CommandLine

inductive Command where
  | generate
  | inspect
deriving DecidableEq, Repr

inductive OptionName where
  | format
  | encoding
  | count
  | nodeId
deriving DecidableEq, Repr

namespace OptionName

def long : OptionName → String
  | format => "format"
  | encoding => "encoding"
  | count => "count"
  | nodeId => "node-id"

def letter? : OptionName → Option Char
  | count => some 'n'
  | _ => none

/-- The variable read when the option is not given. -/
def envName? : OptionName → Option String
  | format => some "POLYFLAKE_FORMAT"
  | encoding => some "POLYFLAKE_ENCODING"
  | count => none
  | nodeId => some Settings.nodeIdVariable

end OptionName

namespace Command

def name : Command → String
  | generate => "generate"
  | inspect => "inspect"

def ofName? : String → Option Command
  | "generate" => some generate
  | "inspect" => some inspect
  | _ => none

def options : Command → List OptionName
  | generate => [.format, .encoding, .count, .nodeId]
  | inspect => [.format, .encoding]

/-- The command's option with this long name. -/
def optionNamed? (command : Command) (name : String) : Option OptionName :=
  command.options.find? fun option => option.long = name

/-- The command's option with this letter. -/
def optionLettered? (command : Command) (letter : Char) : Option OptionName :=
  command.options.find? fun option => option.letter? = some letter

end Command

end Snowflake.CommandLine
