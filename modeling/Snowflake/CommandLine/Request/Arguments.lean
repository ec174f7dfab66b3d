import Snowflake.CommandLine.Request.Reading

/-!
# Reading all the arguments

The first word is a command, `help`, or one of the options that ask for help or for the
version, which `clap` documents as coming with every set of commands. The options of a
command that were not given are looked up in the environment.
-/

namespace Snowflake.CommandLine

namespace Request

/-- The request of a command and the words after it. -/
def ofCommand (env : Environment) (command : Command) (words : List String) :
    Except UsageError Request := do
  let r ← Reading.arguments command {} words
  let given ← command.options.foldlM (Given.fill env) r.given
  given.request r.ids command

/-- The words that may stand in the place of a command. -/
def commandWords : List String := ["generate", "inspect", "help"]

/-- What the words after `help` lead to: at most one command may follow. -/
def ofHelp : List String → UsageError
  | [] => .helpAsked
  | name :: rest =>
    if name ∈ commandWords then rest.head?.elim .helpAsked .unknownCommand else .unknownCommand name

/-- What a word leads to that is no command where one is needed. -/
def ofStray (text : String) : Argument → UsageError
  | .long "help" none => .helpAsked
  | .long "version" none => .versionAsked
  | .long "help" (some value) => .valueUnexpected "help" value
  | .long "version" (some value) => .valueUnexpected "version" value
  | .short 'h' _ => .helpAsked
  | .short 'V' _ => .versionAsked
  | .long .. => .unknownArgument text
  | .short .. => .unknownArgument text
  | _ => .unknownCommand text

/-- What the words lead to that come after the end of the options where a command is needed. -/
def ofPositional : List String → UsageError
  | [] => .commandMissing
  | text :: _ => if text ∈ commandWords then .unknownArgument text else .unknownCommand text

/-- The request of all the arguments. -/
def ofArguments (env : Environment) : List String → Except UsageError Request
  | [] => .error .commandMissing
  | "help" :: rest => .error (ofHelp rest)
  | text :: rest =>
    match Command.ofName? text, Argument.ofWord text with
    | some command, _ => ofCommand env command rest
    | none, .endOfOptions => .error (ofPositional rest)
    | none, argument => .error (ofStray text argument)

end Request

end Snowflake.CommandLine
