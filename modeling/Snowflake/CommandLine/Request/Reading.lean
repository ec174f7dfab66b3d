import Snowflake.CommandLine.Argument
import Snowflake.CommandLine.Request.Given

/-!
# Reading the words after a command

The words are read from left to right, by the rules that `clap` documents: an option takes
one value, attached to it or the next word, and may be given once; after two dashes every
word stands for itself; asking for help ends the reading.

An option whose value may still follow is `pending`; it is settled, and its value looked
at, when the next option or the end comes, so of several faults the leftmost is reported. A
word or an option that the command does not know is reported at once, whatever is pending.
-/

namespace Snowflake.CommandLine

/-- How far the words after a command are read. -/
structure Reading where
  given : Given := {}
  /-- The last option, and its value if that has come, when it is not yet settled. -/
  pending : Option (OptionName × Option String) := none
  /-- The words that are no options. -/
  ids : List String := []

namespace Reading

def settle (r : Reading) : Except UsageError Reading :=
  match r.pending with
  | none => .ok r
  | some (option, none) => .error (.valueMissing option)
  | some (option, some value) => do
    let given ← r.given.acceptNew option value
    return { r with given, pending := none }

/-- An option, with the value attached to it if there is one. -/
def option (r : Reading) (option : OptionName) (attached : Option String) :
    Except UsageError Reading := do
  let r ← r.settle
  match attached with
  | none => return { r with pending := some (option, none) }
  | some value => return { r with given := ← r.given.acceptNew option value }

/-- A word that is no option's value. -/
def word (command : Command) (r : Reading) (text : String) : Except UsageError Reading :=
  match command with
  | .generate => .error (.unknownArgument text)
  | .inspect => do
    let r ← r.settle
    return { r with ids := r.ids ++ [text] }

/-- Help was asked for: it is given when nothing before it is at fault. -/
def help (r : Reading) : UsageError :=
  match r.settle with
  | .ok _ => .helpAsked
  | .error e => e

/-- One more argument, before the end of the options. -/
def argument (command : Command) (r : Reading) (text : String) : Argument → Except UsageError Reading
  | .endOfOptions => .ok r
  | .long "help" none => .error r.help
  | .long "help" (some value) => .error (.valueUnexpected "help" value)
  | .long name value =>
    match command.optionNamed? name with
    | some option => r.option option value
    | none => .error (.unknownArgument text)
  | .short 'h' _ => .error r.help
  | .short letter rest =>
    match command.optionLettered? letter with
    | some option => r.option option (Argument.attached? rest)
    | none => .error (.unknownArgument text)
  | .word =>
    match r.pending with
    | some (option, none) => .ok { r with pending := some (option, some text) }
    | _ => r.word command text

/-- All the words after a command. -/
def arguments (command : Command) (r : Reading) : List String → Except UsageError Reading
  | [] => r.settle
  | text :: rest =>
    match Argument.ofWord text with
    | .endOfOptions => do
      let r ← rest.foldlM (word command) r
      r.settle
    | argument => do
      let r ← r.argument command text argument
      r.arguments command rest

end Reading

end Snowflake.CommandLine
