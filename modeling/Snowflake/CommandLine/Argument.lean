/-!
# Arguments: what a word on the command line looks like

Words are told apart as `clap` documents it. A word that starts with two dashes names a
long option, with a value after the first `=`; one that starts with a single dash is a row
of letters, the value of an option following its letter with or without a `=`; two dashes
alone end the options. Every other word, the empty one and a single dash too, stands for
itself.
-/

namespace Snowflake.CommandLine

inductive Argument where
  /-- Two dashes and nothing else. -/
  | endOfOptions
  | long (name : String) (value : Option String)
  | short (letter : Char) (rest : List Char)
  | word
deriving DecidableEq, Repr

namespace Argument

/-- A long option: its name, and the value attached to it if there is one. -/
def ofLong (cs : List Char) : Argument :=
  let name := String.ofList (cs.takeWhile (· ≠ '='))
  match cs.dropWhile (· ≠ '=') with
  | [] => long name none
  | _ :: value => long name (some (String.ofList value))

def ofWord (text : String) : Argument :=
  match text.toList with
  | ['-', '-'] => endOfOptions
  | '-' :: '-' :: cs => ofLong cs
  | '-' :: letter :: rest => short letter rest
  | _ => word

/-- The value attached to a letter: what follows it, less one `=`. -/
def attached? : List Char → Option String
  | [] => none
  | '=' :: value => some (String.ofList value)
  | value => some (String.ofList value)

end Argument

end Snowflake.CommandLine
