/-!
# SlotWatch.CommandLine.Usage

What can be said about command-line words that ask for nothing to be done.
-/

namespace SlotWatch

/-- Why command-line words ask for nothing to be done. -/
inductive Usage where
  /-- They ask for help. -/
  | help
  /-- They ask for the version. -/
  | version
  /-- There are no words. -/
  | noWords
  /-- A word stands where a command is expected. -/
  | unknownCommand
  /-- There are options but no command. -/
  | missingCommand
  /-- No script is given. -/
  | missingScript
  | unknownArgument
  /-- A flag, or an option with a single value, is given twice. -/
  | repeated
  /-- A value is missing, or is an empty path. -/
  | badValue
  /-- A flag is given a value. -/
  | surplusValue
deriving DecidableEq, Repr

namespace Usage

/-- The exit status: zero if the words asked for what they got. -/
def exitStatus : Usage → Nat
  | help | version => 0
  | _ => 2

/-- The line with the version. -/
def versionLine : String := "telephony-observer 0.1.0\n"

/-- What is wrong with the words, as a line; nothing if they ask for a text. -/
def complaint : Usage → String
  | help | version | noWords => ""
  | unknownCommand => "error: unrecognized subcommand\n"
  | missingCommand => "error: a subcommand is required\n"
  | missingScript => "error: the script file is missing\n"
  | unknownArgument => "error: unexpected argument\n"
  | repeated => "error: an argument cannot be used multiple times\n"
  | badValue => "error: a value is required\n"
  | surplusValue => "error: unexpected value for a flag\n"

/-- How the program is used. -/
def helpText : String :=
  "Inspect and simulate telephony state subscriptions\n\n"
    ++ "Usage: telephony-observer [-c <CONFIG>] [-v] <COMMAND>\n\n"
    ++ "Commands:\n"
    ++ "  kinds [--json]\n"
    ++ "  simulate <SCRIPT> [--grant <PERMISSION>]... [--system] [--json]\n"
    ++ "  config [-p <PATH>] [--json]\n"
    ++ "  help [COMMAND]\n"

end Usage

end SlotWatch
