import SlotWatch.CommandLine.Execution
import SlotWatch.Text.Identifier
import SlotWatch.Text.Moment
import Std.Time.DateTime

/-!
# SlotWatch.Main

The program: it reads the files that an invocation names, has the invocation
executed, and prints what comes of it.
-/

namespace SlotWatch.Program

/-- What is found at a path. -/
def content (path : String) : IO Content := do
  try
    return .ok (← IO.FS.readBinFile path)
  catch
    | .noFileOrDirectory .. => return .error .missing
    | .inappropriateType _ 21 _ => return .error .isADirectory
    | .inappropriateType .. => return .error .notADirectory
    | .invalidArgument _ 22 _ => return .error .noPath
    | .invalidArgument .. => return .error .tooLong
    | e => throw e

/-- The path of the user's configuration file. -/
def configPath : IO String := do
  match ← IO.getEnv "XDG_CONFIG_HOME", ← IO.getEnv "HOME" with
  | some directory, _ => return directory ++ "/telephony-observer/config.toml"
  | none, some home => return home ++ "/.config/telephony-observer/config.toml"
  | none, none => return ".config/telephony-observer/config.toml"

/-- Everything around an invocation that it can depend on. -/
def surroundings (i : Invocation) : IO Surroundings := do
  let configPath ← configPath
  let found ← (i.paths configPath).mapM fun path => return (path, ← content path)
  let now ← Std.Time.Timestamp.now
  return {
    read := fun path => (found.lookup path).getD (.error .missing)
    configPath
    clock := Text.moment now.toSecondsSinceUnixEpoch.val.toNat }

/-- Random texts for the ids in an output. -/
def labels : Output → IO (Nat → String)
  | .text _ => return fun _ => ""
  | .report _ r => do
    let texts ← r.registrations.mapM fun registration => do
      let bytes ← IO.getRandomBytes 16
      return (registration.id, Text.identifier (bytes.toList.map UInt8.toNat))
    return fun id => (texts.lookup id).getD ""

/-- Do what is asked for; the result is the exit status. -/
def run (i : Invocation) : IO UInt32 := do
  match i.execute (← surroundings i) with
  | .error failure =>
    IO.eprintln ("Error: " ++ failure.message)
    return 1
  | .ok output =>
    IO.print (output.render (← labels output))
    return 0

/-- Say why nothing is done; the result is the exit status. -/
def explain (usage : Usage) : IO UInt32 := do
  match usage with
  | .help => IO.print Usage.helpText
  | .version => IO.print Usage.versionLine
  | _ => IO.eprint (usage.complaint ++ Usage.helpText)
  return UInt32.ofNat usage.exitStatus

end SlotWatch.Program

/-- Run the program on command-line words. -/
def main (words : List String) : IO UInt32 :=
  match SlotWatch.Invocation.ofWords words with
  | .error usage => SlotWatch.Program.explain usage
  | .ok invocation => SlotWatch.Program.run invocation
