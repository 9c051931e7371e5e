import SlotWatch.CommandLine.Arguments
import SlotWatch.Replay.Report
import SlotWatch.Settings.File

/-!
# SlotWatch.CommandLine.Execution

Doing what an invocation asks for.  The configuration comes first, whatever the
task is: a configuration file that cannot be used makes every task fail.
-/

namespace SlotWatch

/-! ## The table of kinds -/

namespace Kind

/-- The JSON form of what is known of a kind. -/
def toJson (k : Kind) : Json :=
  .record [
    ("name", .str k.name),
    ("mask", .int k.mask),
    ("systemOnly", .bool k.systemOnly),
    ("permissions", Wire.write k.permissions),
    ("slotSelector", .bool k.selectable),
    ("minSlotId", Wire.write k.minSlot)]

/-- A row of the table of kinds. -/
def row (name mask system slot permissions : String) : String :=
  Text.column 36 name ++ " " ++ Text.column 8 mask ++ " " ++ Text.column 8 system ++ " "
    ++ Text.column 6 slot ++ " " ++ permissions ++ "\n"

/-- The row of a kind. -/
def line (k : Kind) : String :=
  row k.name (maskText k.mask) (if k.systemOnly then "yes" else "no")
    (if k.selectable then ">=" ++ Text.number k.minSlot.toInt else "none")
    (if k.permissions.isEmpty then "-" else ", ".intercalate k.permissions)

/-- The table of kinds. -/
def table : String :=
  row "Event" "Mask" "System" "Slot" "Permissions"
    ++ String.ofList (List.replicate 100 '-') ++ "\n"
    ++ String.join (all.map line)

end Kind

/-! ## Execution -/

/-- Where a program runs. -/
structure Surroundings where
  /-- What is found at a path. -/
  read : String → Content
  /-- The path of the configuration file that counts if none is named. -/
  configPath : String
  /-- The present time, as it is written. -/
  clock : String

/-- What a program prints. -/
inductive Output where
  | text (content : String)
  | report (json : Bool) (r : Report)

namespace Output

/-- A JSON value over several lines. -/
def pretty (v : Json) : Output := .text (v.prettyPrint ++ "\n")

/-- The text that is printed, ids being written by `label`. -/
def render (label : Nat → String) : Output → String
  | text content => content
  | report true r => (r.toJson label).prettyPrint ++ "\n"
  | report false r => r.toText label

end Output

namespace Task

/-- Replay the text of a script. -/
def replay (clock : String) (settings : Settings) (script : String) (grants : List String)
    (system json : Bool) : Except Failure Output :=
  match Script.ofText? script with
  | none => .error .badJson
  | some script =>
    let phone := Phone.withGrants clock system grants
    .ok (.report json ((Simulation.fresh settings.slots phone).replay script).1)

/-- Do a task under a configuration. -/
def execute (s : Surroundings) (settings : Settings) : Task → Except Failure Output
  | kinds true => .ok (.pretty (.array (Kind.all.map Kind.toJson)))
  | kinds false => .ok (.text Kind.table)
  | simulate script grants system json =>
    (s.read script).text.bind fun script => replay s.clock settings script grants system json
  | config path json =>
    let shown := path.elim (.ok settings) fun path => Settings.load (s.read path)
    shown.map fun settings =>
      if json then .pretty (Wire.write settings) else .text settings.render

end Task

namespace Task

/-- The paths of the files that a task reads. -/
def paths : Task → List String
  | kinds _ => []
  | simulate script _ _ _ => [script]
  | config path _ => path.toList

end Task

namespace Invocation

/-- The path of the configuration file that counts. -/
def configPath (standard : String) (i : Invocation) : String := i.config.getD standard

/-- The paths of all files that are read. -/
def paths (standard : String) (i : Invocation) : List String :=
  i.configPath standard :: i.task.paths

/-- Do what is asked for. -/
def execute (s : Surroundings) (i : Invocation) : Except Failure Output :=
  (Settings.load (s.read (i.configPath s.configPath))).bind fun settings =>
    i.task.execute s settings

end Invocation

end SlotWatch
