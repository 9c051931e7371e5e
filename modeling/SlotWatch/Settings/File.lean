import SlotWatch.Files
import SlotWatch.Settings
import SlotWatch.Toml.Document
import SlotWatch.Toml.Quoted

/-!
# SlotWatch.Settings.File

The configuration file: a TOML document with a table for the slots and one for
the log.

* `Settings.render` writes a file, `Settings.ofText?` reads one.
* Keys that are not settings are ignored.  An array of values may stand for a
  table: its elements are the settings in writing order, and what is missing or
  too many does not matter.  A moment may stand for a table without settings.
* `Settings.load` is what a program does with the file at a path: no file is
  the default configuration, and a file must hold a usable one.
-/

namespace SlotWatch

open Toml (Item Table)

/-! ## Reading -/

namespace Settings

/-- The values of the named settings of a table. -/
def tomlFields? (names : List String) : Item → Option (List (Option Item))
  | .table t => some (names.map t.find?)
  | .array vs => some (names.zipIdx.map fun (_, i) => vs[i]?)
  | .tables ts => some (names.zipIdx.map fun (_, i) => (ts[i]?).map .table)
  | .moment _ => some (names.map fun _ => none)
  | _ => none

/-- A slot setting. -/
def tomlSlot? : Item → Option Slot
  | .integer n => int32? n
  | _ => none

/-- A text setting. -/
def tomlText? : Item → Option String
  | .string s => some s
  | _ => none

/-- Read a setting that may be left out. -/
def orDefault (default : α) (read : Item → Option α) : Option Item → Option α
  | none => some default
  | some v => read v

/-- The slot settings of a table. -/
def tomlSlots? (v : Item) : Option SlotSettings :=
  match tomlFields? SlotSettings.fieldNames v with
  | some [slotCount, defaultSlot] => do
    let standard : SlotSettings := {}
    return ⟨← orDefault standard.slotCount tomlSlot? slotCount,
      ← orDefault standard.defaultSlot tomlSlot? defaultSlot⟩
  | _ => none

/-- The log settings of a table. -/
def tomlLog? (v : Item) : Option LogSettings :=
  match tomlFields? LogSettings.fieldNames v with
  | some [level, file] => do
    let standard : LogSettings := {}
    return ⟨← orDefault standard.level tomlText? level,
      ← orDefault standard.file (fun v => (tomlText? v).map some) file⟩
  | _ => none

/-- The settings of a document. -/
def ofToml? (t : Table) : Option Settings :=
  match tomlFields? Settings.fieldNames (.table t) with
  | some [slots, log] => do
    return ⟨← orDefault {} tomlSlots? slots, ← orDefault {} tomlLog? log⟩
  | _ => none

/-- Read a configuration text. -/
def ofText? (text : String) : Option Settings :=
  (Toml.parse text).bind ofToml?

/-! ## Writing -/

/-- A line that gives a key its value. -/
def line (key : String) (value : List Char) : List Char :=
  key.toList ++ " = ".toList ++ value ++ ['\n']

/-- The text of a configuration, as characters.  The log file has a line only
if there is one. -/
def renderChars (s : Settings) : List Char :=
  "[registry]\n".toList
    ++ line "slot_count" (Text.decimal s.slots.slotCount.toInt)
    ++ line "default_slot_id" (Text.decimal s.slots.defaultSlot.toInt)
    ++ "\n[logging]\n".toList
    ++ line "level" (Toml.quote s.log.level.toList)
    ++ match s.log.file with
       | none => []
       | some file => line "file" (Toml.quote file.toList)

/-- The text of a configuration. -/
def render (s : Settings) : String :=
  String.ofList s.renderChars

/-! ## Loading -/

/-- A text as a usable configuration. -/
def ofFileText (text : String) : Except Failure Settings :=
  match ofText? text with
  | none => .error .badToml
  | some s => s.validate.map fun () => s

/-- Load a configuration file, given what is found at its path.  Where there is no
file, the configuration is the default one. -/
def load (content : Content) : Except Failure Settings :=
  match content with
  | .error fault => if fault.isAbsence then .ok {} else .error (.unreadable fault)
  | .ok _ => content.text.bind ofFileText

end Settings

end SlotWatch
