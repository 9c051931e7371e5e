import SlotWatch.Kind

/-!
# SlotWatch.Failure

Why an operation failed.  A `Failure` is a cause; its `category` is what the
platform distinguishes, `code` the number it reports, and `message` the text
shown to people.

Causes that arise outside — a source's own refusal, a file that cannot be read,
a text in a foreign format — come as a category with a text of their own
(`reported`).
-/

namespace SlotWatch

/-- What the platform distinguishes. -/
inductive Category where
  | permissionDenied
  | invalidParameter
  | serviceConnection
  | systemInternal
  | configuration
  | file
  | json
  | tomlRead
  | tomlWrite
deriving DecidableEq, Repr

namespace Category

/-- The number reported for a failure of the category. -/
def code : Category → Int32
  | permissionDenied => 201
  | invalidParameter => 8300001
  | serviceConnection => 8300002
  | systemInternal => 8300003
  | _ => 8300999

/-- How the message of a failure of the category begins. -/
def heading : Category → String
  | permissionDenied => "Permission denied: "
  | invalidParameter => "Invalid parameter value: "
  | serviceConnection => "Operation failed. Cannot connect to service: "
  | systemInternal => "System internal error: "
  | configuration => "Invalid configuration: "
  | file => "IO error: "
  | json => "Serialization error: "
  | tomlRead => "TOML parsing error: "
  | tomlWrite => "TOML serialization error: "

end Category

/-- What can be wrong with a file. -/
inductive FileFault where
  | missing
  /-- A file is to be gone through like a directory. -/
  | notADirectory
  /-- A name on the way, or the path as a whole, is too long. -/
  | tooLong
  /-- The path holds a character that no path can hold. -/
  | noPath
  | isADirectory
  | notText
deriving DecidableEq, Repr

/-- Whether there is nothing at the path. -/
def FileFault.isAbsence : FileFault → Bool
  | missing | notADirectory | tooLong | noPath => true
  | isADirectory | notText => false

/-- Why an operation failed. -/
inductive Failure where
  /-- There is no kind of this name. -/
  | unknownEvent (name : String)
  /-- Listeners of the kind cannot select a slot. -/
  | selectorRefused (kind : Kind)
  /-- The slot is outside the range of the kind. -/
  | slotOutOfRange (slot : Slot) (kind : Kind)
  /-- The payload belongs to another kind. -/
  | payloadMismatch (carried requested : Kind)
  /-- The slot cannot be the default slot. -/
  | defaultSlotOutOfRange (slot slotCount : Slot)
  /-- No listener of this name has been mentioned. -/
  | unknownListener (name : String)
  /-- The kind is for system applications. -/
  | reservedForSystem (kind : Kind)
  /-- The application does not hold the permission. -/
  | missingPermission (permission : String)
  /-- The source has lost its service. -/
  | serviceUnavailable
  /-- The configured number of slots is not positive. -/
  | noSlots
  /-- The configured default slot is no slot. -/
  | badDefaultSlot (slot slotCount : Slot)
  /-- A file cannot be read. -/
  | unreadable (fault : FileFault)
  /-- A JSON text has no value of the type asked for. -/
  | badJson
  /-- A configuration text is not well formed, or has a value of a wrong type. -/
  | badToml
  /-- A cause from outside, in its own words. -/
  | reported (category : Category) (text : String)
deriving DecidableEq, Repr

namespace Failure

/-- The category of a cause. -/
def category : Failure → Category
  | unknownEvent _ | selectorRefused _ | slotOutOfRange .. | payloadMismatch ..
  | defaultSlotOutOfRange .. | unknownListener _ => .invalidParameter
  | reservedForSystem _ | missingPermission _ => .permissionDenied
  | serviceUnavailable => .serviceConnection
  | noSlots | badDefaultSlot .. => .configuration
  | unreadable _ => .file
  | badJson => .json
  | badToml => .tomlRead
  | reported c _ => c

/-- The number reported for a cause. -/
def code (f : Failure) : Int32 := f.category.code

/-- What happened, in words. -/
def reason : Failure → String
  | unknownEvent name => "unknown event type '" ++ name ++ "'"
  | selectorRefused kind => kind.name ++ " does not accept a slot selector"
  | slotOutOfRange slot kind =>
    "slot id " ++ Text.number slot.toInt ++ " is invalid for " ++ kind.name
  | payloadMismatch carried requested =>
    carried.name ++ " payload cannot be delivered as " ++ requested.name
  | defaultSlotOutOfRange slot slotCount =>
    "default slot " ++ Text.number slot.toInt ++ " is outside 0.." ++ Text.number slotCount.toInt
  | unknownListener name => "unknown listener '" ++ name ++ "'"
  | reservedForSystem kind => kind.name ++ " is reserved for system applications"
  | missingPermission permission => permission
  | serviceUnavailable => "state registry service is unavailable"
  | noSlots => "slot_count must be greater than 0"
  | badDefaultSlot slot slotCount =>
    "default_slot_id " ++ Text.number slot.toInt ++ " is outside 0.." ++ Text.number slotCount.toInt
  | unreadable .missing => "no such file"
  | unreadable .notADirectory => "not a directory"
  | unreadable .tooLong => "file name too long"
  | unreadable .noPath => "not a path"
  | unreadable .isADirectory => "is a directory"
  | unreadable .notText => "the file is not UTF-8 text"
  | badJson => "the text is not the JSON of a value of this type"
  | badToml => "the text is not a configuration"
  | reported _ text => text

/-- The message of a failure: its category, then what happened.  A message
about a configuration text ends its line. -/
def message (f : Failure) : String :=
  f.category.heading ++ f.reason ++ (if f.category = .tomlRead then "\n" else "")

end Failure

end SlotWatch
