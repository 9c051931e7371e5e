import SlotWatch.Replay.Simulation

/-!
# SlotWatch.Replay.Report

The two forms of a report: JSON, and a text for people.  Registrations have ids
without meaning; how an id is written is up to the caller (`label`).
-/

namespace SlotWatch

/-! ## JSON form -/

namespace Delivery

/-- The JSON form of a delivery. -/
def toJson (d : Delivery) : Json :=
  .record [("listener", Wire.write d.listener), ("payload", Wire.write d.payload)]

/-- The line of a delivery: its listener, and its payload in JSON. -/
def line (d : Delivery) : String :=
  "      -> " ++ Text.column 12 d.listener ++ " " ++ Wire.toText d.payload ++ "\n"

end Delivery

namespace StepOutcome

/-- The members that tell of a failure. -/
def failureMembers : Option Failure → List (String × Json)
  | none => []
  | some f => [("code", Wire.write f.code), ("error", .str f.message)]

/-- The JSON form of a step outcome. -/
def toJson (o : StepOutcome) : Json :=
  .record ([("index", .int o.index), ("action", .str o.action)]
    ++ failureMembers o.failure
    ++ [("deliveries", .array (o.deliveries.map Delivery.toJson))])

end StepOutcome

namespace Report

/-- The JSON form of a report. -/
def toJson (label : Nat → String) (r : Report) : Json :=
  .record [
    ("steps", .array (r.steps.map StepOutcome.toJson)),
    ("remainingSubscriptions", .int r.registrations.length),
    ("registrations", .array (r.registrations.map (Registration.toJson label))),
    ("slots", r.slots.toJson)]

end Report

/-! ## Text form -/

/-- A mask in a text: four hexadecimal digits after `0x`. -/
def maskText (mask : Nat) : String := "0x" ++ String.ofList (Text.hex 4 mask)

namespace Mode

/-- The mode in a text. -/
def title : Mode → String
  | repeating => "Repeating"
  | oneShot => "OneShot"

end Mode

namespace StepOutcome

/-- How the step ended. -/
def verdict (o : StepOutcome) : String :=
  match o.failure with
  | none => "ok"
  | some f => "error " ++ Text.number f.code.toInt ++ " (" ++ f.message ++ ")"

/-- The lines of a step. -/
def lines (o : StepOutcome) : String :=
  "[" ++ Text.rightColumn 3 (Text.number o.index) ++ "] " ++ Text.column 15 o.action ++ " "
    ++ o.verdict ++ "\n" ++ String.join (o.deliveries.map Delivery.line)

end StepOutcome

namespace Registration

/-- The line of a registration. -/
def line (label : Nat → String) (r : Registration) : String :=
  let slot := r.selector.elim "default" (Text.number ·.toInt)
  "  " ++ label r.id ++ " " ++ Text.column 36 r.kind.name ++ " mask " ++ maskText r.kind.mask
    ++ " slot " ++ Text.column 8 slot ++ " observed " ++ Text.number r.observed.toInt
    ++ " " ++ r.mode.title ++ "\n"

end Registration

namespace Report

/-- What is known of the slots, if anything is. -/
def slotLines (slots : Cache) : String :=
  if slots.isEmpty then "" else "Slot state:\n" ++ slots.toJson.prettyPrint ++ "\n"

/-- The text of a report. -/
def toText (label : Nat → String) (r : Report) : String :=
  String.join (r.steps.map StepOutcome.lines)
    ++ "\nRemaining subscriptions: " ++ Text.number r.registrations.length ++ "\n"
    ++ String.join (r.registrations.map (Registration.line label))
    ++ slotLines r.slots

end Report

end SlotWatch
