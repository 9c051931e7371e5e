import SlotWatch.Registry

/-!
# SlotWatch.Replay.Script

Scripts: lists of steps that are replayed against a phone.  A script is written in
JSON.

1. A step is an object whose member `action` says which step it is, or an array of
   that word and the fields of the step in the declared order.
2. A step is buffered as a whole, so even what is ignored in it must be plain.
3. `options`, `once`, the listener of a removal and the slot of a publish may be
   left out.
-/

namespace SlotWatch

/-- One step of a script. -/
inductive Step where
  | subscribe (event listener : String) (options : Option Options) (once : Bool)
  /-- Remove a listener, or all of them, from an event. -/
  | unsubscribe (event : String) (listener : Option String)
  /-- Report a state of a slot, by default of the default slot. -/
  | publish (slot : Option Slot) (payload : Payload)
  | setDefaultSlot (slot : Slot)
  | grant (permission : String)
  | revoke (permission : String)
  | setConnected (connected : Bool)
deriving DecidableEq, Repr

/-- A list of steps. -/
structure Script where
  steps : List Step
deriving DecidableEq, Repr

namespace Step

/-- The word for a step. -/
def action : Step → String
  | subscribe .. => "subscribe"
  | unsubscribe .. => "unsubscribe"
  | publish .. => "publish"
  | setDefaultSlot _ => "setDefaultSlot"
  | grant _ => "grant"
  | revoke _ => "revoke"
  | setConnected _ => "setConnected"

/-! ## Reading -/

/-- Read the fields of a subscription. -/
def subscribe? (v : Json) : Option Step :=
  match Json.fields? ["event", "listener", "options", "once"] v with
  | some [some event, some listener, options, once] => do
    return .subscribe (← Wire.read .buffered event) (← Wire.read .buffered listener)
      (← readOr .buffered none options) (← readOr .buffered false once)
  | _ => none

/-- Read the fields of a removal. -/
def unsubscribe? (v : Json) : Option Step :=
  match Json.fields? ["event", "listener"] v with
  | some [some event, listener] => do
    return .unsubscribe (← Wire.read .buffered event) (← readOr .buffered none listener)
  | _ => none

/-- Read the fields of a publish. -/
def publish? (v : Json) : Option Step :=
  match Json.fields? ["slotId", "payload"] v with
  | some [slot, some payload] => do
    return .publish (← readOr .buffered none slot) (← Wire.read .buffered payload)
  | _ => none

/-- Read a step that has one field. -/
def single? [Wire α] (field : String) (step : α → Step) (v : Json) : Option Step :=
  match Json.fields? [field] v with
  | some [some value] => (Wire.read .buffered value).map step
  | _ => none

/-- Read the fields of a step, given the word for it. -/
def ofFields? (action : String) (v : Json) : Option Step :=
  match action with
  | "subscribe" => subscribe? v
  | "unsubscribe" => unsubscribe? v
  | "publish" => publish? v
  | "setDefaultSlot" => single? "slotId" setDefaultSlot v
  | "grant" => single? "permission" grant v
  | "revoke" => single? "permission" revoke v
  | "setConnected" => single? "connected" setConnected v
  | _ => none

/-- Read a buffered step. -/
def ofBuffered? : Json → Option Step
  | .object ms =>
    match ms.partition (·.1 == some "action") with
    | ([(_, .string (some action))], fields) => ofFields? action (.object fields)
    | _ => none
  | .array (.string (some action) :: fields) => ofFields? action (.array fields)
  | _ => none

/-- Read a step. -/
def read (m : Json.Manner) (v : Json) : Option Step :=
  (Json.buffer m v).bind ofBuffered?

end Step

namespace Script

/-- The steps of a list of steps. -/
def steps? (m : Json.Manner) : Option Json → Option (List Step)
  | none => some []
  | some (.array vs) => vs.mapM (Step.read m.inside)
  | some _ => none

/-- Read a script.  A script without steps may leave their list out. -/
def read (m : Json.Manner) (v : Json) : Option Script :=
  match Json.fields? ["steps"] v with
  | some [steps] => (steps? m.inside steps).map Script.mk
  | _ => none

/-- Read the text of a script. -/
def ofText? (text : String) : Option Script :=
  (Json.parse text).bind (read (.direct 0))

end Script

end SlotWatch
