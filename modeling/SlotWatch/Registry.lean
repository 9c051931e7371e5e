import SlotWatch.Settings
import SlotWatch.Payload

/-!
# SlotWatch.Registry

Who observes what.  A `Registration` ties a callback to a kind of event and,
possibly, to one slot; a `Registry` holds the registrations in the order in which
they were made.

1. A registration without a selector follows the default slot.  The slot that
   the source observes on its behalf (`observed`) is its selector or the default
   slot of the moment.
2. A one-shot registration leaves the live list when a publish collects it and
   waits there until that publish comes to it (`waiting`).
3. A registration is *armed* from the moment it is made until it is removed or,
   if it is a one-shot, until its delivery begins.  Only armed registrations are
   called.

The registry decides; who talks to the source and calls the listeners is the
switchboard (`SlotWatch.Switchboard`).
-/

namespace SlotWatch

/-! ## Registrations -/

/-- What a listener asks for beyond the kind of event. -/
structure Options where
  slot : Slot
deriving DecidableEq, Repr

namespace Options

/-- Field names in writing order. -/
def fieldNames : List String := ["slotId"]

instance : Wire Options where
  write o := .record [("slotId", Wire.write o.slot)]
  read m v := match Json.fields? fieldNames v with
    | some [some slot] => (Wire.read m.inside slot).map Options.mk
    | _ => none

end Options

/-- How long a registration lasts. -/
inductive Mode where
  /-- Until it is removed. -/
  | repeating
  /-- Until its first delivery. -/
  | oneShot
deriving DecidableEq, Repr

instance : Named Mode where
  all := [.repeating, .oneShot]
  name
    | .repeating => "repeating"
    | .oneShot => "oneShot"

/-- The identity of what is called.  A listener has one callback for whole
payloads and one for the values of each kind; every channel has a callback of
its own. -/
inductive Callback where
  | whole (listener : String)
  | typed (listener : String) (kind : Kind)
  | channel (serial : Nat) (kind : Kind)
deriving DecidableEq, Repr

namespace Callback

/-- The listener behind a callback; a channel has none. -/
def listener? : Callback → Option String
  | whole l => some l
  | typed l _ => some l
  | channel _ _ => none

/-- Whether the callback can be handed a payload: a callback for values takes
those of its own kind. -/
def accepts : Callback → Payload → Bool
  | whole _, _ => true
  | typed _ k, p => (p.extract? k).isSome
  | channel _ k, p => (p.extract? k).isSome

end Callback

/-- One registration. -/
structure Registration where
  id : Nat
  kind : Kind
  selector : Option Slot
  observed : Slot
  callback : Callback
  mode : Mode
deriving DecidableEq, Repr

namespace Registration

/-- What the source observes on behalf of the registration. -/
def feed (r : Registration) : Feed := (r.observed, r.kind)

/-- Whether an event on a slot is for the registration.  Account changes belong
to no slot and are for everyone. -/
def hears (r : Registration) (kind : Kind) (slot defaultSlot : Slot) : Bool :=
  r.kind == kind &&
    (!kind.selectable ||
      match r.selector with
      | some selected => selected == slot
      | none => slot == defaultSlot)

/-- Whether the registration follows the default slot, and is not yet on `slot`. -/
def follows (r : Registration) (slot : Slot) : Bool :=
  r.selector.isNone && r.observed != slot

/-- The registration, moved to `slot` if it follows the default slot. -/
def moved (slot : Slot) (r : Registration) : Registration :=
  if r.follows slot then { r with observed := slot } else r

/-- The JSON form of a registration whose id is written as `label`. -/
def toJson (label : Nat → String) (r : Registration) : Json :=
  .record [
    ("id", .str (label r.id)),
    ("kind", Wire.write r.kind),
    ("mask", .int r.kind.mask),
    ("slotId", Wire.write r.selector),
    ("observedSlotId", Wire.write r.observed),
    ("mode", Wire.write r.mode)]

end Registration

/-! ## The registry -/

/-- The registrations of a phone with `slotCount` slots. -/
structure Registry where
  /-- In the order in which they were made. -/
  live : List Registration := []
  /-- One-shots collected by a publish that has not come to them yet. -/
  waiting : List Registration := []
  /-- Ids of the registrations that may still be called. -/
  armed : List Nat := []
  /-- The id of the next registration. -/
  nextId : Nat := 1
  slotCount : Slot
  defaultSlot : Slot
deriving Repr

namespace Registry

/-- A registry without registrations. -/
def ofSettings (s : SlotSettings) : Registry :=
  { slotCount := s.slotCount, defaultSlot := s.defaultSlot }

/-- Number of live registrations of a kind. -/
def listenerCount (g : Registry) (kind : Kind) : Nat :=
  g.live.countP (·.kind == kind)

/-- Whether some live registration has the source observe the feed. -/
def observes (g : Registry) (feed : Feed) : Bool :=
  g.live.any (·.feed == feed)

/-- The feeds among `left` that nobody observes any more. -/
def released (g : Registry) (left : List Feed) : List Feed :=
  Feed.ascending (left.filter fun feed => !g.observes feed)

/-- The registry in a line: how many registrations it has, and its slots. -/
def summary (g : Registry) : String :=
  "ObserverRegistry \x7b subscriptions: " ++ Text.number g.live.length
    ++ ", slot_count: " ++ Text.number g.slotCount.toInt
    ++ ", default_slot_id: " ++ Text.number g.defaultSlot.toInt ++ " \x7d"

/-! ### Slots -/

/-- A slot is valid for a kind from the lowest slot of the kind up to one beyond
the slots of the phone, which stands for a virtual card.  The sum wraps around at
the largest number of slots there can be, for which no slot is valid. -/
def validateSlot (g : Registry) (kind : Kind) (slot : Slot) : Except Failure Unit :=
  if slot < kind.minSlot ∨ g.slotCount + 1 ≤ slot then
    .error (.slotOutOfRange slot kind)
  else .ok ()

/-- The slot a listener selects. -/
def selector (g : Registry) (kind : Kind) : Option Options → Except Failure (Option Slot)
  | none => .ok none
  | some o =>
    if kind.selectable then (g.validateSlot kind o.slot).map fun () => some o.slot
    else .error (.selectorRefused kind)

/-! ### Adding -/

/-- The live registration that a new one would repeat. -/
def duplicate? (g : Registry) (kind : Kind) (selector : Option Slot) (callback : Callback)
    (mode : Mode) : Option Registration :=
  g.live.find? fun r =>
    r.kind == kind && r.selector == selector && r.callback == callback && r.mode == mode

/-- Add a registration at the end. -/
def add (g : Registry) (kind : Kind) (selector : Option Slot) (callback : Callback)
    (mode : Mode) : Registry :=
  let r : Registration :=
    { id := g.nextId, kind, selector, observed := selector.getD g.defaultSlot, callback, mode }
  { g with live := g.live ++ [r], armed := g.nextId :: g.armed, nextId := g.nextId + 1 }

/-! ### Removing -/

/-- What removing some registrations amounts to. -/
structure Withdrawal where
  /-- The removed registrations: live ones, and waiting ones still armed. -/
  removed : List Registration
  /-- The feeds that nobody observes any more. -/
  released : List Feed
  rest : Registry

/-- Remove the selected registrations, live and waiting, and disarm them. -/
def withdraw (g : Registry) (selected : Registration → Bool) : Withdrawal :=
  let left := g.live.filter selected
  let disarmed := g.armed.filter fun id => !left.any (·.id == id)
  let cancelled := g.waiting.filter fun r => selected r && disarmed.contains r.id
  let rest := { g with
    live := g.live.filter fun r => !selected r
    waiting := g.waiting.filter fun r => !selected r
    armed := disarmed.filter fun id => !cancelled.any (·.id == id) }
  ⟨left ++ cancelled, rest.released (left.map (·.feed)), rest⟩

/-! ### Collecting and claiming -/

/-- What a publish starts from. -/
structure Collection where
  /-- The registrations the event is for, in the order in which they were made. -/
  deliveries : List Registration
  /-- The feeds that nobody observes any more once the one-shots have left. -/
  released : List Feed
  rest : Registry

/-- Collect the registrations that an event is for.  One-shots leave the live list
and wait. -/
def collect (g : Registry) (kind : Kind) (slot : Slot) : Collection :=
  let heard := fun r : Registration => r.hears kind slot g.defaultSlot
  let fired := fun r : Registration => heard r && r.mode == .oneShot
  let rest := { g with
    live := g.live.filter fun r => !fired r
    waiting := g.waiting ++ g.live.filter fired }
  ⟨g.live.filter heard, rest.released ((g.live.filter fired).map (·.feed)), rest⟩

/-- Whether a collected registration may be called now.  A one-shot is claimed
by this: it does not wait any longer and will not be called again. -/
def claim (g : Registry) (r : Registration) : Bool × Registry :=
  let armed := g.armed.contains r.id
  match r.mode with
  | .repeating => (armed, g)
  | .oneShot =>
    (armed, { g with
      waiting := g.waiting.filter (·.id != r.id)
      armed := g.armed.filter (· != r.id) })

/-! ### The default slot -/

/-- What the source has to observe on `slot` before it can be the default slot. -/
def arrivals (g : Registry) (slot : Slot) : List Feed :=
  Feed.ascending
    (((g.live.filter (·.follows slot)).map fun r => (slot, r.kind)).filter fun feed =>
      !g.observes feed)

/-- Make `slot` the default slot.  The result has the feeds that were left
behind. -/
def moveDefault (g : Registry) (slot : Slot) : Registry × List Feed :=
  let left := (g.live.filter (·.follows slot)).map (·.feed)
  let rest := { g with live := g.live.map (Registration.moved slot), defaultSlot := slot }
  (rest, rest.released left)

end Registry

end SlotWatch
