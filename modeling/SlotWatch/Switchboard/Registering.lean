import SlotWatch.Switchboard.Basic

/-!
# SlotWatch.Switchboard.Registering

Making and removing registrations, moving the default slot, and the channels.

1. A registration that repeats a live one in kind, selector, callback and mode is
   that one: nothing happens and its id is the result.
2. The source is asked before a registration is made, and told after one has
   been removed.  A removal stands even if the source refuses to stop.
3. The default slot moves only if the source starts everything that is then
   needed; otherwise what was started is taken back.
-/

namespace SlotWatch

namespace Switchboard

/-! ## Making -/

/-- Make a registration; the result is its id. -/
def register (S : Source σ ε) (callback : Callback) (kind : Kind) (options : Option Options)
    (mode : Mode) (b : Switchboard σ ε) : Except Failure Nat × Switchboard σ ε :=
  match b.registry.selector kind options with
  | .error e => (.error e, b)
  | .ok selector =>
    match b.registry.duplicate? kind selector callback mode with
    | some r => (.ok r.id, b)
    | none =>
      match b.ensure S (selector.getD b.registry.defaultSlot, kind) with
      | (.error e, b) => (.error e, b)
      | (.ok (), b) =>
        (.ok b.registry.nextId, { b with registry := b.registry.add kind selector callback mode })

/-- Make a registration for whole payloads, by the name of a kind. -/
def subscribe (S : Source σ ε) (event listener : String) (options : Option Options) (mode : Mode)
    (b : Switchboard σ ε) : Except Failure Nat × Switchboard σ ε :=
  match Named.ofName? Kind event with
  | none => (.error (.unknownEvent event), b)
  | some kind => b.register S (.whole listener) kind options mode

/-! ## Removing -/

/-- Remove the selected registrations; the result is the list of them. -/
def withdraw (S : Source σ ε) (selected : Registration → Bool) (b : Switchboard σ ε) :
    Except Failure (List Registration) × Switchboard σ ε :=
  let w := b.registry.withdraw selected
  let b := note { b with registry := w.rest } (.withdrawn w.removed)
  match b.stopAll S w.released with
  | (.ok (), b) => (.ok w.removed, b)
  | (.error e, b) => (.error e, b)

/-- Remove a callback, or all callbacks, from a kind; the result is how many
registrations that were. -/
def remove (S : Source σ ε) (kind : Kind) (callback : Option Callback) (b : Switchboard σ ε) :
    Except Failure Nat × Switchboard σ ε :=
  let (removed, b) := b.withdraw S fun r => r.kind == kind && callback.all (r.callback == ·)
  (removed.map List.length, b)

/-- Remove a callback for whole payloads, or all callbacks, by the name of a kind. -/
def unsubscribe (S : Source σ ε) (event : String) (listener : Option String)
    (b : Switchboard σ ε) : Except Failure Nat × Switchboard σ ε :=
  match Named.ofName? Kind event with
  | none => (.error (.unknownEvent event), b)
  | some kind => b.remove S kind (listener.map .whole)

/-- Remove one registration; the result is whether there was one. -/
def cancel (S : Source σ ε) (id : Nat) (b : Switchboard σ ε) :
    Except Failure Bool × Switchboard σ ε :=
  let (removed, b) := b.withdraw S (·.id == id)
  (removed.map (!·.isEmpty), b)

/-! ## The default slot -/

/-- Make `slot` the default slot. -/
def setDefault (S : Source σ ε) (slot : Slot) (b : Switchboard σ ε) :
    Except Failure Unit × Switchboard σ ε :=
  if slot < 0 ∨ b.registry.slotCount ≤ slot then
    (.error (.defaultSlotOutOfRange slot b.registry.slotCount), b)
  else if b.registry.defaultSlot = slot then (.ok (), b)
  else
    match b.startAll S [] (b.registry.arrivals slot) with
    | (.error e, b) => (.error e, b)
    | (.ok (), b) =>
      let (registry, left) := b.registry.moveDefault slot
      (.ok (), (stopAll S left { b with registry }).2)

/-! ## Channels -/

/-- Keep an inbox under a name, in place of any other of that name. -/
def keep (name : String) (inbox : Inbox) (b : Switchboard σ ε) : Switchboard σ ε :=
  { b with inboxes := (name, inbox) :: b.inboxes.filter (·.1 != name) }

/-- The inbox of a name. -/
def inbox? (b : Switchboard σ ε) (name : String) : Option Inbox :=
  b.inboxes.lookup name

/-- Open a channel; the result is the id of its registration. -/
def openChannel (S : Source σ ε) (name : String) (kind : Kind) (options : Option Options)
    (b : Switchboard σ ε) : Except Failure Nat × Switchboard σ ε :=
  let serial := b.nextChannel
  match b.register S (.channel serial kind) kind options .repeating with
  | (.error e, b) => (.error e, b)
  | (.ok id, b) => (.ok id, keep name { serial, kind } { b with nextChannel := serial + 1 })

/-- Put a payload into the inbox of a channel.  Without an inbox it is lost. -/
def enqueue (serial : Nat) (p : Payload) (b : Switchboard σ ε) : Switchboard σ ε :=
  { b with
    inboxes := b.inboxes.map fun (name, inbox) =>
      if inbox.serial = serial then (name, { inbox with waiting := inbox.waiting ++ [p] })
      else (name, inbox) }

/-- Whether nothing can follow in an inbox: its channel has no live registration,
and no publish in progress has still to come to it. -/
def closed (b : Switchboard σ ε) (inbox : Inbox) : Bool :=
  let feeding := fun r : Registration => r.callback == .channel inbox.serial inbox.kind
  !b.registry.live.any feeding && !b.running.any (·.any feeding)

/-- Take what waits in the inbox of a name. -/
def receive (name : String) (b : Switchboard σ ε) :
    Option (List Payload × Bool) × Switchboard σ ε :=
  match b.inbox? name with
  | none => (none, b)
  | some inbox =>
    (some (inbox.waiting, b.closed inbox), b.keep name { inbox with waiting := [] })

/-- Give up the inbox of a name; the result is whether there was one. -/
def dropInbox (name : String) (b : Switchboard σ ε) : Bool × Switchboard σ ε :=
  ((b.inbox? name).isSome, { b with inboxes := b.inboxes.filter (·.1 != name) })

end Switchboard

end SlotWatch
