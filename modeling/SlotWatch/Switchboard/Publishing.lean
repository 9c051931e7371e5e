import SlotWatch.Switchboard.Registering

/-!
# SlotWatch.Switchboard.Publishing

Delivering payloads.  A publish collects the registrations the event is for and
then comes to them in order.  While it calls one, that listener may use the
switchboard as it likes, so a later one may be gone by the time of its turn; a
registration made meanwhile is not called.

What a listener does is a parameter here (`Invoke`), so that listeners and
publishes need not be defined together; `SlotWatch.Switchboard.Run` ties the
knot.
-/

namespace SlotWatch

/-- How a call of a listener ended. -/
inductive Ending where
  | returned
  | panicked
deriving DecidableEq, Repr

/-- Calling the callback of a registration with a payload. -/
abbrev Invoke (σ ε : Type) :=
  Registration → Payload → Switchboard σ ε → Ending × Switchboard σ ε

namespace Switchboard

/-- Come to a registration that a publish has collected, with `rs` still to come
to; the result is whether it may be called. -/
def comeTo (r : Registration) (rs : List Registration) (b : Switchboard σ ε) :
    Bool × Switchboard σ ε :=
  let (armed, registry) := b.registry.claim r
  (armed, { b with registry, running := rs :: b.running.tail })

/-- The turn of a collected registration: it is called if it still may be.  How a
call ends makes no difference. -/
def turn (invoke : Invoke σ ε) (p : Payload) (r : Registration) (rs : List Registration)
    (b : Switchboard σ ε) : Bool × Switchboard σ ε :=
  let (armed, b) := b.comeTo r rs
  if armed then (true, (invoke r p b).2) else (false, b)

/-- Come to collected registrations in order; the result is the list of those that
were called. -/
def deliverAll (invoke : Invoke σ ε) (p : Payload) :
    List Registration → Switchboard σ ε → List Registration × Switchboard σ ε
  | [], b => ([], b)
  | r :: rs, b =>
    let (called, b) := b.turn invoke p r rs
    let (others, b) := deliverAll invoke p rs b
    (if called then r :: others else others, b)

/-- Check what a publish is given: the payload is of the kind, and the slot, if
one is named and the kind has slots, is one of them. -/
def checkPublish (b : Switchboard σ ε) (kind : Kind) (slot : Option Slot) (p : Payload) :
    Except Failure Unit :=
  if p.kind ≠ kind then .error (.payloadMismatch p.kind kind)
  else
    match slot with
    | some slot => if kind.selectable then b.registry.validateSlot kind slot else .ok ()
    | none => .ok ()

/-- The registrations that an event on a slot is for. -/
def audience (b : Switchboard σ ε) (kind : Kind) (slot : Slot) : List Registration :=
  (b.registry.collect kind slot).deliveries

/-- Begin a publish: collect the registrations it is for, and have the source stop
what nobody observes any more. -/
def launch (S : Source σ ε) (kind : Kind) (slot : Slot) (p : Payload) (b : Switchboard σ ε) :
    Switchboard σ ε :=
  let c := b.registry.collect kind slot
  let b := { b with registry := c.rest, running := c.deliveries :: b.running }
  let b := b.note (.published kind slot p c.deliveries)
  (b.stopAll S c.released).2

/-- End the innermost publish. -/
def land (b : Switchboard σ ε) : Switchboard σ ε :=
  { b with running := b.running.tail }

/-- Deliver a payload to the registrations it is for; the result is how many were
called.  An event without a slot belongs to the default slot. -/
def publish (S : Source σ ε) (invoke : Invoke σ ε) (kind : Kind) (slot : Option Slot)
    (p : Payload) (b : Switchboard σ ε) : Except Failure Nat × Switchboard σ ε :=
  match b.checkPublish kind slot p with
  | .error e => (.error e, b)
  | .ok () =>
    let slot := slot.getD b.registry.defaultSlot
    let (called, after) := deliverAll invoke p (b.audience kind slot) (b.launch S kind slot p)
    (.ok called.length, after.land)

/-- Have the source take in the new state of a slot; the result is the news in it. -/
def report (S : Source σ ε) (slot : Slot) (p : Payload) (b : Switchboard σ ε) :
    Option Payload × Switchboard σ ε :=
  let (news, source) := S.report slot p b.source
  (news, note { b with source } (.updated slot p news))

/-- Give the source the new state of a slot and deliver what is news in it; the
result is how many registrations were called.  Account changes belong to no slot
and are no state: they are only delivered. -/
def update (S : Source σ ε) (invoke : Invoke σ ε) (slot : Slot) (p : Payload)
    (b : Switchboard σ ε) : Except Failure Nat × Switchboard σ ε :=
  if p.kind = .iccAccount then b.publish S invoke .iccAccount none p
  else
    match b.registry.validateSlot p.kind slot with
    | .error e => (.error e, b)
    | .ok () =>
      match b.report S slot p with
      | (none, b) => (.ok 0, b)
      | (some q, b) => b.publish S invoke p.kind (some slot) q

/-- Hand a payload to the callback of a registration: a channel keeps it in its
inbox.  The result is whether a listener may act on it. -/
def hand (r : Registration) (p : Payload) (b : Switchboard σ ε) : Bool × Switchboard σ ε :=
  if r.callback.accepts p then
    let b := b.note (.delivered r p)
    match r.callback with
    | .channel serial _ => (false, b.enqueue serial p)
    | _ => (true, b)
  else (false, b.note (.mismatched r p))

/-- Hand a payload to the callback of a registration; a listener does what `body`
says. -/
def handOver (body : Invoke σ ε) : Invoke σ ε := fun r p b =>
  let (acts, b) := b.hand r p
  if acts then body r p b else (.returned, b)

end Switchboard

end SlotWatch
