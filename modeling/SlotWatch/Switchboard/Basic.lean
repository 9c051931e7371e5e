import SlotWatch.Registry

/-!
# SlotWatch.Switchboard.Basic

The switchboard connects a state source with the listeners of a registry.  This
module has its state, the interface of a source, and what callers can ask for.

* A `Source` is told when the first listener of a feed arrives and when the last
  one leaves; it may refuse either.  It also takes in new states and says what of
  them is news.
* A `Switchboard` is a registry, the state of a source, the publishes in
  progress, the inboxes of channels, and a trace of everything that happened.
* An `Action` is one thing to ask for, a `Command` an action as a caller gave
  it, and a `Move` what a listener does when it is called: a command, or giving
  up in a panic.

`σ` is the state of the source, and `ε` what can be asked of it beyond feeds.
-/

namespace SlotWatch

/-! ## Sources -/

/-- What a source is asked about a feed. -/
inductive Request where
  /-- The first listener has arrived. -/
  | start
  /-- The last listener has left. -/
  | stop
deriving DecidableEq, Repr

instance : Named Request where
  all := [.start, .stop]
  name
    | .start => "start"
    | .stop => "stop"

/-- What a caller is told when an action has succeeded. -/
inductive Reply (σ : Type) where
  | done
  | flag (holds : Bool)
  | count (n : Nat)
  /-- The id of a registration. -/
  | id (n : Nat)
  /-- What waited in the inbox of a channel, and whether nothing can follow. -/
  | received (payloads : List Payload) (closed : Bool)
  /-- There is no such inbox. -/
  | noInbox
  /-- Whether two callbacks are equal, and whether their identities are. -/
  | agreement (callbacks identities : Bool)
  | state (registry : Registry) (source : σ)

/-- The outcome of an action. -/
abbrev Outcome (σ : Type) := Except Failure (Reply σ)

/-- A source of telephony state. -/
structure Source (σ ε : Type) where
  start : Feed → σ → Except Failure Unit × σ
  stop : Feed → σ → Except Failure Unit × σ
  /-- Take in the new state of a slot.  The result is what its listeners are to
  be told, if anything. -/
  report : Slot → Payload → σ → Option Payload × σ
  /-- Anything else that can be asked of the source. -/
  act : ε → σ → Outcome σ × σ

namespace Source

/-- Put a request to the source. -/
def answer (S : Source σ ε) (request : Request) (feed : Feed) (s : σ) : Except Failure Unit × σ :=
  match request with
  | .start => S.start feed s
  | .stop => S.stop feed s

end Source

/-! ## Actions -/

/-- What can be asked of a switchboard. -/
inductive Action (ε : Type) where
  /-- Register a listener for the values of a kind. -/
  | on (kind : Kind) (listener : String) (options : Option Options) (mode : Mode)
  /-- Remove a listener, or all callbacks, from a kind. -/
  | off (kind : Kind) (listener : Option String)
  /-- Register a listener for whole payloads, by the name of a kind. -/
  | subscribe (event listener : String) (options : Option Options) (mode : Mode)
  /-- Remove a listener for whole payloads, or all callbacks, by the name of a kind. -/
  | unsubscribe (event : String) (listener : Option String)
  /-- Open a channel whose inbox is kept under a name. -/
  | channel (name : String) (kind : Kind) (options : Option Options)
  /-- Take what waits in an inbox. -/
  | receive (name : String)
  /-- Give up an inbox. -/
  | drop (name : String)
  /-- Remove one registration. -/
  | cancel (id : Nat)
  /-- Deliver a payload; without a slot it belongs to the default slot. -/
  | publish (kind : Kind) (slot : Option Slot) (payload : Payload)
  /-- Give the source the new state of a slot. -/
  | update (slot : Slot) (payload : Payload)
  | setDefault (slot : Slot)
  | validateSlot (kind : Kind) (slot : Slot)
  | listenerCount (kind : Kind)
  /-- Compare the callbacks of two listeners for whole payloads. -/
  | compare (a b : String)
  /-- Look at the registry and the source. -/
  | inspect
  | source (request : ε)

/-- An action as a caller gave it: the word for it, and the action it stands for
or why it stands for none. -/
structure Command (ε : Type) where
  word : String
  action : Except Failure (Action ε)

/-- What a listener does when it is called. -/
inductive Move (ε : Type) where
  | command (c : Command ε)
  /-- The listener gives up: none of its further moves is made. -/
  | panic

/-! ## The switchboard -/

/-- Something that happened. -/
inductive Event (σ ε : Type) where
  /-- A request was put to the source. -/
  | asked (request : Request) (feed : Feed) (answer : Except Failure Unit)
  /-- The source took in a new state, and this was the news in it. -/
  | updated (slot : Slot) (payload : Payload) (news : Option Payload)
  /-- A publish began, with these registrations to call. -/
  | published (kind : Kind) (slot : Slot) (payload : Payload) (called : List Registration)
  /-- A callback was handed a payload. -/
  | delivered (r : Registration) (payload : Payload)
  /-- A callback was due that cannot be handed the payload. -/
  | mismatched (r : Registration) (payload : Payload)
  /-- Registrations were removed. -/
  | withdrawn (removed : List Registration)
  /-- A command was completed, by a listener or, without one, from outside. -/
  | did (listener : Option String) (command : Command ε) (outcome : Outcome σ)

/-- The receiving end of a channel. -/
structure Inbox where
  /-- The channel that feeds it. -/
  serial : Nat
  kind : Kind
  /-- What has arrived and has not been taken yet. -/
  waiting : List Payload := []
deriving DecidableEq, Repr

/-- A registry at work. -/
structure Switchboard (σ ε : Type) where
  registry : Registry
  source : σ
  /-- What happened, latest first. -/
  trace : List (Event σ ε) := []
  /-- What the publishes in progress have not come to yet, innermost first. -/
  running : List (List Registration) := []
  /-- The inboxes in use, by name. -/
  inboxes : List (String × Inbox) := []
  /-- The number of the next channel. -/
  nextChannel : Nat := 0

namespace Switchboard

/-- A switchboard on which nothing has happened. -/
def fresh (settings : SlotSettings) (source : σ) : Switchboard σ ε :=
  { registry := .ofSettings settings, source }

/-- Put an event on the trace. -/
def note (b : Switchboard σ ε) (e : Event σ ε) : Switchboard σ ε :=
  { b with trace := e :: b.trace }

/-- What happened on the way from `earlier` to `later`, in order. -/
def since (earlier later : Switchboard σ ε) : List (Event σ ε) :=
  (later.trace.take (later.trace.length - earlier.trace.length)).reverse

/-! ### Requests to the source -/

/-- Put a request to the source. -/
def ask (S : Source σ ε) (request : Request) (feed : Feed) (b : Switchboard σ ε) :
    Except Failure Unit × Switchboard σ ε :=
  let (answer, source) := S.answer request feed b.source
  (answer, note { b with source } (.asked request feed answer))

/-- Stop feeds one after the other, up to the first refusal. -/
def stopAll (S : Source σ ε) : List Feed → Switchboard σ ε → Except Failure Unit × Switchboard σ ε
  | [], b => (.ok (), b)
  | feed :: feeds, b =>
    match b.ask S .stop feed with
    | (.ok (), b) => stopAll S feeds b
    | (.error e, b) => (.error e, b)

/-- Stop feeds whose starts are taken back, whatever the source answers. -/
def takeBack (S : Source σ ε) (feeds : List Feed) (b : Switchboard σ ε) : Switchboard σ ε :=
  feeds.foldl (fun b feed => (b.ask S .stop feed).2) b

/-- Start feeds one after the other.  At the first refusal the starts made so far,
`started`, are taken back in their order. -/
def startAll (S : Source σ ε) (started : List Feed) :
    List Feed → Switchboard σ ε → Except Failure Unit × Switchboard σ ε
  | [], b => (.ok (), b)
  | feed :: feeds, b =>
    match b.ask S .start feed with
    | (.ok (), b) => startAll S (started ++ [feed]) feeds b
    | (.error e, b) => (.error e, b.takeBack S started)

/-- Have the source observe a feed. -/
def ensure (S : Source σ ε) (feed : Feed) (b : Switchboard σ ε) :
    Except Failure Unit × Switchboard σ ε :=
  if b.registry.observes feed then (.ok (), b) else b.ask S .start feed

end Switchboard

end SlotWatch
