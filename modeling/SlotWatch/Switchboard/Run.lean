import SlotWatch.Switchboard.Publishing

/-!
# SlotWatch.Switchboard.Run

Running a switchboard: performing actions, and listeners that perform actions
when they are called.

Calls of listeners nest: a listener may publish, which calls listeners, and so
on.  `hear` lets listeners act up to a given depth of nesting; called any deeper
they only take the payload.
-/

namespace SlotWatch

/-- What a listener does when a registration is called with a payload, given
everything that happened before. -/
abbrev React (σ ε : Type) := Registration → Payload → Switchboard σ ε → List (Move ε)

namespace Switchboard

/-- The outcome of an operation, given how to put its result. -/
def answered (reply : α → Reply σ) (result : Except Failure α × Switchboard σ ε) :
    Outcome σ × Switchboard σ ε :=
  (result.1.map reply, result.2)

/-- Perform an action. -/
def perform (S : Source σ ε) (invoke : Invoke σ ε) (b : Switchboard σ ε) :
    Action ε → Outcome σ × Switchboard σ ε
  | .on kind listener options mode =>
    answered .id (b.register S (.typed listener kind) kind options mode)
  | .off kind listener => answered .count (b.remove S kind (listener.map (.typed · kind)))
  | .subscribe event listener options mode =>
    answered .id (b.subscribe S event listener options mode)
  | .unsubscribe event listener => answered .count (b.unsubscribe S event listener)
  | .channel name kind options => answered .id (b.openChannel S name kind options)
  | .receive name =>
    let (taken, b) := b.receive name
    (.ok (taken.elim .noInbox fun (payloads, closed) => .received payloads closed), b)
  | .drop name =>
    let (existed, b) := b.dropInbox name
    (.ok (.flag existed), b)
  | .cancel id => answered .flag (b.cancel S id)
  | .publish kind slot p => answered .count (b.publish S invoke kind slot p)
  | .update slot p => answered .count (b.update S invoke slot p)
  | .setDefault slot => answered (fun () => .done) (b.setDefault S slot)
  | .validateSlot kind slot =>
    answered (fun () => .done) (b.registry.validateSlot kind slot, b)
  | .listenerCount kind => (.ok (.count (b.registry.listenerCount kind)), b)
  | .compare x y =>
    let same := Callback.whole x == Callback.whole y
    (.ok (.agreement same same), b)
  | .inspect => (.ok (.state b.registry b.source), b)
  | .source request =>
    let (outcome, source) := S.act request b.source
    (outcome, { b with source })

/-- The outcome of a command: that of its action, if it stands for one. -/
def attempt (S : Source σ ε) (invoke : Invoke σ ε) (c : Command ε) (b : Switchboard σ ε) :
    Outcome σ × Switchboard σ ε :=
  match c.action with
  | .error e => (.error e, b)
  | .ok action => b.perform S invoke action

/-- Carry out a command on behalf of a listener or, without one, from outside. -/
def obey (S : Source σ ε) (invoke : Invoke σ ε) (listener : Option String) (c : Command ε)
    (b : Switchboard σ ε) : Outcome σ × Switchboard σ ε :=
  let (outcome, b) := b.attempt S invoke c
  (outcome, b.note (.did listener c outcome))

/-- The moves of a listener, one after the other. -/
def moveAll (S : Source σ ε) (invoke : Invoke σ ε) (listener : Option String) :
    List (Move ε) → Switchboard σ ε → Ending × Switchboard σ ε
  | [], b => (.returned, b)
  | .panic :: _, b => (.panicked, b)
  | .command c :: ms, b => moveAll S invoke listener ms (b.obey S invoke listener c).2

/-- Call callbacks, with `limit` levels of listeners that act. -/
def hear (S : Source σ ε) (react : React σ ε) : (limit : Nat) → Invoke σ ε
  | 0 => handOver fun _ _ b => (.returned, b)
  | limit + 1 => handOver fun r p b =>
    b.moveAll S (hear S react limit) r.callback.listener? (react r p b)

/-- Carry out a command from outside. -/
def step (S : Source σ ε) (react : React σ ε) (limit : Nat) (c : Command ε)
    (b : Switchboard σ ε) : Outcome σ × Switchboard σ ε :=
  b.obey S (hear S react limit) none c

/-- The switchboard after each of some commands from outside, with the outcomes. -/
def steps (S : Source σ ε) (react : React σ ε) (limit : Nat) :
    List (Command ε) → Switchboard σ ε → List (Outcome σ × Switchboard σ ε)
  | [], _ => []
  | c :: cs, b =>
    let taken := b.step S react limit c
    taken :: steps S react limit cs taken.2

/-- The switchboard after some commands from outside. -/
def run (S : Source σ ε) (react : React σ ε) (limit : Nat) (cs : List (Command ε))
    (b : Switchboard σ ε) : Switchboard σ ε :=
  cs.foldl (fun b c => (b.step S react limit c).2) b

end Switchboard

end SlotWatch
