import SlotWatch.Phone
import SlotWatch.Replay.Script
import SlotWatch.Switchboard.Run

/-!
# SlotWatch.Replay.Simulation

Replaying scripts.  A `Simulation` is a switchboard on a phone, with listeners that
do nothing but take payloads; replaying a step gives its outcome and what was
delivered during it.  Steps that fail leave the rest of the script as it is.
-/

namespace SlotWatch

/-- A payload that a listener was handed. -/
structure Delivery where
  listener : String
  payload : Payload
deriving DecidableEq, Repr

/-- What came of a step. -/
structure StepOutcome where
  index : Nat
  action : String
  failure : Option Failure
  deliveries : List Delivery
deriving DecidableEq, Repr

/-- What came of a script, and what there is afterwards. -/
structure Report where
  steps : List StepOutcome
  registrations : List Registration
  slots : Cache
deriving DecidableEq, Repr

/-- A switchboard on a phone, and the listeners that have been mentioned by
subscriptions. -/
structure Simulation where
  board : Switchboard Phone Phone.Control
  known : List String := []

namespace Simulation

/-- A simulation in which nothing has happened. -/
def fresh (settings : SlotSettings) (phone : Phone) : Simulation :=
  { board := .fresh settings phone }

/-- Listeners that do nothing but take payloads. -/
def silent : React Phone Phone.Control := fun _ _ _ => []

/-- What a step asks of the switchboard.  A removal may name only a listener that
has been mentioned. -/
def request (s : Simulation) : Step → Except Failure (Action Phone.Control)
  | .subscribe event listener options once =>
    .ok (.subscribe event listener options (if once then .oneShot else .repeating))
  | .unsubscribe event none => .ok (.unsubscribe event none)
  | .unsubscribe event (some listener) =>
    if s.known.contains listener then .ok (.unsubscribe event (some listener))
    else .error (.unknownListener listener)
  | .publish slot payload => .ok (.update (slot.getD s.board.registry.defaultSlot) payload)
  | .setDefaultSlot slot => .ok (.setDefault slot)
  | .grant permission => .ok (.source (.grant permission))
  | .revoke permission => .ok (.source (.revoke permission))
  | .setConnected connected => .ok (.source (.connected connected))

/-- The listeners that have been mentioned after a step. -/
def knownAfter (s : Simulation) : Step → List String
  | .subscribe _ listener _ _ =>
    if s.known.contains listener then s.known else listener :: s.known
  | _ => s.known

/-- The payloads that listeners were handed, in order. -/
def deliveries (events : List (Event Phone Phone.Control)) : List Delivery :=
  events.filterMap fun
    | .delivered r p => r.callback.listener?.map fun listener => ⟨listener, p⟩
    | _ => none

/-- The failure of an outcome, if it is one. -/
def failure? : Outcome Phone → Option Failure
  | .ok _ => none
  | .error e => some e

/-- Replay a step, the one of this index. -/
def take (s : Simulation) (index : Nat) (step : Step) : StepOutcome × Simulation :=
  let (outcome, board) := s.board.step Phone.source silent 0 ⟨step.action, s.request step⟩
  (⟨index, step.action, failure? outcome, deliveries (s.board.since board)⟩,
    ⟨board, s.knownAfter step⟩)

/-- Replay steps, the first one having this index. -/
def takeAll (s : Simulation) (index : Nat) : List Step → List StepOutcome × Simulation
  | [] => ([], s)
  | step :: steps =>
    let (outcome, s) := s.take index step
    let (outcomes, s) := s.takeAll (index + 1) steps
    (outcome :: outcomes, s)

/-- Replay a script and report. -/
def replay (s : Simulation) (script : Script) : Report × Simulation :=
  let (outcomes, s) := s.takeAll 0 script.steps
  (⟨outcomes, s.board.registry.live, s.board.source.cache⟩, s)

end Simulation

end SlotWatch
