import Mathlib.Data.Finset.Basic
import SlotWatch.Proofs.Roster
import SlotWatch.Replay.Simulation

/-!
# SlotWatch.Proofs.Roll

A replay as one would explain it, without a registry, a source or a trace.

A `Roll` lists who is to be told of what, in the order of asking.  An entry without a
selector stands for the default slot.  Beside the entries a roll has only the default slot,
the permissions of the application, the listeners that have been mentioned and, for each
slot, the last data connection.

1. A subscription is entered once.  If no entry of the kind stands for its slot yet, the
   application has to have access to the kind.
2. An event is for the entries of its kind that stand for its slot; those that are for once
   are struck then.
3. The default slot can move if, for each kind that has an entry without a selector, there
   is an entry for the new slot or the application has access.

`SlotWatch.Proofs.RollCall` shows that simulations do the same.
-/

namespace SlotWatch

/-- Someone who is to be told of something. -/
structure Entry where
  listener : String
  kind : Kind
  selector : Option Slot
  once : Bool
deriving DecidableEq, Repr

namespace Entry

/-- The slot that an entry stands for. -/
def slot (defaultSlot : Slot) (e : Entry) : Slot := e.selector.getD defaultSlot

/-- How long a registration for the entry lasts. -/
def mode (e : Entry) : Mode := if e.once then .oneShot else .repeating

/-- What a registration for the entry is made for. -/
def terms (e : Entry) : Kind × Option Slot × Callback × Mode :=
  (e.kind, e.selector, .whole e.listener, e.mode)

/-- A registration is for an entry if it has its kind, selector, listener and mode. -/
@[simp] theorem terms_eq_iff {r : Registration} {e : Entry} :
    r.terms = e.terms ↔
      r.kind = e.kind ∧ r.selector = e.selector ∧ r.callback = .whole e.listener ∧
        r.mode = e.mode := by
  simp [Registration.terms, terms]

/-- Entries that differ make different registrations. -/
theorem terms_injective : Function.Injective terms := by
  rintro ⟨l, k, s, o⟩ ⟨l', k', s', o'⟩ h
  simp only [terms, mode, Prod.mk.injEq, Callback.whole.injEq] at h
  obtain ⟨rfl, rfl, rfl, hmode⟩ := h
  cases o <;> cases o' <;> first | rfl | simp at hmode

end Entry

/-- What does not change in a replay: the number of slots, and whether the application is
a system application. -/
structure Premises where
  slotCount : Slot
  systemApp : Bool

/-- Who is to be told of what. -/
structure Roll where
  entries : List Entry := []
  defaultSlot : Slot
  granted : Finset String
  mentioned : Finset String := ∅
  connections : Slot → Option State.DataConnection := fun _ => none

namespace Roll

variable {pr : Premises} {roll : Roll} {q : Payload}

/-- A roll without entries. -/
def blank (settings : SlotSettings) (grants : List String) : Roll :=
  { defaultSlot := settings.defaultSlot, granted := grants.toFinset }

/-! ## checks -/

/-- Check that there is a kind of a name. -/
def kindOf (event : String) : Except Failure Kind :=
  match Named.ofName? Kind event with
  | some kind => .ok kind
  | none => .error (.unknownEvent event)

/-- Check that a listener has been mentioned, if one is named. -/
def checkMentioned (roll : Roll) : Option String → Except Failure Unit
  | none => .ok ()
  | some l => if l ∈ roll.mentioned then .ok () else .error (.unknownListener l)

/-- Check that a slot is in the range of a kind, which ends one beyond the slots of the
phone. -/
def checkSlot (pr : Premises) (kind : Kind) (slot : Slot) : Except Failure Unit :=
  if kind.minSlot ≤ slot ∧ slot < pr.slotCount + 1 then .ok ()
  else .error (.slotOutOfRange slot kind)

/-- Check what a listener selects. -/
def checkOptions (pr : Premises) (kind : Kind) : Option Options → Except Failure Unit
  | none => .ok ()
  | some o =>
    if kind.selectable then checkSlot pr kind o.slot else .error (.selectorRefused kind)

/-- Check that the application has access to a kind. -/
def checkAccess (pr : Premises) (roll : Roll) (kind : Kind) : Except Failure Unit :=
  if kind.systemOnly && !pr.systemApp then .error (.reservedForSystem kind)
  else
    match kind.permissions.find? (· ∉ roll.granted) with
    | some permission => .error (.missingPermission permission)
    | none => .ok ()

/-- Whether an entry of a kind stands for a slot. -/
def covers (roll : Roll) (kind : Kind) (slot : Slot) : Bool :=
  roll.entries.any fun e => e.kind = kind ∧ e.slot roll.defaultSlot = slot

/-- Check that a kind is observed on a slot, or can be. -/
def checkCover (pr : Premises) (roll : Roll) (kind : Kind) (slot : Slot) :
    Except Failure Unit :=
  if roll.covers kind slot then .ok () else roll.checkAccess pr kind

/-! ## entries -/

/-- Enter a listener for a kind, unless it has been entered. -/
def enter (pr : Premises) (kind : Kind) (listener : String) (options : Option Options)
    (once : Bool) (roll : Roll) : Except Failure Roll := do
  checkOptions pr kind options
  let e : Entry := { listener, kind, selector := options.map (·.slot), once }
  if e ∈ roll.entries then return roll
  roll.checkCover pr kind (e.slot roll.defaultSlot)
  return { roll with entries := roll.entries ++ [e] }

section
variable {kind : Kind} {listener : String} {options : Option Options} {once : Bool}

/-- A selector that is not in order is refused before anything else. -/
theorem enter_of_unfit {failure : Failure} (h : checkOptions pr kind options = .error failure) :
    roll.enter pr kind listener options once = .error failure := by
  unfold enter
  rw [h]
  rfl

/-- Nobody is entered twice. -/
theorem enter_of_entered (h : checkOptions pr kind options = .ok ())
    (he : ⟨listener, kind, options.map (·.slot), once⟩ ∈ roll.entries) :
    roll.enter pr kind listener options once = .ok roll := by
  unfold enter
  rw [h]
  exact if_pos he

/-- A new entry needs cover for its slot, and is put at the end. -/
theorem enter_of_new (h : checkOptions pr kind options = .ok ()) {e : Entry}
    (heq : e = ⟨listener, kind, options.map (·.slot), once⟩) (he : e ∉ roll.entries) :
    roll.enter pr kind listener options once =
      (roll.checkCover pr kind (e.slot roll.defaultSlot)).map fun () =>
        { roll with entries := roll.entries ++ [e] } := by
  subst heq
  unfold enter
  rw [h]
  refine (if_neg he).trans ?_
  cases roll.checkCover pr kind (Entry.slot roll.defaultSlot _) <;> rfl

end

/-- Strike the entries of a kind, or those of one listener. -/
def strike (kind : Kind) (listener : Option String) (roll : Roll) : Roll :=
  { roll with
    entries := roll.entries.filter fun e =>
      !(e.kind == kind && listener.all (e.listener == ·)) }

/-! ## events -/

/-- Tell the entries that an event is for, and strike those that are for once. -/
def tell (q : Payload) (addressed : Entry → Bool) (roll : Roll) : List Delivery × Roll :=
  ((roll.entries.filter addressed).map fun e => ⟨e.listener, q⟩,
    { roll with entries := roll.entries.filter fun e => !(addressed e && e.once) })

/-- What the application may be told of a report. -/
def disclose (roll : Roll) : Payload → Payload
  | .callState c =>
    .callState (if Permission.readCallLog ∈ roll.granted then c else c.masked)
  | q => q

theorem kind_disclose (q : Payload) : (roll.disclose q).kind = q.kind := by
  cases q <;> rfl

/-- Whether a report says nothing new. -/
def repeats (roll : Roll) (slot : Slot) : Payload → Bool
  | .dataConnection d => roll.connections slot = some d
  | _ => false

/-- Remember a report: only data connections are. -/
def remember (slot : Slot) (q : Payload) (roll : Roll) : Roll :=
  match q with
  | .dataConnection d =>
    { roll with connections := fun s => if s = slot then some d else roll.connections s }
  | _ => roll

@[simp] theorem entries_remember (slot : Slot) (q : Payload) (roll : Roll) :
    (roll.remember slot q).entries = roll.entries := by
  cases q <;> rfl

@[simp] theorem defaultSlot_remember (slot : Slot) (q : Payload) (roll : Roll) :
    (roll.remember slot q).defaultSlot = roll.defaultSlot := by
  cases q <;> rfl

@[simp] theorem mentioned_remember (slot : Slot) (q : Payload) (roll : Roll) :
    (roll.remember slot q).mentioned = roll.mentioned := by
  cases q <;> rfl

/-- Tell of a report.  Account changes belong to no slot. -/
def publish (pr : Premises) (slot : Option Slot) (q : Payload) (roll : Roll) :
    Except Failure (List Delivery × Roll) := do
  if q.kind = .iccAccount then return roll.tell q fun e => e.kind = .iccAccount
  let slot := slot.getD roll.defaultSlot
  checkSlot pr q.kind slot
  if roll.repeats slot q then return ([], roll)
  return (roll.remember slot q).tell (roll.disclose q) fun e =>
    e.kind = q.kind ∧ e.slot roll.defaultSlot = slot

/-- A report of a slot is checked, then remembered, then told. -/
theorem publish_eq (hkind : q.kind ≠ .iccAccount) (slot : Option Slot) :
    roll.publish pr slot q =
      (checkSlot pr q.kind (slot.getD roll.defaultSlot)).map fun () =>
        if roll.repeats (slot.getD roll.defaultSlot) q then ([], roll)
        else (roll.remember (slot.getD roll.defaultSlot) q).tell (roll.disclose q) fun e =>
          e.kind = q.kind ∧ e.slot roll.defaultSlot = slot.getD roll.defaultSlot := by
  unfold publish
  rw [if_neg hkind]
  dsimp only
  cases checkSlot pr q.kind (slot.getD roll.defaultSlot) with
  | error e => rfl
  | ok => cases roll.repeats (slot.getD roll.defaultSlot) q <;> rfl

/-! ## the default slot -/

/-- The kinds of which there are entries that follow the default slot. -/
def following (roll : Roll) : List Kind :=
  Kind.all.filter fun kind => roll.entries.any fun e => e.kind = kind ∧ e.selector = none

/-- Move the default slot. -/
def moveDefault (pr : Premises) (slot : Slot) (roll : Roll) : Except Failure Roll := do
  if slot < 0 ∨ pr.slotCount ≤ slot then
    throw (.defaultSlotOutOfRange slot pr.slotCount)
  forM roll.following fun kind => roll.checkCover pr kind slot
  return { roll with defaultSlot := slot }

/-- Access is asked for where there is no cover. -/
theorem forM_checkCover (kinds : List Kind) (slot : Slot) :
    (forM kinds fun kind => roll.checkCover pr kind slot) =
      forM (kinds.filter fun kind => !roll.covers kind slot) (roll.checkAccess pr) := by
  induction kinds with
  | nil => rfl
  | cons kind kinds ih =>
      have hfirst : roll.checkCover pr kind slot =
          if roll.covers kind slot then .ok () else roll.checkAccess pr kind := rfl
      rw [List.forM_cons, ih, hfirst, List.filter_cons]
      cases roll.covers kind slot <;> rfl

/-- The default slot does not leave the phone. -/
theorem moveDefault_of_outside {slot : Slot} (h : slot < 0 ∨ pr.slotCount ≤ slot) :
    roll.moveDefault pr slot = .error (.defaultSlotOutOfRange slot pr.slotCount) := by
  unfold moveDefault
  rw [if_pos h]
  rfl

/-- The default slot moves if there is access to every kind that is not covered there. -/
theorem moveDefault_of_inside {slot : Slot} (h : ¬ (slot < 0 ∨ pr.slotCount ≤ slot)) :
    roll.moveDefault pr slot =
      (forM (roll.following.filter fun kind => !roll.covers kind slot)
        (roll.checkAccess pr)).map fun () => { roll with defaultSlot := slot } := by
  unfold moveDefault
  rw [if_neg h, ← forM_checkCover]
  cases (forM roll.following fun kind => roll.checkCover pr kind slot) <;> rfl

/-! ## steps -/

/-- What becomes of a step: a failure, or what is delivered and the roll afterwards.
Nothing is said of connections that are lost. -/
def respond (pr : Premises) (roll : Roll) : Step → Except Failure (List Delivery × Roll)
  | .subscribe event listener options once => do
    let kind ← kindOf event
    (roll.enter pr kind listener options once).map ([], ·)
  | .unsubscribe event listener => do
    roll.checkMentioned listener
    let kind ← kindOf event
    return ([], roll.strike kind listener)
  | .publish slot q => roll.publish pr slot q
  | .setDefaultSlot slot => (roll.moveDefault pr slot).map ([], ·)
  | .grant permission => .ok ([], { roll with granted := insert permission roll.granted })
  | .revoke permission => .ok ([], { roll with granted := roll.granted.erase permission })
  | .setConnected _ => .ok ([], roll)

/-- Note the listener that a subscription mentions. -/
def mention (roll : Roll) : Step → Roll
  | .subscribe _ listener _ _ => { roll with mentioned := insert listener roll.mentioned }
  | _ => roll

/-- Take a step, the one of this index.  One that fails changes no entry. -/
def take (pr : Premises) (index : Nat) (step : Step) (roll : Roll) : StepOutcome × Roll :=
  match (roll.mention step).respond pr step with
  | .error e => (⟨index, step.action, some e, []⟩, roll.mention step)
  | .ok (deliveries, after) => (⟨index, step.action, none, deliveries⟩, after)

/-- Take steps, the first one having this index. -/
def takeAll (pr : Premises) (index : Nat) : List Step → Roll → List StepOutcome × Roll
  | [], roll => ([], roll)
  | step :: steps, roll =>
    let (outcome, roll) := roll.take pr index step
    let (outcomes, roll) := takeAll pr (index + 1) steps roll
    (outcome :: outcomes, roll)

end Roll

end SlotWatch
