import Mathlib.Logic.Relation
import SlotWatch.Proofs.Moment
import SlotWatch.Proofs.Publishing
import SlotWatch.Proofs.Registering

/-!
# SlotWatch.Proofs.Advance

A run, one step at a time.  While publishes are in progress a switchboard knows what
each of them has still to come to (`running`), so a run is a sequence of small steps
from board to board:

1. a command that calls nobody is carried out (`obey`);
2. the source takes in a state (`report`);
3. a publish begins (`launch`), passes over a registration (`skip`), calls one (`call`)
   and ends (`land`);
4. a command that has published is completed (`remark`).

`Advance` is one such step.  Every moment of a run is reached by steps
(`Moment.reaches`), so what every step preserves holds at every moment (`Kept.moment`).
-/

namespace SlotWatch

variable {σ ε : Type}

/-- Whether an action calls nobody. -/
def Action.quiet : Action ε → Bool
  | .publish .. | .update .. => false
  | _ => true

/-- Whether a command calls nobody. -/
def Command.quiet (c : Command ε) : Bool :=
  match c.action with
  | .ok a => a.quiet
  | .error _ => true

theorem Command.quiet_of_action {c : Command ε} {a : Action ε} (hc : c.action = .ok a) :
    c.quiet = a.quiet := by
  rw [Command.quiet, hc]

/-- Whether an action asks for the removal of a registration. -/
def Action.removes (r : Registration) : Action ε → Prop
  | .off kind listener => r.kind = kind ∧ ∀ l, listener = some l → r.callback = .typed l kind
  | .unsubscribe event listener =>
      Named.ofName? Kind event = some r.kind ∧ ∀ l, listener = some l → r.callback = .whole l
  | .cancel id => r.id = id
  | _ => False

/-- Whether a command asks for the removal of a registration. -/
def Command.removes (r : Registration) (c : Command ε) : Prop :=
  ∃ a, c.action = .ok a ∧ a.removes r

/-- A command that asks for a removal calls nobody. -/
theorem Command.quiet_of_removes {r : Registration} {c : Command ε} (h : c.removes r) :
    c.quiet = true := by
  obtain ⟨a, ha, hremoves⟩ := h
  unfold Command.quiet
  rw [ha]
  cases a <;> first | rfl | contradiction

/-- Whether the callback takes the payloads of a kind. -/
def Callback.suits : Callback → Kind → Prop
  | whole _, _ => True
  | typed _ k, kind => k = kind
  | channel _ k, kind => k = kind

/-- Whether an event tells of nothing that happened to registrations or feeds. -/
def Event.isRemark : Event σ ε → Bool
  | .updated .. | .did .. => true
  | _ => false

theorem grant?_of_isRemark {e : Event σ ε} (he : e.isRemark = true) (feed : Feed) :
    e.grant? feed = none := by
  cases e <;> first | rfl | contradiction

namespace Switchboard

/-- One step of a run. -/
inductive Advance (S : Source σ ε) : Switchboard σ ε → Switchboard σ ε → Prop where
  | obey (invoke : Invoke σ ε) (l : Option String) (c : Command ε) (hc : c.quiet = true)
      (b : Switchboard σ ε) : Advance S b (b.obey S invoke l c).2
  | report (slot : Slot) (p : Payload) (b : Switchboard σ ε) :
      Advance S b (b.report S slot p).2
  | launch (slot : Slot) (hp : p.kind = kind) (b : Switchboard σ ε) :
      Advance S b (b.launch S kind slot p)
  | skip (hr : b.running = (r :: rs) :: rest) (ha : (b.comeTo r rs).1 = false) :
      Advance S b (b.comeTo r rs).2
  | call (hr : b.running = (r :: rs) :: rest) (ha : (b.comeTo r rs).1 = true)
      (hk : r.kind = p.kind) : Advance S b ((b.comeTo r rs).2.hand r p).2
  | land (hr : b.running = [] :: rest) : Advance S b b.land
  | remark (l : Option String) (c : Command ε) (o : Outcome σ) (hc : c.quiet = false)
      (b : Switchboard σ ε) : Advance S b (b.note (.did l c o))

/-- Any number of steps. -/
abbrev Reaches (S : Source σ ε) : Switchboard σ ε → Switchboard σ ε → Prop :=
  Relation.ReflTransGen (Advance S)

variable {S : Source σ ε}

/-! ## what a step can do to registrations -/

/-- Boards that differ at most in the source, the inboxes and the channels. -/
structure Alike (b b' : Switchboard σ ε) : Prop where
  registry : b'.registry = b.registry
  running : b'.running = b.running
  trace : b'.trace = b.trace

theorem Alike.refl (b : Switchboard σ ε) : Alike b b := ⟨rfl, rfl, rfl⟩

/-- What a command that calls nobody can do, given which registrations it asks to be
removed. -/
inductive Change (S : Source σ ε) (removes : Registration → Prop) (b : Switchboard σ ε) :
    Switchboard σ ε → Prop where
  | nothing (hn : ∀ r, ¬ removes r) (h : Alike b b') : Change S removes b b'
  | register (callback : Callback) (kind : Kind) (hc : callback.suits kind)
      (hn : ∀ r, ¬ removes r) (h : Alike (b.register S callback kind options mode).2 b') :
      Change S removes b b'
  | withdraw (hs : ∀ r, selected r = true ↔ removes r)
      (h : Alike (b.withdraw S selected).2 b') : Change S removes b b'
  | setDefault (hn : ∀ r, ¬ removes r) (h : Alike (b.setDefault S slot).2 b') :
      Change S removes b b'

/-- A channel is a registration with an inbox. -/
theorem alike_openChannel (name : String) (kind : Kind) (options : Option Options)
    (b : Switchboard σ ε) :
    Alike (b.register S (.channel b.nextChannel kind) kind options .repeating).2
      (b.openChannel S name kind options).2 := by
  unfold openChannel
  simp only
  rcases b.register S (.channel b.nextChannel kind) kind options .repeating with ⟨_ | _, b'⟩
  · exact .refl b'
  · exact ⟨rfl, rfl, rfl⟩

/-- A channel is opened if its registration is made. -/
theorem openChannel_outcome (name : String) (kind : Kind) (options : Option Options)
    (b : Switchboard σ ε) :
    (b.openChannel S name kind options).1 =
      (b.register S (.channel b.nextChannel kind) kind options .repeating).1 := by
  unfold openChannel
  simp only
  rcases b.register S (.channel b.nextChannel kind) kind options .repeating with ⟨_ | _, b'⟩ <;> rfl

/-- Taking what waits in an inbox is no matter of registrations. -/
theorem alike_receive (name : String) (b : Switchboard σ ε) : Alike b (b.receive name).2 := by
  unfold receive
  split <;> exact ⟨rfl, rfl, rfl⟩

/-- A name that is known makes a registration, and any other does nothing. -/
theorem change_subscribe {removes : Registration → Prop} (hn : ∀ r, ¬ removes r)
    (event listener : String) (options : Option Options) (mode : Mode) (b : Switchboard σ ε) :
    Change S removes b (b.subscribe S event listener options mode).2 := by
  unfold subscribe
  split
  · exact .nothing hn (.refl b)
  · next kind _ => exact .register (.whole listener) kind trivial hn (.refl _)

/-- A name that is known removes what its kind has, and any other does nothing. -/
theorem change_unsubscribe (event : String) (listener : Option String) (b : Switchboard σ ε) :
    Change S (fun r => (Action.unsubscribe event listener : Action ε).removes r) b
      (b.unsubscribe S event listener).2 := by
  simp only [unsubscribe, Action.removes]
  split
  · next hkind => exact .nothing (by simp [hkind]) (.refl b)
  · next kind hkind =>
      refine .withdraw (fun r => ?_) (.refl _)
      rw [hkind, Option.some.injEq, eq_comm (a := kind)]
      cases listener <;> simp

/-- What calls nobody makes a registration, removes some, moves the default slot or does none of
it. -/
theorem change_perform (invoke : Invoke σ ε) (b : Switchboard σ ε) {a : Action ε}
    (ha : a.quiet = true) : Change S (fun r => a.removes r) b (b.perform S invoke a).2 := by
  cases a with
  | on kind listener options mode =>
      exact .register (.typed listener kind) kind rfl (fun _ => id) (.refl _)
  | off kind listener =>
      refine .withdraw (fun r => ?_) (.refl _)
      unfold Action.removes
      cases listener <;> simp
  | subscribe => exact change_subscribe (fun _ => id) _ _ _ _ b
  | unsubscribe event listener => exact change_unsubscribe event listener b
  | channel name kind options =>
      exact .register (.channel b.nextChannel kind) kind rfl (fun _ => id)
        (alike_openChannel name kind options b)
  | receive name => exact .nothing (fun _ => id) (alike_receive name b)
  | drop => exact .nothing (fun _ => id) ⟨rfl, rfl, rfl⟩
  | cancel n =>
      refine .withdraw (fun r => ?_) (.refl _)
      unfold Action.removes
      exact beq_iff_eq
  | publish => contradiction
  | update => contradiction
  | setDefault => exact .setDefault (fun _ => id) (.refl _)
  | validateSlot | listenerCount | compare | inspect =>
      exact .nothing (fun _ => id) (.refl b)
  | source => exact .nothing (fun _ => id) ⟨rfl, rfl, rfl⟩

/-- A command that calls nobody makes a change, and none if it stands for no action. -/
theorem change_attempt (invoke : Invoke σ ε) (b : Switchboard σ ε) {c : Command ε}
    (hc : c.quiet = true) : Change S (fun r => c.removes r) b (b.attempt S invoke c).2 := by
  unfold Command.quiet at hc
  unfold attempt
  split at hc
  · next a ha =>
      have hremoves : (fun r => c.removes r) = fun r => a.removes r := by
        funext r
        simp [Command.removes, ha]
      rw [ha, hremoves]
      exact change_perform invoke b hc
  · next e ha =>
      rw [ha]
      exact .nothing (by simp [Command.removes, ha]) (.refl b)

/-- A command does what the action does that it stands for, and is put on the trace. -/
theorem obey_of_action {c : Command ε} {a : Action ε} (hc : c.action = .ok a)
    (invoke : Invoke σ ε) (l : Option String) (b : Switchboard σ ε) :
    b.obey S invoke l c = ((b.perform S invoke a).1,
      (b.perform S invoke a).2.note (.did l c (b.perform S invoke a).1)) := by
  simp only [obey, attempt, hc]

/-- A command that stands for no action fails for that reason. -/
theorem obey_of_error {c : Command ε} {e : Failure} (hc : c.action = .error e)
    (invoke : Invoke σ ε) (l : Option String) (b : Switchboard σ ε) :
    b.obey S invoke l c = (.error e, b.note (.did l c (.error e))) := by
  simp only [obey, attempt, hc]

/-- Being called leaves a mark on the trace; for the rest only inboxes change. -/
theorem alike_hand (r : Registration) (p : Payload) (b : Switchboard σ ε) :
    Alike (b.note (r.handed p)) (b.hand r p).2 := by
  unfold hand Registration.handed
  split
  · split <;> exact ⟨rfl, rfl, rfl⟩
  · exact .refl _

/-! ## what every step preserves -/

/-- What a property has to satisfy to hold at every moment of a run, once it holds at
the start. -/
structure Kept (S : Source σ ε) (P : Switchboard σ ε → Prop) : Prop where
  alike {b b'} : Alike b b' → P b → P b'
  remark {b} (e : Event σ ε) : e.isRemark = true → P b → P (b.note e)
  register {b callback kind options mode} : callback.suits kind → P b →
    P (b.register S callback kind options mode).2
  withdraw {b} (selected) : P b → P (b.withdraw S selected).2
  setDefault {b} (slot) : P b → P (b.setDefault S slot).2
  launch {b kind p} (slot) : p.kind = kind → P b → P (b.launch S kind slot p)
  skip {b r rs rest} : b.running = (r :: rs) :: rest → (b.comeTo r rs).1 = false → P b →
    P (b.comeTo r rs).2
  call {b r rs rest p} : b.running = (r :: rs) :: rest → (b.comeTo r rs).1 = true →
    r.kind = p.kind → P b → P ((b.comeTo r rs).2.note (r.handed p))
  land {b rest} : b.running = [] :: rest → P b → P b.land

namespace Kept

variable {P : Switchboard σ ε → Prop}

/-- A property that the three operations keep is kept by whatever calls nobody. -/
theorem change (k : Kept S P) {removes : Registration → Prop} {b b' : Switchboard σ ε}
    (h : Change S removes b b') (hb : P b) : P b' := by
  cases h with
  | nothing _ h => exact k.alike h hb
  | register callback kind hc _ h => exact k.alike h (k.register hc hb)
  | withdraw _ h => exact k.alike h (k.withdraw _ hb)
  | setDefault _ h => exact k.alike h (k.setDefault _ hb)

/-- A property that is kept holds after a step if it held before. -/
theorem advance (k : Kept S P) {b b' : Switchboard σ ε} (h : Advance S b b') (hb : P b) :
    P b' := by
  cases h with
  | obey invoke l c hc => exact k.remark _ rfl (k.change (change_attempt invoke b hc) hb)
  | report slot p =>
      have halike : Alike b { b with source := (S.report slot p b.source).2 } := ⟨rfl, rfl, rfl⟩
      exact k.remark _ rfl (k.alike halike hb)
  | launch slot hp => exact k.launch slot hp hb
  | skip hr ha => exact k.skip hr ha hb
  | call hr ha hk => exact k.alike (alike_hand _ _ _) (k.call hr ha hk hb)
  | land hr => exact k.land hr hb
  | remark l c o hc => exact k.remark _ rfl hb

/-- A property that is kept holds ever after. -/
theorem reaches (k : Kept S P) {b b' : Switchboard σ ε} (h : Reaches S b b') (hb : P b) :
    P b' := by
  induction h with
  | refl => exact hb
  | tail _ hstep ih => exact k.advance hstep ih

end Kept

/-! ## properties of registrations

Most properties are about the registry, the registrations that are due, and the story
so far.  For them it is enough to look at the operations of the registry. -/

/-- What such a property has to satisfy to hold at every moment of a run, once it holds
at the start. -/
structure Upheld (Q : Registry → List Registration → List (Event σ ε) → Prop) : Prop where
  remark {g due t} (e : Event σ ε) : e.isRemark = true → Q g due t → Q g due (e :: t)
  add {g due t kind options selector callback mode} : callback.suits kind →
    g.selector kind options = .ok selector →
    g.duplicate? kind selector callback mode = none → Q g due t →
    Q (g.add kind selector callback mode) due t
  withdraw {g due t} (selected) : Q g due t →
    Q (g.withdraw selected).rest due (.withdrawn (g.withdraw selected).removed :: t)
  moveDefault {g due t slot} : ¬ (slot < 0 ∨ g.slotCount ≤ slot) → Q g due t →
    Q (g.moveDefault slot).1 due t
  collect {g due t kind} {p : Payload} (slot) : p.kind = kind → Q g due t →
    Q (g.collect kind slot).rest ((g.collect kind slot).deliveries ++ due)
      (.published kind slot p (g.collect kind slot).deliveries :: t)
  skip {g r due t} : r.id ∉ g.armed → Q g (r :: due) t → Q (g.claim r).2 due t
  call {g r due t} {p : Payload} : r.id ∈ g.armed → r.kind = p.kind → Q g (r :: due) t →
    Q (g.claim r).2 due (r.handed p :: t)

theorem comeTo_armed (r : Registration) (rs : List Registration) (b : Switchboard σ ε) :
    (b.comeTo r rs).1 = true ↔ r.id ∈ b.registry.armed := by
  unfold comeTo Registry.claim
  cases r.mode <;> simp

namespace Upheld

variable {Q : Registry → List Registration → List (Event σ ε) → Prop}

/-- Making a registration adds one to the registry or leaves it alone. -/
theorem register (u : Upheld Q) {b b' : Switchboard σ ε} {callback : Callback} {kind : Kind}
    {options : Option Options} {mode : Mode} {o : Except Failure Nat}
    (h : Registering S callback kind options mode b o b') (hc : callback.suits kind)
    (hb : Q b.registry b.running.flatten (story b.trace)) :
    Q b'.registry b'.running.flatten (story b'.trace) := by
  rw [h.running_eq, h.story_eq]
  cases h with
  | unfit | repeated | refused => exact hb
  | joined hs hd => exact u.add hc hs hd hb
  | started hs hd => exact u.add hc hs hd hb

/-- The registry follows the default slot or is left alone. -/
theorem setDefault (u : Upheld Q) {slot : Slot} {b b' : Switchboard σ ε}
    {o : Except Failure Unit} (h : Moving S slot b o b')
    (hb : Q b.registry b.running.flatten (story b.trace)) :
    Q b'.registry b'.running.flatten (story b'.trace) := by
  rw [h.running_eq, h.story_eq]
  cases h with
  | outside | stayed => exact hb
  | refused =>
      rw [startAll_registry]
      exact hb
  | moved hslot =>
      rw [stopAll_registry, relocated_registry]
      exact u.moveDefault hslot hb

/-- Each step has one operation on the registry, apart from what the source is asked. -/
theorem kept (u : Upheld Q) :
    Kept S fun b => Q b.registry b.running.flatten (story b.trace) where
  alike h hb := by
    rw [h.registry, h.running, h.trace]
    exact hb
  remark e he hb := by
    have hrequest : e.isRequest = false := by cases e <;> first | rfl | contradiction
    rw [note_trace, story_cons hrequest]
    exact u.remark e he hb
  register hc hb := u.register (registering S _ _ _ _ _) hc hb
  withdraw selected hb := by
    rw [withdraw_registry, withdraw_running, story_withdraw]
    exact u.withdraw selected hb
  setDefault slot hb := u.setDefault (moving S slot _) hb
  launch slot hp hb := by
    rw [launch_registry, launch_running, story_launch, List.flatten_cons]
    exact u.collect slot hp hb
  skip {b r rs rest} hr ha hb := by
    rw [hr, List.flatten_cons, List.cons_append] at hb
    rw [comeTo_registry, comeTo_running hr, comeTo_trace, List.flatten_cons]
    refine u.skip (fun hm => ?_) hb
    rw [(comeTo_armed r rs b).mpr hm] at ha
    contradiction
  call {b r rs rest p} hr ha hk hb := by
    rw [hr, List.flatten_cons, List.cons_append] at hb
    rw [note_registry, note_running, note_trace, comeTo_registry, comeTo_running hr, comeTo_trace,
      List.flatten_cons, story_cons (isRequest_handed r p)]
    exact u.call ((comeTo_armed r rs b).mp ha) hk hb
  land {b rest} hr hb := by
    rw [hr, List.flatten_cons, List.nil_append] at hb
    simp only [land, hr, List.tail_cons]
    exact hb

end Upheld

end Switchboard

end SlotWatch
